import WorkGraph.Proofs.Messages

/-!
# Traversals of a workflow

What is left of the engine when the world is taken away: nodes wait on a stack, and the first of them is visited unless it
was completed before. What it comes to is decided by the context (`Scene`), and says how the context changes
(`Scene.after`) and which nodes come next, ahead of those that wait (`Scene.behind`). `Scene.Traverses` relates the stack
and the context before some visits to those after them. A traversal that empties the stack is determined by where it starts
(`Traverses.unique`), and it is one of another scene as well if its nodes come to the same there (`Traverses.congr`).
Where no click was routed, the context at its end can be told from the rows of its visits (`Traverses.replayed`).
-/

namespace WorkGraph

/-! ## Visits -/

/-- A node that had its turn: the context in which it was entered, and what came of it. -/
structure Visit where
  node : Node
  context : Context
  result : Except Fault Value

/-- What a row tells of a node, apart from numbers and times. -/
structure Account where
  node : String
  type : String
  status : RunStatus
  input : Value
  output : Value
  error : Option String

def NodeLog.account (row : NodeLog) : Account :=
  ⟨row.nodeId, row.nodeType, row.status, row.inputData, row.outputData, row.errorMessage⟩

namespace Visit

def output (v : Visit) : Value :=
  match v.result with
  | .ok output => output
  | .error fault => fault.output

/-- What the row of a visit tells. There is none where the title of the node is no text. -/
def account? (v : Visit) : Option Account :=
  if v.node.Titled then
    some
      { node := v.node.id
        type := v.node.type
        status := if v.result.toOption.isSome then .success else .failed
        input := .map (v.context.markCompleted v.node.id).flat
        output := v.output
        error := match v.result with
          | .ok _ => none
          | .error fault => some fault.message }
  else none

end Visit

/-- What a node has left in its turn is told by the visit. -/
theorem Turn.account {node : Node} {logs : List NodeLog} {row : NodeLog} {result : Except Fault Value} {w w' : World}
    {r : Run} (h : Turn node logs row result w r w') (ht : node.Titled) :
    Visit.account? ⟨node, r.context, result⟩ = some row.account := by
  rw [Visit.account?, if_pos ht, NodeLog.account, h.nodeId, h.nodeType, h.status, h.input, h.output, h.error]
  cases result <;> rfl

/-- The context from which the links of a node are followed. -/
def Routing.steered (router : Option Router) (node : Node) (output : Value) (links : List Link) (c : Context) : Context :=
  match clicked? router links output with
  | some entries => clickedContext node entries c
  | none => c

/-! ## Scenes -/

/-- Where a traversal takes place: a workflow, the tools that send messages with buttons, and what each node comes to in a
context in which it counts as completed. -/
structure Scene where
  workflow : Workflow
  tools : List Value
  comes : Node → Context → Except Fault Value

namespace Scene

variable (S : Scene)

def links (node : Node) : List Link :=
  S.workflow.graph.links node.id

/-- The nodes that links lead to. -/
def targets (links : List Link) : List Node :=
  links.filterMap (S.workflow.node? ·.target)

/-- The visit of a node. Nothing comes of one whose title is no text. -/
def visit (node : Node) (c : Context) : Visit :=
  ⟨node, c, if node.Titled then S.comes node (c.markCompleted node.id) else .error (.engine "")⟩

/-- The context once a node has run with an output, and its click, if it brings one along, was routed. -/
def settled (node : Node) (output : Value) (c : Context) : Context :=
  match Routing.answer? S.tools (S.links node) node output with
  | some entries => Routing.clickedContext node entries c
  | none => c

/-- The context behind a visit. -/
def after (v : Visit) : Context :=
  match v.result with
  | .ok output => S.settled v.node output (v.context.turned v.node (.ok output))
  | .error fault => v.context.turned v.node (.error fault)

/-- The nodes that a visit leads to. -/
def behind (v : Visit) : List Node :=
  match v.result with
  | .ok output =>
    match Router.choose S.tools v.node output with
    | .ok router => S.targets (Routing.selected router output (S.links v.node))
    | .error _ => []
  | .error _ => []

/-- Whether a fault ends a visit. -/
def fell (v : Visit) : Bool :=
  match v.result with
  | .ok output => !(Router.choose S.tools v.node output).isOk
  | .error _ => true

/-- Whether the node waits for a click. -/
def waits (v : Visit) : Bool :=
  match v.result with
  | .ok output => v.node.waits S.tools S.workflow.graph output
  | .error _ => false

/-- The visits that lead from a stack of nodes and a context to others. -/
inductive Traverses : List Node → Context → List Visit → List Node → Context → Prop
  | refl (stack : List Node) (c : Context) : Traverses stack c [] stack c
  | skip {node : Node} {stack rest : List Node} {c d : Context} {vs : List Visit} : c.isCompleted node.id = true →
      Traverses stack c vs rest d → Traverses (node :: stack) c vs rest d
  | visit {node : Node} {stack rest : List Node} {c d : Context} {vs : List Visit} : c.isCompleted node.id = false →
      Traverses (S.behind (S.visit node c) ++ stack) (S.after (S.visit node c)) vs rest d →
      Traverses (node :: stack) c (S.visit node c :: vs) rest d

end Scene

/-! ## What a visit does to the context -/

@[simp] theorem Context.buttonData_turned (c : Context) (node : Node) (result : Except Fault Value) :
    (c.turned node result).buttonData = c.buttonData := by
  cases result with
  | ok output => simp [turned]
  | error fault =>
    rw [turned, kept]
    split <;> simp

namespace Scene

variable {S : Scene}

@[simp] theorem isCompleted_settled (node : Node) (output : Value) (c : Context) (other : String) :
    (S.settled node output c).isCompleted other = c.isCompleted other := by
  unfold settled
  split <;> rfl

/-- Nothing is behind a visit that a fault has ended. -/
theorem of_fell {v : Visit} (h : S.fell v = true) :
    S.after v = v.context.turned v.node v.result ∧ S.behind v = [] ∧ S.waits v = false := by
  obtain ⟨node, c, _ | output⟩ := v
  · exact ⟨rfl, rfl, rfl⟩
  · unfold fell at h
    dsimp only at h
    unfold after settled Routing.answer? behind waits Node.waits
    dsimp only
    cases hc : Router.choose S.tools node output with
    | ok router =>
      rw [hc] at h
      cases h
    | error fault => exact ⟨rfl, rfl, rfl⟩

/-- What is behind a visit is decided by the router. -/
theorem of_routed {v : Visit} {output : Value} {router : Option Router} (h : v.result = .ok output)
    (hc : Router.choose S.tools v.node output = .ok router) :
    S.after v = Routing.steered router v.node output (S.links v.node) (v.context.turned v.node v.result) ∧
      S.behind v = S.targets (Routing.selected router output (S.links v.node)) ∧ S.fell v = false ∧
      S.waits v = Routing.suspends router output (S.links v.node) := by
  obtain ⟨node, c, result⟩ := v
  obtain rfl : result = .ok output := h
  unfold after settled Routing.answer? behind fell waits Node.waits
  dsimp only at hc ⊢
  rw [hc]
  exact ⟨rfl, rfl, rfl, rfl⟩

/-- A node that was visited counts as completed, besides those that did. -/
theorem isCompleted_after (v : Visit) (other : String) :
    (S.after v).isCompleted other = (other == v.node.id || v.context.isCompleted other) := by
  rw [← Context.isCompleted_turned v.context v.node v.result other]
  obtain ⟨node, c, _ | output⟩ := v
  · rfl
  · exact isCompleted_settled _ _ _ _

/-- A click that was routed stays in the context. -/
theorem settled_eq {node : Node} {output : Value} {c : Context} (h : (S.settled node output c).buttonData = none) :
    S.settled node output c = c := by
  unfold settled at h ⊢
  split
  · next ha =>
    rw [ha] at h
    cases h
  · rfl

/-- The context behind a visit, where no click was routed. -/
theorem after_eq {v : Visit} (h : (S.after v).buttonData = none) : S.after v = v.context.turned v.node v.result := by
  obtain ⟨node, c, _ | output⟩ := v
  · rfl
  · exact settled_eq h

theorem unclicked_of_after {v : Visit} (h : (S.after v).buttonData = none) : v.context.buttonData = none := by
  rw [after_eq h, Context.buttonData_turned] at h
  exact h

/-- Nodes of the workflow lead to nodes of the workflow. -/
theorem mem_of_behind {v : Visit} {node : Node} (h : node ∈ S.behind v) : node ∈ S.workflow.nodes := by
  unfold behind at h
  split at h
  · split at h
    · obtain ⟨link, -, hn⟩ := List.mem_filterMap.1 h
      exact List.mem_of_find?_eq_some hn
    · cases h
  · cases h

namespace Traverses

variable {T : Scene} {stack rest more : List Node} {c d e : Context} {us vs : List Visit} {v : Visit} {node : Node}

theorem trans (h : S.Traverses stack c us rest d) (k : S.Traverses rest d vs more e) :
    S.Traverses stack c (us ++ vs) more e := by
  induction h with
  | refl => exact k
  | skip hdone _ ih => exact .skip hdone (ih k)
  | visit hnew _ ih => exact .visit hnew (ih k)

/-- What is below the stack does not matter. -/
theorem onto (h : S.Traverses stack c vs rest d) (below : List Node) :
    S.Traverses (stack ++ below) c vs (rest ++ below) d := by
  induction h with
  | refl => exact .refl _ _
  | skip hdone _ ih => exact .skip hdone ih
  | visit hnew _ ih => exact .visit hnew (by rwa [List.append_assoc] at ih)

/-- Two stacks are traversed one after the other. -/
theorem append (h : S.Traverses stack c us [] d) (k : S.Traverses more d vs [] e) :
    S.Traverses (stack ++ more) c (us ++ vs) [] e :=
  (h.onto more).trans k

/-- A traversal with some visits passes through where the last of them begins. -/
theorem split (h : S.Traverses stack c (us ++ v :: vs) rest e) :
    ∃ waiting, S.Traverses stack c us (v.node :: waiting) v.context ∧ v.context.isCompleted v.node.id = false ∧
      v = S.visit v.node v.context ∧ S.Traverses (S.behind v ++ waiting) (S.after v) vs rest e := by
  generalize hall : us ++ v :: vs = all at h
  induction h generalizing us with
  | refl => simp at hall
  | skip hdone _ ih =>
    obtain ⟨waiting, hfirst, hrest⟩ := ih hall
    exact ⟨waiting, .skip hdone hfirst, hrest⟩
  | @visit node stack rest c e ws hnew k ih =>
    cases us with
    | nil =>
      obtain ⟨rfl, rfl⟩ := List.cons.inj hall
      exact ⟨stack, .refl _ _, hnew, rfl, k⟩
    | cons u us =>
      obtain ⟨rfl, hothers⟩ := List.cons.inj hall
      obtain ⟨waiting, hfirst, hrest⟩ := ih hothers
      exact ⟨waiting, .visit hnew hfirst, hrest⟩

/-- Nodes that are completed are passed over. -/
theorem passed (h : ∀ node ∈ stack, c.isCompleted node.id = true) : S.Traverses stack c [] [] c := by
  induction stack with
  | nil => exact .refl [] c
  | cons node stack ih =>
    exact .skip (h node List.mem_cons_self) (ih fun other hm => h other (List.mem_cons_of_mem _ hm))

/-- If no node is visited, all are completed. -/
theorem of_nil (h : S.Traverses stack c [] [] d) : d = c ∧ ∀ node ∈ stack, c.isCompleted node.id = true := by
  generalize hvs : ([] : List Visit) = vs at h
  generalize hrest : ([] : List Node) = rest at h
  induction h with
  | refl =>
    subst hrest
    exact ⟨rfl, fun node hn => by cases hn⟩
  | skip hdone _ ih =>
    obtain ⟨rfl, hall⟩ := ih hvs hrest
    exact ⟨rfl, fun node hn => (List.mem_cons.1 hn).elim (fun he => he ▸ hdone) (hall node)⟩
  | visit => cases hvs

/-- Where a stack and a context lead to is determined. -/
theorem unique (h : S.Traverses stack c us [] d) (k : S.Traverses stack c vs [] e) : us = vs ∧ d = e := by
  generalize hrest : ([] : List Node) = rest at h
  induction h generalizing vs with
  | refl =>
    subst hrest
    cases k with
    | refl => exact ⟨rfl, rfl⟩
  | skip hdone _ ih =>
    subst hrest
    cases k with
    | skip _ k => exact ih k rfl
    | visit hnew _ =>
      rw [hdone] at hnew
      cases hnew
  | visit hnew _ ih =>
    subst hrest
    cases k with
    | skip hdone _ =>
      rw [hnew] at hdone
      cases hdone
    | visit _ k =>
      obtain ⟨rfl, rfl⟩ := ih k rfl
      exact ⟨rfl, rfl⟩

/-! ## What stays -/

/-- Nodes that are completed stay so. -/
theorem completed (h : S.Traverses stack c vs rest d) {id : String} (hc : c.isCompleted id = true) :
    d.isCompleted id = true := by
  induction h with
  | refl => exact hc
  | skip _ _ ih => exact ih hc
  | visit _ _ ih => exact ih (by rw [isCompleted_after]; exact Bool.or_eq_true_iff.2 (.inr hc))

/-- A node that is visited was not completed, and is from then on. -/
theorem fresh (h : S.Traverses stack c vs rest d) (hv : v ∈ vs) :
    c.isCompleted v.node.id = false ∧ d.isCompleted v.node.id = true := by
  induction h with
  | refl => cases hv
  | skip _ _ ih => exact ih hv
  | @visit node _ _ c _ _ hnew k ih =>
    rcases List.mem_cons.1 hv with rfl | hv
    · exact ⟨hnew, k.completed (by rw [isCompleted_after]; exact Bool.or_eq_true_iff.2 (.inl (beq_self_eq_true _)))⟩
    · obtain ⟨hfresh, hdone⟩ := ih hv
      rw [isCompleted_after, Bool.or_eq_false_iff] at hfresh
      exact ⟨hfresh.2, hdone⟩

/-- Nodes of the workflow are visited. -/
theorem mem (h : S.Traverses stack c vs rest d) (hs : ∀ node ∈ stack, node ∈ S.workflow.nodes) (hv : v ∈ vs) :
    v.node ∈ S.workflow.nodes := by
  induction h with
  | refl => cases hv
  | skip _ _ ih => exact ih (fun node hn => hs node (List.mem_cons_of_mem _ hn)) hv
  | visit _ _ ih =>
    rcases List.mem_cons.1 hv with rfl | hv
    · exact hs _ List.mem_cons_self
    · exact ih (fun node hn => (List.mem_append.1 hn).elim mem_of_behind fun hn => hs node (List.mem_cons_of_mem _ hn)) hv

/-- A click that was routed is not forgotten. -/
theorem unclicked (h : S.Traverses stack c vs rest d) (hd : d.buttonData = none) : c.buttonData = none := by
  induction h with
  | refl => exact hd
  | skip _ _ ih => exact ih hd
  | visit _ _ ih => exact unclicked_of_after (ih hd)

/-- It is the same in a scene in which the nodes that are visited come to the same. -/
theorem congr (h : S.Traverses stack c vs rest d) (hw : T.workflow = S.workflow) (ht : T.tools = S.tools)
    (hc : ∀ v ∈ vs, ∀ c, T.comes v.node c = S.comes v.node c) : T.Traverses stack c vs rest d := by
  induction h with
  | refl => exact .refl _ _
  | skip hdone _ ih => exact .skip hdone (ih hc)
  | @visit node stack rest c d vs hnew _ ih =>
    have hvisit : S.visit node c = T.visit node c := by
      rw [Scene.visit, Scene.visit, show T.comes node = S.comes node from funext (hc _ List.mem_cons_self)]
    have hbehind (v : Visit) : S.behind v = T.behind v := by
      unfold behind targets links
      rw [hw, ht]
    have hafter (v : Visit) : S.after v = T.after v := by
      unfold after settled links
      rw [hw, ht]
    rw [hbehind, hafter, hvisit] at ih
    rw [hvisit]
    exact .visit hnew (ih fun v hv => hc v (List.mem_cons_of_mem _ hv))

end Traverses

end Scene

/-! ## Rows -/

/-- The row of a visit adds to a context what the visit did, unless the node has put out nothing. -/
theorem Visit.replayLog_eq {v : Visit} {row : NodeLog} (h : v.account? = some row.account) (hr : row.isRouting = false)
    (ho : v.context.hasOutput v.node.id = false)
    (hn : row.status = .success → row.outputData.isNull = false) :
    v.context.replayLog row = .ok (v.context.turned v.node v.result) := by
  obtain ⟨node, c, result⟩ := v
  unfold account? at h
  split at h
  · have haccount := Option.some.inj h
    have hid : node.id = row.nodeId := congrArg Account.node haccount
    have htype : node.type = row.nodeType := congrArg Account.type haccount
    have hstatus : (if result.toOption.isSome then RunStatus.success else .failed) = row.status :=
      congrArg Account.status haccount
    have houtput : output ⟨node, c, result⟩ = row.outputData := congrArg Account.output haccount
    have hmarked : (c.markCompleted node.id).hasOutput node.id = false := by rwa [Context.hasOutput_markCompleted]
    unfold Context.replayLog
    rw [hr, if_neg Bool.false_ne_true, ← hid, ← htype, ← houtput]
    dsimp only
    cases result with
    | ok value =>
      have hvalue : value.isNull = false := by
        have hnull := hn hstatus.symm
        rwa [← houtput] at hnull
      rw [hmarked, show output ⟨node, c, .ok value⟩ = value from rfl, hvalue]
      exact Context.record_eq _ _ hmarked
    | error fault =>
      rw [hmarked, show output ⟨node, c, .error fault⟩ = fault.output from rfl, Context.turned, Context.kept, hmarked]
      cases fault.output.isNull with
      | true => rfl
      | false => exact Context.record_eq _ _ hmarked
  · cases h

/-- Where no click was routed, the context is rebuilt from the rows. -/
theorem Scene.Traverses.replayed {S : Scene} {stack rest : List Node} {c d : Context} {vs : List Visit}
    {rows : List NodeLog} (h : S.Traverses stack c vs rest d) (hd : d.buttonData = none)
    (hc : ∀ node, c.hasOutput node = true → c.isCompleted node = true)
    (hrows : vs.map Visit.account? = rows.map (some ·.account)) (hr : ∀ row ∈ rows, row.isRouting = false)
    (hn : ∀ row ∈ rows, row.status = .success → row.outputData.isNull = false) :
    rows.foldlM Context.replayLog c = .ok d := by
  induction h generalizing rows with
  | refl =>
    obtain rfl := List.map_eq_nil_iff.1 hrows.symm
    rfl
  | skip _ _ ih => exact ih hd hc hrows hr hn
  | @visit node stack rest c d vs hnew k ih =>
    obtain ⟨row, rows, rfl, hrow, hrest⟩ := List.map_eq_cons_iff.1 hrows.symm
    have ho : c.hasOutput node.id = false := Bool.eq_false_iff.2 fun ho => by
      rw [hc _ ho] at hnew
      cases hnew
    have hafter := after_eq (k.unclicked hd)
    have hreplayed := Visit.replayLog_eq (v := S.visit node c) hrow.symm (hr row List.mem_cons_self) ho
      (hn row List.mem_cons_self)
    rw [List.foldlM_cons, show c.replayLog row = .ok _ from hreplayed, ← hafter]
    refine ih hd (fun other hother => ?_) hrest.symm (fun log hm => hr log (List.mem_cons_of_mem _ hm))
      fun log hm => hn log (List.mem_cons_of_mem _ hm)
    rw [hafter] at hother
    rw [hafter, Context.isCompleted_turned]
    exact Bool.or_eq_true_iff.2 ((Context.hasOutput_turned hother).imp beq_iff_eq.2 (hc other))

end WorkGraph
