import Mathlib
import WorkGraph.Proofs.Cycle
import WorkGraph.Proofs.Outcome

/-!
# How far an invocation goes

In whatever graph, a dispatch comes to an end. Each node that is run was not completed before, and is from then on, so
that dispatches are nested no deeper than there are ids, and the depth that a run allows for is never used up
(`Dispatch.Covers`). The links of a node are followed once, as it has an output from then on; so the nodes that are
entered are told by the edges (`Spread`). `dispatch_bounded` says this of an execution that starts, and of one that goes
on behind a click: there the node that was clicked is not routed a second time, since its output is there already.
-/

namespace WorkGraph

open Engine Running

/-! ## The extent of a tree -/

namespace Branch

mutual

/-- How many dispatches there are in a tree. -/
def entries : Branch → Nat
  | skipped => 1
  | fell _ _ _ => 1
  | grew _ _ behind => 1 + entriesOf behind

def entriesOf : List Branch → Nat
  | [] => 0
  | b :: rest => b.entries + entriesOf rest

end

mutual

/-- The nodes that were run, in the order in which they were entered. -/
def ran : Branch → List String
  | skipped => []
  | fell node _ _ => [node]
  | grew node _ behind => node :: ranOf behind

def ranOf : List Branch → List String
  | [] => []
  | b :: rest => b.ran ++ ranOf rest

end

mutual

/-- The nodes that were routed. -/
def routed : Branch → List String
  | skipped => []
  | fell _ _ _ => []
  | grew node _ behind => node :: routedOf behind

def routedOf : List Branch → List String
  | [] => []
  | b :: rest => b.routed ++ routedOf rest

end

mutual

/-- How deep the dispatches of a tree are nested. -/
def height : Branch → Nat
  | skipped => 1
  | fell _ _ _ => 1
  | grew _ _ behind => 1 + heightOf behind

def heightOf : List Branch → Nat
  | [] => 0
  | b :: rest => max b.height (heightOf rest)

end

section Append

variable (bs cs : List Branch)

@[simp] theorem entriesOf_append : entriesOf (bs ++ cs) = entriesOf bs + entriesOf cs := by
  induction bs with
  | nil => simp [entriesOf]
  | cons b rest ih => rw [List.cons_append, entriesOf, ih, entriesOf, Nat.add_assoc]

@[simp] theorem ranOf_append : ranOf (bs ++ cs) = ranOf bs ++ ranOf cs := by
  induction bs with
  | nil => rfl
  | cons b rest ih => rw [List.cons_append, ranOf, ih, ranOf, List.append_assoc]

@[simp] theorem routedOf_append : routedOf (bs ++ cs) = routedOf bs ++ routedOf cs := by
  induction bs with
  | nil => rfl
  | cons b rest ih => rw [List.cons_append, routedOf, ih, routedOf, List.append_assoc]

@[simp] theorem heightOf_append : heightOf (bs ++ cs) = max (heightOf bs) (heightOf cs) := by
  induction bs with
  | nil => simp [heightOf]
  | cons b rest ih => rw [List.cons_append, heightOf, ih, heightOf, Nat.max_assoc]

end Append

mutual

/-- Only nodes that were run are routed. -/
theorem routed_sublist : ∀ b : Branch, b.routed.Sublist b.ran
  | skipped => .refl _
  | fell _ _ _ => List.nil_sublist _
  | grew node _ behind => (routedOf_sublist behind).cons_cons node

theorem routedOf_sublist : ∀ bs : List Branch, (routedOf bs).Sublist (ranOf bs)
  | [] => .refl _
  | b :: rest => (routed_sublist b).append (routedOf_sublist rest)

end

end Branch

/-! ## Edges and ids -/

namespace Workflow

/-- The ids of the nodes, each once. -/
def ids (W : Workflow) : List String :=
  (W.nodes.map Node.id).eraseDups

/-- How many edges have both ends. -/
def joined (W : Workflow) : Nat :=
  W.edges.countP fun edge => (Graph.endpoint? edge.source).isSome && (Graph.endpoint? edge.target).isSome

theorem mem_ids {W : Workflow} {node : Node} (h : node ∈ W.nodes) : node.id ∈ W.ids :=
  List.mem_eraseDups.2 (List.mem_map_of_mem h)

end Workflow

namespace Graph

/-- How many links some vertices have. -/
def fanout (g : Graph) (vertices : List String) : Nat :=
  (vertices.map fun vertex => (g.links vertex).length).sum

@[simp] theorem fanout_cons (g : Graph) (vertex : String) (rest : List String) :
    g.fanout (vertex :: rest) = (g.links vertex).length + g.fanout rest := rfl

@[simp] theorem fanout_append (g : Graph) (vertices more : List String) :
    g.fanout (vertices ++ more) = g.fanout vertices + g.fanout more := by
  simp [fanout]

/-- An edge is a link of one of some distinct vertices at most. -/
theorem sum_linkFrom?_le {vertices : List String} (h : vertices.Nodup) (edge : Edge) :
    (vertices.map fun vertex => (linkFrom? vertex edge).toList.length).sum ≤
      if (endpoint? edge.source).isSome && (endpoint? edge.target).isSome then 1 else 0 := by
  induction vertices with
  | nil => simp
  | cons vertex rest ih =>
    rw [List.nodup_cons] at h
    rw [List.map_cons, List.sum_cons]
    by_cases hs : endpoint? edge.source = some vertex
    · -- none of the others is the source
      have hrest : (rest.map fun other => (linkFrom? other edge).toList.length).sum = 0 := by
        refine List.sum_eq_zero fun n hn => ?_
        obtain ⟨other, ho, rfl⟩ := List.mem_map.1 hn
        have hne : endpoint? edge.source ≠ some other := by
          rw [hs]
          rintro he
          exact h.1 (Option.some.inj he ▸ ho)
        simp [linkFrom?, hne]
      rw [hrest, linkFrom?, if_pos hs, hs]
      cases endpoint? edge.target <;> simp
    · rw [linkFrom?, if_neg hs]
      simpa using ih h.2

/-- Distinct vertices have no more links than there are edges with both ends. -/
theorem fanout_le {vertices : List String} (h : vertices.Nodup) (W : Workflow) :
    W.graph.fanout vertices ≤ W.joined := by
  have hfold : ∀ edges : List Edge, (ofEdges edges).fanout vertices ≤
      edges.countP fun edge => (endpoint? edge.source).isSome && (endpoint? edge.target).isSome := by
    intro edges
    simp only [fanout, links_ofEdges]
    induction edges with
    | nil => simp
    | cons edge rest ih =>
      have hsplit : (vertices.map fun vertex => ((edge :: rest).filterMap (linkFrom? vertex)).length).sum =
          (vertices.map fun vertex => (linkFrom? vertex edge).toList.length).sum +
            (vertices.map fun vertex => (rest.filterMap (linkFrom? vertex)).length).sum := by
        rw [← List.sum_map_add]
        refine congrArg List.sum (List.map_congr_left fun vertex _ => ?_)
        cases hl : linkFrom? vertex edge <;> simp [hl, Nat.add_comm]
      rw [hsplit, List.countP_cons, Nat.add_comm]
      exact Nat.add_le_add ih (sum_linkFrom?_le h edge)
  exact hfold W.edges

end Graph

/-! ## What a part of a run does -/

theorem Context.isCompleted_of_append {c d : Context} {done : List String} (h : d.completed = c.completed ++ done)
    (node : String) : d.isCompleted node = (c.isCompleted node || done.contains node) := by
  rw [isCompleted, h, List.contains_append]
  rfl

namespace Run

/-- How many ids are left whose nodes are not completed. -/
def remaining (r : Run) : Nat :=
  r.workflow.ids.countP fun id => !r.context.isCompleted id

theorem remaining_lt_depth (r : Run) : r.remaining < r.depth :=
  Nat.lt_succ_of_le List.countP_le_length

end Run

/-- A part of a run, in which some links were followed to some trees: what was run in them counts as completed and had
not before, what was routed had no output before, and more than these links and those of what was routed were not
followed. -/
structure Spread (links : Nat) (trees : List Branch) (r s : Run) : Prop where
  workflow : s.workflow = r.workflow
  graph : s.graph = r.graph
  completed : s.context.completed = r.context.completed ++ Branch.ranOf trees
  entered : s.entered.length = r.entered.length + Branch.entriesOf trees
  nodup : (Branch.ranOf trees).Nodup
  fresh : ∀ node ∈ Branch.ranOf trees, node ∈ r.workflow.ids ∧ r.context.isCompleted node = false
  unwritten : ∀ node ∈ Branch.routedOf trees, r.context.hasOutput node = false
  outputs : ∀ node, r.context.hasOutput node = true → s.context.hasOutput node = true
  entries : Branch.entriesOf trees ≤ links + r.graph.fanout (Branch.routedOf trees)
  height : Branch.heightOf trees ≤ r.remaining + 1

namespace Spread

variable {m n : Nat} {bs cs : List Branch} {r s t : Run}

theorem isCompleted (h : Spread n bs r s) (node : String) :
    s.context.isCompleted node = (r.context.isCompleted node || (Branch.ranOf bs).contains node) :=
  Context.isCompleted_of_append h.completed node

theorem remaining_le (h : Spread n bs r s) : s.remaining ≤ r.remaining := by
  rw [Run.remaining, Run.remaining, h.workflow]
  refine List.countP_mono_left fun node _ hn => ?_
  rw [h.isCompleted, Bool.not_or, Bool.and_eq_true] at hn
  exact hn.1

/-- A part of a run in which nothing was dispatched. -/
theorem of_still (hw : s.workflow = r.workflow) (hg : s.graph = r.graph)
    (hc : s.context.completed = r.context.completed) (he : s.entered = r.entered)
    (ho : ∀ node, r.context.hasOutput node = true → s.context.hasOutput node = true) : Spread n [] r s where
  workflow := hw
  graph := hg
  completed := by rw [hc]; simp [Branch.ranOf]
  entered := by rw [he]; rfl
  nodup := by simp [Branch.ranOf]
  fresh := by simp [Branch.ranOf]
  unwritten := by simp [Branch.routedOf]
  outputs := ho
  entries := Nat.zero_le _
  height := Nat.zero_le _

theorem refl (r : Run) : Spread n [] r r :=
  of_still rfl rfl rfl rfl fun _ h => h

theorem mono (h : Spread m bs r s) (hmn : m ≤ n) : Spread n bs r s :=
  { h with entries := Nat.le_trans h.entries (Nat.add_le_add_right hmn _) }

theorem trans (h : Spread m bs r s) (k : Spread n cs s t) : Spread (m + n) (bs ++ cs) r t where
  workflow := k.workflow.trans h.workflow
  graph := k.graph.trans h.graph
  completed := by rw [k.completed, h.completed, Branch.ranOf_append, List.append_assoc]
  entered := by rw [k.entered, h.entered, Branch.entriesOf_append, Nat.add_assoc]
  nodup := by
    rw [Branch.ranOf_append, List.nodup_append]
    refine ⟨h.nodup, k.nodup, ?_⟩
    rintro node hb _ hc rfl
    have hnew := (k.fresh node hc).2
    rw [h.isCompleted, Bool.or_eq_false_iff] at hnew
    simp [hb] at hnew
  fresh := by
    intro node hn
    rw [Branch.ranOf_append, List.mem_append] at hn
    rcases hn with hb | hc
    · exact h.fresh node hb
    · obtain ⟨hid, hnew⟩ := k.fresh node hc
      rw [h.isCompleted, Bool.or_eq_false_iff] at hnew
      exact ⟨h.workflow ▸ hid, hnew.1⟩
  unwritten := by
    intro node hn
    rw [Branch.routedOf_append, List.mem_append] at hn
    rcases hn with hb | hc
    · exact h.unwritten node hb
    · rw [Bool.eq_false_iff]
      intro ho
      exact absurd (h.outputs node ho) (by simp [k.unwritten node hc])
  outputs := fun node ho => k.outputs node (h.outputs node ho)
  entries := by
    have hk := k.entries
    rw [h.graph] at hk
    have hh := h.entries
    rw [Branch.entriesOf_append, Branch.routedOf_append, Graph.fanout_append]
    omega
  height := by
    have hk := k.height
    have hr := h.remaining_le
    have hh := h.height
    rw [Branch.heightOf_append]
    omega

end Spread

/-! ## One node -/

namespace Dispatch

/-- Of a run, a node counts as completed besides what did, and no output is lost. -/
def Advanced (node : Node) (r : Run) (p : Progress) : Prop :=
  p.run.context.completed = r.context.completed ++ [node.id] ∧
    ∀ other, r.context.hasOutput other = true → p.run.context.hasOutput other = true

section Advanced

variable {node : Node} {r : Run}

/-- What the engine does on its own changes no run. -/
theorem advanced_lift {α : Type} (act : Engine α) : Keeps (Advanced node r) (liftM act : Running α) :=
  fun _ h => h

theorem advanced_marked (h : r.context.isCompleted node.id = false) (w : World) :
    Advanced node r ⟨w, r.marked node⟩ := by
  constructor
  · show (r.context.markCompleted node.id).completed = _
    rw [Context.markCompleted, if_neg (by simpa using h)]
  · intro other ho
    exact (Context.hasOutput_markCompleted _ _ _).trans ho

theorem advanced_record (output : Value) : Keeps (Advanced node r) (record node output) := by
  rintro ⟨w, s⟩ ⟨hc, ho⟩
  cases hout : s.context.hasOutput node.id with
  | true =>
    obtain ⟨fault, hgo⟩ := go_record_error hout output w
    rw [hgo]
    exact ⟨hc, ho⟩
  | false =>
    rw [go_record hout]
    have hdone : s.context.isCompleted node.id = true := by
      rw [Context.isCompleted_of_append hc]
      simp
    refine ⟨(Context.completed_recorded hdone).trans hc, fun other h => ?_⟩
    rw [Context.hasOutput_recorded, ho other h, Bool.or_true]

theorem advanced_fail (log : NodeLog) (start : Int) (fault : Fault) :
    Keeps (Advanced node r) (fail node log start fault) := by
  refine keeps_bind (advanced_lift _) fun duration => keeps_bind (fun _ h => h) fun c => ?_
  have hclose : Keeps (Advanced node r) (do
      let _ ← liftM (Journal.nodeFailed log fault duration.millis fault.output)
      pure () : Running Unit) := keeps_bind (advanced_lift _) fun _ => keeps_pure ()
  exact keeps_ite (keeps_bind (advanced_record _) fun _ => hclose) hclose

end Advanced

/-- A node that is performed counts as completed from then on. -/
theorem advanced_perform (node : Node) (p : Progress) (hnew : p.run.context.isCompleted node.id = false) :
    Advanced node p.run (go (perform node) p).2 := by
  obtain ⟨w, r⟩ := p
  unfold perform
  rw [go_bind_ok (go_marked node w r)]
  refine (?_ : Keeps (Advanced node r) _) _ (advanced_marked hnew w)
  refine keeps_bind (advanced_lift _) fun _ => keeps_bind (fun _ h => h) fun s =>
    keeps_bind (advanced_lift _) fun log => keeps_bind (advanced_lift _) fun result => ?_
  cases result with
  | ok output =>
    exact keeps_bind (advanced_record _) fun _ => keeps_bind (advanced_lift _) fun _ =>
      keeps_bind (advanced_lift _) fun _ => keeps_pure _
  | error fault => exact keeps_bind (advanced_fail _ _ _) fun _ => keeps_throw _

end Dispatch

/-! ## Following links -/

namespace Routing

/-- A fault behind a link does not end the routing. -/
theorem followLink_ok (dispatch : Node → Running Unit) (link : Link) (p : Progress) :
    ∃ error q, go (followLink dispatch link) p = (.ok error, q) := by
  obtain ⟨w, r⟩ := p
  unfold followLink
  rw [go_bind_ok (go_run w r)]
  cases r.workflow.node? link.target with
  | none => exact ⟨_, _, rfl⟩
  | some target =>
    dsimp only
    rw [go_bind, go_faultOf]
    rcases go (dispatch target) ⟨w, r⟩ with ⟨_ | _, q⟩ <;> exact ⟨_, _, rfl⟩

theorem follow_ok (dispatch : Node → Running Unit) (links : List Link) (p : Progress) :
    ∃ routing q, go (follow dispatch links) p = (.ok routing, q) := by
  induction links generalizing p with
  | nil => exact ⟨_, _, rfl⟩
  | cons link rest ih =>
    obtain ⟨error, q, hlink⟩ := followLink_ok dispatch link p
    obtain ⟨routing, u, hrest⟩ := ih q
    unfold follow
    rw [go_bind_ok hlink, go_bind_ok hrest]
    exact ⟨_, _, rfl⟩

end Routing

/-- Whether dispatches, where fewer than some ids are left, do what their trees say, and the same as other ones. -/
def Dispatch.Covers (depth : Nat) (grow : Node → Progress → Branch) (dispatch dispatch' : Node → Running Unit) : Prop :=
  ∀ node p, node ∈ p.run.workflow.nodes → p.run.remaining < depth →
    Spread 1 [grow node p] p.run (go (dispatch node) p).2.run ∧ go (dispatch' node) p = go (dispatch node) p

namespace Routing

open Dispatch

variable {grow : Node → Progress → Branch} {dispatch dispatch' : Node → Running Unit} {depth : Nat}

section Follow

variable (h : Covers depth grow dispatch dispatch')

include h

theorem followLink_spread (link : Link) {p : Progress} (hp : p.run.remaining < depth) :
    Spread 1 ((p.run.workflow.node? link.target).map (grow · p)).toList p.run
        (go (followLink dispatch link) p).2.run ∧
      go (followLink dispatch' link) p = go (followLink dispatch link) p := by
  obtain ⟨w, r⟩ := p
  unfold followLink
  rw [go_bind_ok (go_run w r), go_bind_ok (go_run w r)]
  cases hn : r.workflow.node? link.target with
  | none => exact ⟨.refl r, rfl⟩
  | some target =>
    obtain ⟨hspread, hsame⟩ := h target ⟨w, r⟩ (List.mem_of_find?_eq_some hn) hp
    dsimp only
    rw [go_bind, go_bind, go_faultOf, go_faultOf, hsame]
    refine ⟨?_, rfl⟩
    rcases hgo : go (dispatch target) ⟨w, r⟩ with ⟨_ | _, q⟩ <;> rw [hgo] at hspread <;> exact hspread

/-- Links lead to their trees, one after the other. -/
theorem follow_spread (links : List Link) {p : Progress} (hp : p.run.remaining < depth) :
    Spread links.length (branches grow dispatch links p) p.run (go (follow dispatch links) p).2.run ∧
      go (follow dispatch' links) p = go (follow dispatch links) p := by
  induction links generalizing p with
  | nil => exact ⟨.refl p.run, rfl⟩
  | cons link rest ih =>
    obtain ⟨hfirst, hsame⟩ := followLink_spread h link hp
    obtain ⟨error, q, hlink⟩ := followLink_ok dispatch link p
    rw [hlink] at hfirst hsame
    obtain ⟨hothers, hrest⟩ := ih (Nat.lt_of_le_of_lt hfirst.remaining_le hp)
    obtain ⟨routing, u, hgo⟩ := follow_ok dispatch rest q
    rw [hgo] at hothers hrest
    unfold follow
    rw [go_bind_ok hlink, go_bind_ok hsame, go_bind_ok hgo, go_bind_ok hrest, branches, hlink, List.length_cons,
      Nat.add_comm]
    exact ⟨hfirst.trans hothers, rfl⟩

end Follow

/-- Of some links not more are followed than there are. -/
theorem length_selected_le (router : Option Router) (output : Value) (links : List Link) :
    (selected router output links).length ≤ links.length := by
  unfold selected
  split
  · exact List.length_filter_le _ _
  · exact Nat.zero_le _
  · exact List.length_filter_le _ _
  · exact Nat.le_refl _

/-- A router follows its links from a point that it brings the run to, and has something left to do behind them that
changes no run and cannot fail; neither depends on what the links lead to. -/
structure Steered (router : Option Router) (node : Node) (output : Value) (links : List Link) (p q : Progress)
    (tidy : Routing → Engine Routing) : Prop where
  still : Spread 0 [] p.run q.run
  tidied : ∀ routing w, ∃ tidied w', Engine.run (tidy routing) w = (.ok tidied, w')
  along : ∀ dispatch : Node → Running Unit, go (along router dispatch node output links) p =
    go (follow dispatch (selected router output links) >>= fun routing => liftM (tidy routing)) q
  behind : ∀ grow dispatch, behind grow dispatch router node output links p =
    branches grow dispatch (selected router output links) q

/-- All links are followed at once where nothing selects among them. -/
theorem steered_plain {router : Option Router} (node : Node) {output : Value} {links : List Link} (p : Progress)
    (hsel : selected router output links = links)
    (halong : ∀ dispatch, along router dispatch node output links = follow dispatch links) :
    Steered router node output links p p pure where
  still := .refl p.run
  tidied _ _ := ⟨_, _, rfl⟩
  along dispatch := by
    rw [halong, hsel]
    exact congrArg (go · p) (bind_pure _).symm
  behind grow dispatch := by rw [Dispatch.behind, halong, go_follow_nothing]

/-- Warns of a condition with links of which none was followed. -/
def warnUnconnected (node : Node) (outlet : String) (links : List Link) (routing : Routing) : Engine Routing := do
  if !routing.routed && !links.isEmpty then
    Engine.log .warning "handlers.condition" "condition_branch_unconnected"
      [("node_id", .str node.id), ("branch", .str outlet), ("available_ports", outletList links)]
  return routing

theorem steered_condition (node : Node) (output : Entries Value) (links : List Link) (p : Progress) :
    Steered (some .condition) node (.map output) links p p
      (warnUnconnected node (if (Value.field output "result").truthy then "true" else "false") links) := by
  generalize hout : (if (Value.field output "result").truthy then "true" else "false") = outlet
  have hsel : selected (some .condition) (.map output) links = ofOutlet links outlet := by rw [← hout]; rfl
  have halong (dispatch : Node → Running Unit) : go (along (some .condition) dispatch node (.map output) links) p =
      go (follow dispatch (ofOutlet links outlet) >>= fun routing =>
        liftM (warnUnconnected node outlet links routing)) p := by
    obtain ⟨routing, ⟨w, r⟩, hgo⟩ := follow_ok dispatch (ofOutlet links outlet) p
    show go (condition dispatch node output links) p = _
    unfold condition warnUnconnected
    dsimp only
    rw [hout, go_bind_ok hgo, go_bind_ok hgo]
    split
    · exact go_lift_returning _ routing w r
    · rfl
  refine ⟨.refl p.run, fun routing w => ?_, fun dispatch => ?_, fun grow dispatch => ?_⟩
  · unfold warnUnconnected
    split <;> exact ⟨_, _, rfl⟩
  · rw [halong, hsel]
  · rw [Dispatch.behind, hsel]
    cases hl : ofOutlet links outlet with
    | nil => rfl
    | cons link rest =>
      rw [halong, go_bind_ok (go_follow_nothing _ p), hl]
      rfl

/-- Suspends a run that waits for a click. -/
def suspendUnlinked (node : Node) (output : Entries Value) (links : List Link) (_ : Routing) : Engine Routing := do
  if links.isEmpty then return ⟨true, none, false⟩
  Engine.log .info "handlers.button_message" "execution_suspended"
    [("node_id", .str node.id), ("message_id", Value.field output "message_id"), ("ports", outletList links)]
  return ⟨false, none, true⟩

theorem steered_pendingSend (node : Node) (output : Entries Value) (links : List Link) (p : Progress) :
    Steered (some .pendingSend) node (.map output) links p p (suspendUnlinked node output links) := by
  refine ⟨.refl p.run, fun routing w => ?_, fun dispatch => ?_, fun _ _ => rfl⟩
  · unfold suspendUnlinked
    split <;> exact ⟨_, _, rfl⟩
  · show go (pendingSend node output links) p = go (liftM (suspendUnlinked node output links nowhere)) p
    unfold pendingSend suspendUnlinked
    split <;> rfl

/-- A click changes the context before its links are followed, if it has any. -/
theorem steered_buttonClick (node : Node) (output : Entries Value) (links : List Link) (p : Progress) :
    ∃ q, Steered (some .buttonClick) node (.map output) links p q pure := by
  obtain ⟨w, r⟩ := p
  cases hl : (ofOutlet links (Value.field output "button_id").display).isEmpty with
  | true =>
    have hsel : selected (some .buttonClick) (.map output) links = [] := List.isEmpty_iff.1 hl
    refine ⟨⟨w, r⟩, .refl r, fun _ _ => ⟨_, _, rfl⟩, fun dispatch => ?_, fun grow dispatch => ?_⟩
    · rw [hsel]
      show go (buttonClick dispatch node output links) ⟨w, r⟩ = (.ok nowhere, ⟨w, r⟩)
      unfold buttonClick
      dsimp only
      rw [hl]
      rfl
    · rw [Dispatch.behind, hsel]
      rfl
  | false =>
    obtain ⟨w', -, hrun⟩ := go_buttonClick node hl w r
    refine ⟨⟨w', { r with context := clickedContext node output r.context }⟩, ?_, fun _ _ => ⟨_, _, rfl⟩,
      fun dispatch => ?_, fun grow dispatch => ?_⟩
    · refine .of_still rfl rfl rfl rfl fun other ho => ?_
      simp only [clickedContext, Context.setButtonData, Context.spliceButton, Context.hasOutput, Entries.has_set]
      exact Bool.or_eq_true_iff.2 (.inr ho)
    · exact (hrun dispatch).trans (congrArg (go · _) (bind_pure _).symm)
    · show branches grow dispatch _ (go (buttonClick _ node output links) ⟨w, r⟩).2 = _
      rw [hrun, go_follow_nothing]

theorem exists_steered (router : Option Router) (node : Node) (output : Value) (links : List Link) (p : Progress) :
    ∃ q tidy, Steered router node output links p q tidy := by
  cases router with
  | none => exact ⟨p, pure, steered_plain node p rfl fun _ => rfl⟩
  | some router =>
    cases output with
    | null | bool | num | str | list => exact ⟨p, pure, by cases router <;> exact steered_plain node p rfl fun _ => rfl⟩
    | map output =>
      cases router with
      | condition => exact ⟨p, _, steered_condition node output links p⟩
      | pendingSend => exact ⟨p, _, steered_pendingSend node output links p⟩
      | buttonClick =>
        obtain ⟨q, h⟩ := steered_buttonClick node output links p
        exact ⟨q, pure, h⟩

/-- Routing a node leads to the trees behind it. -/
theorem along_spread (h : Covers depth grow dispatch dispatch') (router : Option Router) (node : Node) (output : Value)
    (links : List Link) {p : Progress} (hp : p.run.remaining < depth) :
    ∃ routing q, go (along router dispatch node output links) p = (.ok routing, q) ∧
      go (along router dispatch' node output links) p = (.ok routing, q) ∧
      Spread links.length (behind grow dispatch router node output links p) p.run q.run := by
  obtain ⟨q, tidy, hsteered⟩ := exists_steered router node output links p
  obtain ⟨hspread, hsame⟩ := follow_spread h (selected router output links)
    (Nat.lt_of_le_of_lt hsteered.still.remaining_le hp)
  obtain ⟨routing, ⟨w, t⟩, hgo⟩ := follow_ok dispatch (selected router output links) q
  rw [hgo] at hspread hsame
  obtain ⟨tidied, w', hrun⟩ := hsteered.tidied routing w
  have hdone : go (liftM (tidy routing)) ⟨w, t⟩ = (.ok tidied, ⟨w', t⟩) := by rw [go_lift, hrun]
  refine ⟨tidied, ⟨w', t⟩, ?_, ?_, ?_⟩
  · rw [hsteered.along, go_bind_ok hgo, hdone]
  · rw [hsteered.along, go_bind_ok hsame, hdone]
  · have hall := hsteered.still.trans hspread
    rw [Nat.zero_add, List.nil_append] at hall
    rw [hsteered.behind]
    exact hall.mono (length_selected_le router output links)

end Routing

/-! ## Dispatches -/

/-- A node was entered and run that was not completed before. -/
structure Entered (node : Node) (r s : Run) : Prop where
  workflow : s.workflow = r.workflow
  graph : s.graph = r.graph
  mem : node ∈ r.workflow.nodes
  fresh : r.context.isCompleted node.id = false
  completed : s.context.completed = r.context.completed ++ [node.id]
  entered : s.entered.length = r.entered.length + 1
  outputs : ∀ other, r.context.hasOutput other = true → s.context.hasOutput other = true

namespace Entered

open Branch

variable {node : Node} {r s t : Run} {bs : List Branch}

theorem isCompleted (h : Entered node r s) (other : String) :
    s.context.isCompleted other = (r.context.isCompleted other || [node.id].contains other) :=
  Context.isCompleted_of_append h.completed other

/-- That is one id less whose node is not completed. -/
theorem remaining_lt (h : Entered node r s) : s.remaining < r.remaining := by
  rw [Run.remaining, Run.remaining, h.workflow]
  refine countP_lt (fun other _ ho => ?_) (Workflow.mem_ids h.mem) ?_ ?_
  · rw [h.isCompleted, Bool.not_or, Bool.and_eq_true] at ho
    exact ho.1
  · rw [h.isCompleted]
    simp
  · rw [h.fresh]
    rfl

theorem fell (h : Entered node r s) (stage : Stage) (fault : Fault) : Spread 1 [.fell node.id stage fault] r s where
  workflow := h.workflow
  graph := h.graph
  completed := h.completed
  entered := h.entered
  nodup := List.nodup_singleton node.id
  fresh other ho := by
    obtain rfl := List.mem_singleton.1 ho
    exact ⟨Workflow.mem_ids h.mem, h.fresh⟩
  unwritten other ho := by cases ho
  outputs := h.outputs
  entries := Nat.le_refl 1
  height := by simp [heightOf, height]

/-- A node that was routed had no output before, so that its links have not been counted. -/
theorem grew (h : Entered node r s) (hno : r.context.hasOutput node.id = false) (suspended : Bool)
    (k : Spread (s.graph.links node.id).length bs s t) : Spread 1 [.grew node.id suspended bs] r t where
  workflow := k.workflow.trans h.workflow
  graph := k.graph.trans h.graph
  completed := by
    rw [k.completed, h.completed, List.append_assoc]
    simp [ranOf, ran]
  entered := by
    rw [k.entered, h.entered]
    simp [entriesOf, entries, Nat.add_assoc]
  nodup := by
    have hnew : node.id ∉ ranOf bs := by
      intro hm
      have hfresh := (k.fresh node.id hm).2
      rw [h.isCompleted] at hfresh
      simp at hfresh
    simpa [ranOf, ran] using ⟨hnew, k.nodup⟩
  fresh other ho := by
    have ho : other = node.id ∨ other ∈ ranOf bs := by simpa [ranOf, ran] using ho
    rcases ho with rfl | ho
    · exact ⟨Workflow.mem_ids h.mem, h.fresh⟩
    · obtain ⟨hid, hfresh⟩ := k.fresh other ho
      rw [h.isCompleted, Bool.or_eq_false_iff] at hfresh
      exact ⟨h.workflow ▸ hid, hfresh.1⟩
  unwritten other ho := by
    have ho : other = node.id ∨ other ∈ routedOf bs := by simpa [routedOf, routed] using ho
    rcases ho with rfl | ho
    · exact hno
    · rw [Bool.eq_false_iff]
      intro hout
      exact absurd (h.outputs other hout) (by simp [k.unwritten other ho])
  outputs other ho := k.outputs other (h.outputs other ho)
  entries := by
    have hk := k.entries
    rw [h.graph] at hk
    simp only [entriesOf, entries, routedOf, routed, List.append_nil, Graph.fanout_cons]
    omega
  height := by
    have hk := k.height
    have hlt := h.remaining_lt
    simp only [heightOf, height]
    omega

end Entered

namespace Spread

variable {n : Nat} {bs : List Branch} {r s : Run}

theorem noteIn (h : Spread n bs r s) (routing : Routing) : Spread n bs r (routing.noteIn s) := by
  have hstill : Spread 0 [] s (routing.noteIn s) := by
    rw [routing.noteIn_eq]
    exact .of_still rfl rfl rfl rfl fun _ ho => ho
  have hall := h.trans hstill
  rwa [Nat.add_zero, List.append_nil] at hall

/-- A node that was entered in vain. -/
theorem skipped (r : Run) (node : String) : Spread 1 [.skipped] r { r with entered := r.entered ++ [node] } where
  workflow := rfl
  graph := rfl
  completed := (List.append_nil _).symm
  entered := List.length_append
  nodup := List.nodup_nil
  fresh other ho := by cases ho
  unwritten other ho := by cases ho
  outputs _ ho := ho
  entries := Nat.le_refl 1
  height := by simp [Branch.heightOf, Branch.height]

end Spread

namespace Dispatch

/-- A node that is performed after it was entered. -/
theorem entered_perform {node : Node} {w : World} {r : Run} (hn : node ∈ r.workflow.nodes)
    (hnew : r.context.isCompleted node.id = false) :
    Entered node r (go (perform node) ⟨w, { r with entered := r.entered ++ [node.id] }⟩).2.run := by
  obtain ⟨c, hrun⟩ := run_perform node ⟨w, { r with entered := r.entered ++ [node.id] }⟩
  obtain ⟨hcompleted, houtputs⟩ := advanced_perform node ⟨w, { r with entered := r.entered ++ [node.id] }⟩ hnew
  refine ⟨?_, ?_, hn, hnew, hcompleted, ?_, houtputs⟩ <;> rw [hrun]
  simp

/-- Dispatches do what their trees say, and to be allowed to go deeper makes no difference to them. -/
theorem covers_within (depth extra : Nat) : Covers depth (branch depth) (within depth) (within (depth + extra)) := by
  induction depth with
  | zero => exact fun node p _ hp => absurd hp (Nat.not_lt_zero _)
  | succ depth ih =>
    rintro node ⟨w, r⟩ hn hp
    have hdepth : depth + 1 + extra = depth + extra + 1 := by omega
    rw [hdepth]
    unfold branch within
    rw [go_bind_ok (go_modifyRun _ w r), go_bind_ok (go_run _ _), go_bind_ok (go_modifyRun _ w r),
      go_bind_ok (go_run _ _)]
    dsimp only
    split
    · exact ⟨.skipped r node.id, rfl⟩
    · next hc =>
      have hnew : r.context.isCompleted node.id = false := by simpa using hc
      have hentered := entered_perform (w := w) hn hnew
      rcases hgo : go (perform node) ⟨w, { r with entered := r.entered ++ [node.id] }⟩ with ⟨fault | output, v, s⟩ <;>
        rw [hgo] at hentered
      · rw [go_bind_error hgo, go_bind_error hgo]
        exact ⟨hentered.fell _ fault, rfl⟩
      · rw [go_bind_ok hgo, go_bind_ok hgo]
        unfold route
        rw [go_bind_ok (go_run v s), go_bind_ok (go_run v s), go_lift_bind (Engine.run_config v),
          go_lift_bind (Engine.run_config v)]
        dsimp only
        cases Router.choose v.config.buttonTools node output with
        | error fault =>
          rw [go_lift_bind_error (Engine.run_ofExcept _ v), go_lift_bind_error (Engine.run_ofExcept _ v)]
          exact ⟨hentered.fell .routing fault, rfl⟩
        | ok router =>
          rw [go_lift_bind (Engine.run_ofExcept _ v), go_lift_bind (Engine.run_ofExcept _ v)]
          have hleft : s.remaining < depth := Nat.lt_of_lt_of_le hentered.remaining_lt (Nat.le_of_lt_succ hp)
          obtain ⟨routing, ⟨w', t⟩, hrouted, hsame, hspread⟩ :=
            Routing.along_spread ih router node output (s.graph.links node.id) (p := ⟨v, s⟩) hleft
          have hno : r.context.hasOutput node.id = false := by
            have h := (recorded_of_perform hgo).1
            rwa [Run.marked, Context.hasOutput_markCompleted] at h
          rw [go_bind_ok hrouted, go_bind_ok hsame, go_modifyRun]
          exact ⟨(hentered.grew hno _ hspread).noteIn routing, rfl⟩

/-- A dispatch that may go deeper than the run allows for. -/
def deeper (extra : Nat) (node : Node) : Running Unit := do
  within ((← Running.run).depth + extra) node

theorem covers_dispatch (depth extra : Nat) : Covers depth tree dispatch (deeper extra) := by
  rintro node ⟨w, r⟩ hn _
  unfold dispatch deeper
  rw [go_bind_ok (go_run w r), go_bind_ok (go_run w r)]
  exact covers_within r.depth extra node ⟨w, r⟩ hn r.remaining_lt_depth

end Dispatch

/-! ## Invocations -/

/-- The bounds of what an invocation did that led to some trees: the nodes that it entered are told by the edges with
both ends, those that it ran by the ids, and so is the depth. -/
structure Bounded (W : Workflow) (trees : List Branch) (r s : Run) : Prop where
  entered : s.entered.length = Branch.entriesOf trees
  entries : Branch.entriesOf trees ≤ 1 + W.joined
  completed : s.context.completed = r.context.completed ++ Branch.ranOf trees
  ran : (Branch.ranOf trees).length ≤ W.ids.length
  height : Branch.heightOf trees ≤ W.ids.length + 1

theorem Spread.bounded {W : Workflow} {n : Nat} {bs : List Branch} {r s : Run} (h : Spread n bs r s)
    (hw : r.workflow = W) (he : r.entered = []) (hn : Branch.entriesOf bs ≤ 1 + W.joined) : Bounded W bs r s where
  entered := by rw [h.entered, he]; simp
  entries := hn
  completed := h.completed
  ran := h.nodup.length_le_of_subset fun node hm => hw ▸ (h.fresh node hm).1
  height := by
    have hr : r.remaining ≤ W.ids.length := hw ▸ List.countP_le_length
    have hh := h.height
    omega

/-- To note a failure changes nothing of that. -/
theorem Bounded.recordFailure {W : Workflow} {bs : List Branch} {r s : Run} (h : Bounded W bs r s) (message : String) :
    Bounded W bs r (s.recordFailure message) :=
  ⟨h.entered, h.entries, h.completed, h.ran, h.height⟩

namespace Invocation

open Dispatch

variable {W : Workflow} {w u : World}

/-- The run with which an execution starts. -/
theorem eq_of_opening {payload : Value} {r : Run} (h : Engine.run (opening W payload) w = (.ok r, u)) :
    ∃ execution, r = .start execution W (.start payload) := by
  rcases hx : Engine.run (Journal.startExecution W.id (Context.start payload).triggerData) w with ⟨fault | x, w'⟩
  · unfold opening at h
    rw [Engine.run_bind_error hx] at h
    cases h
  · obtain ⟨v, -, hopen⟩ := run_opening hx
    rw [hopen] at h
    exact ⟨x.id, (Except.ok.inj (Prod.mk.inj h).1).symm⟩

/-- An execution that starts at its trigger node. -/
theorem fromTrigger_bounded {r : Run} (hw : r.workflow = W) (hg : r.graph = W.graph) (he : r.entered = []) :
    Bounded W (tree? ⟨w, r⟩).toList r (go fromTrigger ⟨w, r⟩).2.run := by
  cases hn : r.workflow.triggerNode? with
  | none =>
    have hgo : go fromTrigger ⟨w, r⟩ = (.error (.rejected .nothingToStart), ⟨w, r⟩) := by
      unfold fromTrigger
      rw [go_bind_ok (go_run w r), hn]
      rfl
    rw [hgo, tree?, hn]
    exact (Spread.refl (n := 0) r).bounded hw he (Nat.zero_le _)
  | some node =>
    obtain ⟨hspread, -⟩ := covers_dispatch (r.remaining + 1) 0 node ⟨w, r⟩ (List.mem_of_find?_eq_some hn)
      (Nat.lt_succ_self _)
    rw [go_fromTrigger hn, tree?, hn]
    refine hspread.bounded hw he (Nat.le_trans hspread.entries (Nat.add_le_add_left ?_ 1))
    rw [show Run.graph (⟨w, r⟩ : Progress).run = W.graph from hg]
    exact Graph.fanout_le (hspread.nodup.sublist (Branch.routedOf_sublist _)) W

/-- Whether a click is routed by the output of its node. -/
def claimed (node : Node) (context : Context) : Engine Bool := do
  Engine.entering .resume
  Engine.ofExcept (Router.claims (← Engine.config).buttonTools node (context.output node.id) .buttonClick)

/-- A click is routed if it is claimed. -/
theorem resume_eq (W : Workflow) (execution : String) (node : Node) (context : Context) (prior : Option String) :
    resume W execution node context prior = claimed node context >>= fun claims => do
      let r := Run.resumed execution W context prior
      if !claims then return (.nowhere, r)
      let (result, s) ← Engine.onRun r
        (Routing.along (some .buttonClick) dispatch node (context.output node.id) (r.graph.links node.id))
      let routing ← Engine.ofExcept result
      return (routing, routing.noteIn s) := by
  unfold resume claimed
  simp only [bind_assoc]
  rfl

/-- An execution that goes on behind a click. The node that was clicked has an output, so that its links are not
followed again. -/
theorem resume_bounded (W : Workflow) (execution : String) (node : Node) {context : Context} (prior : Option String)
    (ho : context.hasOutput node.id = true) (u : World) :
    let r := Run.resumed execution W context prior
    let output := context.output node.id
    let links := r.graph.links node.id
    ∃ routing v s, go (Routing.along (some .buttonClick) dispatch node output links) ⟨u, r⟩ = (.ok routing, ⟨v, s⟩) ∧
      (∀ extra, go (Routing.along (some .buttonClick) (deeper extra) node output links) ⟨u, r⟩ =
        (.ok routing, ⟨v, s⟩)) ∧ Bounded W (Continuation.behind node output ⟨u, r⟩) r (routing.noteIn s) := by
  intro r output links
  have hstart : r.workflow = W ∧ r.graph = W.graph ∧ r.entered = [] ∧ r.context = context := by
    obtain ⟨_, _, h⟩ := Run.resumed_eq execution W context prior
    rw [show r = _ from h]
    exact ⟨rfl, rfl, rfl, rfl⟩
  obtain ⟨hw, hg, he, hc⟩ := hstart
  clear_value r
  have hleft : (⟨u, r⟩ : Progress).run.remaining < r.remaining + 1 := Nat.lt_succ_self _
  have hcovers := Routing.along_spread (covers_dispatch (r.remaining + 1) 0) (some .buttonClick) node output links hleft
  obtain ⟨routing, ⟨v, s⟩, hgo, -, hspread⟩ := hcovers
  refine ⟨routing, v, s, hgo, fun extra => ?_, ?_⟩
  · obtain ⟨other, q, hgo', hdeeper, -⟩ :=
      Routing.along_spread (covers_dispatch (r.remaining + 1) extra) (some .buttonClick) node output links hleft
    rw [hdeeper, ← hgo', hgo]
  · refine (hspread.noteIn routing).bounded hw he (Nat.le_trans hspread.entries ?_)
    have hnew : node.id ∉ Branch.routedOf (behind tree dispatch (some .buttonClick) node output links ⟨u, r⟩) := by
      intro hm
      have hno := hspread.unwritten node.id hm
      rw [show (⟨u, r⟩ : Progress).run.context = context from hc, ho] at hno
      cases hno
    have hnodup := List.nodup_cons.2 ⟨hnew, hspread.nodup.sublist (Branch.routedOf_sublist _)⟩
    have hle := Graph.fanout_le hnodup W
    rw [← hg, Graph.fanout_cons] at hle
    exact Nat.le_trans hle (Nat.le_add_left _ 1)

/-- A click is claimed by an output that is there. -/
theorem hasOutput_of_claimed {node : Node} {context : Context}
    (h : Engine.run (claimed node context) w = (.ok true, u)) : context.hasOutput node.id = true := by
  unfold claimed at h
  rcases he : Engine.run (Engine.entering .resume) w with ⟨fault | ⟨⟩, v⟩
  · rw [run_bind_error he] at h
    cases h
  · rw [run_bind_ok he, run_bind_ok (run_config v), run_ofExcept] at h
    obtain ⟨entries, -, hget⟩ := Router.output_of_claims (Prod.mk.inj h).1
    rw [Context.hasOutput, Entries.has, hget]
    rfl

end Invocation

/-- Whatever the graph, the world and the failures, an invocation ends, and enters no more nodes than there are edges
with both ends, but for the one that it starts at. It runs no more of them than there are ids, and is nested one deeper
at most; it would come to the same if it were allowed to go deeper. So it is with an execution that starts, unless that
fails before anything is dispatched, and with one that goes on behind a click, if that is routed. -/
theorem dispatch_bounded (W : Workflow) (w : World) :
    (∀ payload,
      (∀ fault u, run (Invocation.opening W payload) w = (.error fault, u) →
        run (Invocation.launch W payload) w = (.error fault, u)) ∧
      ∀ r u, run (Invocation.opening W payload) w = (.ok r, u) →
        (∃ s v, run (Invocation.launch W payload) w = (.ok s, v) ∧ Bounded W (Invocation.tree? ⟨u, r⟩).toList r s) ∧
        ∀ node, W.triggerNode? = some node → ∀ extra,
          go (Dispatch.deeper extra node) ⟨u, r⟩ = go (dispatch node) ⟨u, r⟩) ∧
    ∀ execution node context prior,
      let r := Run.resumed execution W context prior
      let output := context.output node.id
      let links := r.graph.links node.id
      (∀ fault u, run (Invocation.claimed node context) w = (.error fault, u) →
        run (Invocation.resume W execution node context prior) w = (.error fault, u)) ∧
      (∀ u, run (Invocation.claimed node context) w = (.ok false, u) →
        run (Invocation.resume W execution node context prior) w = (.ok (.nowhere, r), u)) ∧
      ∀ u, run (Invocation.claimed node context) w = (.ok true, u) →
        (∃ routing s v, run (Invocation.resume W execution node context prior) w = (.ok (routing, s), v) ∧
          Bounded W (Continuation.behind node output ⟨u, r⟩) r s) ∧
        ∀ extra, go (Routing.along (some .buttonClick) (Dispatch.deeper extra) node output links) ⟨u, r⟩ =
          go (Routing.along (some .buttonClick) dispatch node output links) ⟨u, r⟩ := by
  constructor
  · intro payload
    constructor
    · intro fault u hopen
      rw [Invocation.launch_eq, run_bind_error hopen]
    · intro r u hopen
      obtain ⟨execution, rfl⟩ := Invocation.eq_of_opening hopen
      constructor
      · have hbounded : Bounded W (Invocation.tree? ⟨u, .start execution W (.start payload)⟩).toList
            (.start execution W (.start payload))
            (go Invocation.fromTrigger ⟨u, .start execution W (.start payload)⟩).2.run :=
          Invocation.fromTrigger_bounded rfl rfl rfl
        obtain ⟨s, v, hsettle, -, hs⟩ :=
          Invocation.run_settle W (.start execution W (.start payload)) Invocation.fromTrigger u
        refine ⟨s, v, by rw [Invocation.launch_eq, run_bind_ok hopen, hsettle], ?_⟩
        rcases hs with rfl | ⟨message, rfl⟩
        · exact hbounded
        · exact hbounded.recordFailure message
      · intro node hn extra
        have hmem : node ∈ W.nodes := List.mem_of_find?_eq_some hn
        exact (Dispatch.covers_dispatch _ extra node ⟨u, .start execution W (.start payload)⟩ hmem
          (Nat.lt_succ_self _)).2
  · intro execution node context prior r output links
    refine ⟨fun fault u hclaims => ?_, fun u hclaims => ?_, fun u hclaims => ?_⟩
    · rw [Invocation.resume_eq, run_bind_error hclaims]
    · rw [Invocation.resume_eq, run_bind_ok hclaims]
      rfl
    · have ho : context.hasOutput node.id = true := Invocation.hasOutput_of_claimed hclaims
      obtain ⟨routing, v, s, hgo, hdeeper, hbounded⟩ := Invocation.resume_bounded W execution node prior ho u
      refine ⟨⟨routing, routing.noteIn s, v, ?_, hbounded⟩, fun extra => (hdeeper extra).trans hgo.symm⟩
      rw [Invocation.resume_eq, run_bind_ok hclaims]
      show run (onRun r _ >>= _) u = _
      rw [run_bind_ok (run_onRun r _ u), hgo]
      rfl

/-- The bound is reached: each of the edges leads to a node once, though two of them are loops and one leads back. -/
example :
    let trigger (id : String) : Node := Sample.node id "trigger" []
    let W : Workflow := { id := "w", title := none, status := .published, nodes := [trigger "a", trigger "b"]
                          edges := [⟨some "a", some "b", none⟩, ⟨some "b", some "b", none⟩, ⟨some "b", some "b", none⟩,
                            ⟨some "b", some "a", none⟩] }
    (run (Invocation.launch W .null) (.initial {} "" none)).1.toOption.map Run.entered =
      some ["a", "b", "b", "b", "a"] := by
  decide +kernel

end WorkGraph
