import WorkGraph.Proofs.Equipped
import WorkGraph.Proofs.Extent
import WorkGraph.Proofs.Traversal

/-!
# What a run visits

Where nothing is refused and collaborators answer a call the same however often they were called, a run is a traversal of
the scene that its first world sets (`World.scene`): its rows tell of the visits, it has failed if one of them fell, and it
waits if one of them waits (`Visits`, `Dispatch.tours_within`). So it is with the links of a node that is routed
(`Routing.along_visits`), with an execution that starts (`Invocation.execute_launched`), and with one that goes on behind a
click (`Continuation.goOn_visits`).
-/

namespace WorkGraph

open Engine Running

/-- What nodes come to in an execution. -/
def World.scene (w : World) (W : Workflow) (execution : String) : Scene :=
  ⟨W, w.config.buttonTools, w.comes W execution⟩

/-- A run that goes on in a world in which its nodes find what they did in the first. -/
structure Poised (u : World) (W : Workflow) (execution : String) (logs : List NodeLog) (p : Progress) : Prop where
  fluent : Fluent p logs
  equipped : Equipped u p.world
  execution : p.run.execution = execution
  workflow : p.run.workflow = W
  graph : p.run.graph = W.graph

/-- A part of a run in which some nodes were visited, and the rows that are left of it. -/
structure Visited (S : Scene) (rows : List NodeLog) (stack : List Node) (vs : List Visit) (fell : Bool) (r s : Run) :
    Prop where
  walk : S.Traverses stack r.context vs [] s.context
  rows : rows.map NodeLog.account = vs.filterMap Visit.account?
  failed : (fell || s.failed) = (r.failed || vs.any S.fell)
  suspended : s.suspended = (r.suspended || vs.any S.waits)
  entered : r.entered ⊆ s.entered
  visited : ∀ v ∈ vs, v.node.id ∈ s.entered

/-- Whether a part of a run is a traversal of nodes, behind which the run can go on. -/
def Visits (u : World) (W : Workflow) (execution : String) (logs : List NodeLog) (stack : List Node) (fell : Bool)
    (p q : Progress) : Prop :=
  ∃ vs rows, Poised u W execution (logs ++ rows) q ∧ Visited (u.scene W execution) rows stack vs fell p.run q.run

section Parts

variable {u w w' : World} {W : Workflow} {execution : String} {logs rows more : List NodeLog} {stack others : List Node}
  {vs us : List Visit} {fell fell' : Bool} {p q t : Progress} {r s : Run} {S : Scene} {node : Node}

namespace Poised

theorem quiet (h : Poised u W execution logs ⟨w, r⟩) (hq : Quiet w w') : Poised u W execution logs ⟨w', r⟩ :=
  ⟨h.fluent.quiet hq, h.equipped.trans (.of_quiet hq), h.execution, h.workflow, h.graph⟩

/-- Another run of the same execution, with the same context. -/
theorem rerun (h : Poised u W execution logs ⟨w, r⟩) (he : s.execution = r.execution) (hw : s.workflow = r.workflow)
    (hg : s.graph = r.graph) (hc : s.context = r.context) : Poised u W execution logs ⟨w, s⟩ :=
  ⟨h.fluent.rerun he hc, h.equipped, he.trans h.execution, hw.trans h.workflow, hg.trans h.graph⟩

theorem noteIn (h : Poised u W execution logs ⟨w, r⟩) (routing : Routing) :
    Poised u W execution logs ⟨w, routing.noteIn r⟩ := by
  refine h.rerun ?_ ?_ ?_ ?_ <;> rw [routing.noteIn_eq]

end Poised

/-- A write of rows changes nothing that a node finds. -/
theorem Equipped.of_wrote_logs {v : Value} (h : Wrote (Store.NodeLogs.place execution) v w w') : Equipped w w' :=
  .of_wrote h fun message => Store.Mappings.accepts_of_write_ne h.storage (nodeLogs_ne_mappings execution message).symm

namespace Visited

theorem trans {t : Run} (h : Visited S rows stack us fell r s) (k : Visited S more others vs fell' s t) :
    Visited S (rows ++ more) (stack ++ others) (us ++ vs) (fell || fell') r t where
  walk := h.walk.append k.walk
  rows := by rw [List.map_append, List.filterMap_append, h.rows, k.rows]
  failed := by rw [Bool.or_assoc, k.failed, ← Bool.or_assoc, h.failed, List.any_append, Bool.or_assoc]
  suspended := by rw [k.suspended, h.suspended, List.any_append, Bool.or_assoc]
  entered := List.Subset.trans h.entered k.entered
  visited v hv := (List.mem_append.1 hv).elim (fun hv => k.entered (h.visited v hv)) (k.visited v)

/-- Nothing was visited. -/
theorem of_still (hc : s.context = r.context) (hf : s.failed = r.failed) (hs : s.suspended = r.suspended)
    (he : s.entered = r.entered) : Visited S [] [] [] false r s where
  walk := hc ▸ .refl _ _
  rows := rfl
  failed := by simp [hf]
  suspended := by simp [hs]
  entered := by rw [he]; exact List.Subset.refl _
  visited v hv := by cases hv

end Visited

namespace Visits

theorem trans (h : Visits u W execution logs stack fell p q)
    (k : ∀ logs, Poised u W execution logs q → Visits u W execution logs others fell' q t) :
    Visits u W execution logs (stack ++ others) (fell || fell') p t := by
  obtain ⟨us, rows, hp, hvisited⟩ := h
  obtain ⟨vs, more, hq, hmore⟩ := k _ hp
  exact ⟨us ++ vs, rows ++ more, by rwa [← List.append_assoc], hvisited.trans hmore⟩

theorem quiet (h : Poised u W execution logs ⟨w, r⟩) (hq : Quiet w w') :
    Visits u W execution logs [] false ⟨w, r⟩ ⟨w', r⟩ :=
  ⟨[], [], by rw [List.append_nil]; exact h.quiet hq, .of_still rfl rfl rfl rfl⟩

theorem refl (h : Poised u W execution logs p) : Visits u W execution logs [] false p p :=
  quiet h (.refl p.world)

theorem poised (h : Visits u W execution logs stack fell p q) : ∃ logs, Poised u W execution logs q := by
  obtain ⟨_, _, hq, -⟩ := h
  exact ⟨_, hq⟩

/-- Not more ids are left than before whose nodes are not completed. -/
theorem remaining_le (h : Visits u W execution logs stack fell p q) (hp : p.run.workflow = W) :
    q.run.remaining ≤ p.run.remaining := by
  obtain ⟨_, _, hq, hvisited⟩ := h
  rw [Run.remaining, Run.remaining, hq.workflow, hp]
  refine List.countP_mono_left fun id _ hid => ?_
  rw [Bool.not_eq_true'] at hid ⊢
  exact Bool.eq_false_iff.2 fun hc => by
    rw [hvisited.walk.completed hc] at hid
    cases hid

end Visits

end Parts

/-! ## One node -/

section Node

variable {u w : World} {W : Workflow} {execution : String} {logs : List NodeLog} {r : Run} {node : Node}

/-- A node that has not run before has its turn, and leaves its row if it has any. -/
theorem Poised.perform (hconstant : u.Constant) (hs : u.Steady) (h : Poised u W execution logs ⟨w, r⟩)
    (hnew : r.context.isCompleted node.id = false) :
    let v := (u.scene W execution).visit node r.context
    ∃ result w' rows, go (Dispatch.perform node) ⟨w, r⟩ = (result, ⟨w', { r with context := r.context.turned node v.result }⟩) ∧
      result.toOption = v.result.toOption ∧ rows.map NodeLog.account = v.account?.toList ∧
      Poised u W execution (logs ++ rows) ⟨w', { r with context := r.context.turned node v.result }⟩ := by
  intro v
  by_cases ht : node.Titled
  · obtain ⟨row, result, w', hgo, hturn⟩ := h.fluent.perform ht hnew
    obtain ⟨entry, w₁, w₂, hopened, hran, hclosed⟩ := hturn.ran
    have hready : Equipped u w₁ := h.equipped.trans (.of_wrote_logs hopened)
    have hresult : result = v.result := by
      have hcomes := hconstant.comes_eq hs hready node (r.marked node)
      rw [hran, show (r.marked node).workflow = W from h.workflow,
        show (r.marked node).execution = execution from h.execution] at hcomes
      exact hcomes.trans (if_pos ht).symm
    have hafter : Equipped w₁ w₂ := by
      have hequips := Dispatch.equips_runNode node (r.marked node) w₁
      rwa [hran] at hequips
    have haccount := hturn.account ht
    rw [hresult] at hgo hturn haccount
    refine ⟨v.result, w', [row], hgo, rfl, ?_, h.fluent.turned hturn, ?_, h.execution, h.workflow, h.graph⟩
    · rw [show v.account? = _ from haccount]
      rfl
    · exact hready.trans (hafter.trans (.of_wrote_logs hclosed))
  · obtain ⟨fault, w', hgo, hq, hfluent⟩ := h.fluent.untitled ht
    have hresult : v.result = .error (.engine "") := if_neg ht
    have hcontext : r.context.turned node v.result = r.context.markCompleted node.id := by
      rw [hresult]
      rfl
    refine ⟨.error fault, w', [], ?_, by rw [hresult]; rfl, ?_, ?_⟩
    · rw [hcontext]
      exact hgo
    · rw [Visit.account?, if_neg (show ¬v.node.Titled from ht)]
      rfl
    · rw [hcontext, List.append_nil]
      exact ⟨hfluent, h.equipped.trans (.of_quiet hq), h.execution, h.workflow, h.graph⟩

end Node

/-! ## Links -/

/-- Whether dispatches, where fewer than some ids are left, are traversals. -/
def Tours (u : World) (W : Workflow) (execution : String) (depth : Nat) (dispatch : Node → Running Unit) : Prop :=
  ∀ node p logs, node ∈ W.nodes → p.run.remaining < depth → Poised u W execution logs p →
    Visits u W execution logs [node] (!(go (dispatch node) p).1.isOk) p (go (dispatch node) p).2

namespace Routing

variable {u : World} {W : Workflow} {execution : String} {depth : Nat} {dispatch : Node → Running Unit}
  (h : Tours u W execution depth dispatch) {p : Progress} {logs : List NodeLog}

include h

theorem followLink_visits {link : Link} {error : Option String} {q : Progress}
    (hgo : go (followLink dispatch link) p = (.ok error, q)) (hp : Poised u W execution logs p)
    (hleft : p.run.remaining < depth) :
    Visits u W execution logs ((u.scene W execution).targets [link]) error.isSome p q := by
  obtain ⟨w, r⟩ := p
  have htargets : (u.scene W execution).targets [link] = (r.workflow.node? link.target).toList := by
    rw [show r.workflow = W from hp.workflow]
    show [link].filterMap (W.node? ·.target) = _
    cases hn : W.node? link.target <;> simp [hn]
  rw [htargets]
  unfold followLink at hgo
  rw [go_bind_ok (go_run w r)] at hgo
  cases hn : r.workflow.node? link.target with
  | none =>
    rw [hn] at hgo
    cases hgo
    exact .refl hp
  | some target =>
    have hmem : target ∈ W.nodes := hp.workflow ▸ List.mem_of_find?_eq_some hn
    have hvisits := h target ⟨w, r⟩ logs hmem hleft hp
    rw [hn] at hgo
    dsimp only at hgo
    rw [go_bind, go_faultOf] at hgo
    rcases hdispatch : go (dispatch target) ⟨w, r⟩ with ⟨_ | _, q'⟩ <;> rw [hdispatch] at hvisits hgo <;>
      cases hgo <;> exact hvisits

/-- Links are followed one after the other. -/
theorem follow_visits {links : List Link} {routing : Routing} {q : Progress}
    (hgo : go (follow dispatch links) p = (.ok routing, q)) (hp : Poised u W execution logs p)
    (hleft : p.run.remaining < depth) : routing.suspend = false ∧
      Visits u W execution logs ((u.scene W execution).targets links) routing.error.isSome p q := by
  induction links generalizing p logs routing with
  | nil =>
    obtain ⟨hrouting, rfl⟩ := Prod.mk.inj hgo
    obtain rfl := Except.ok.inj hrouting
    exact ⟨rfl, .refl hp⟩
  | cons link rest ih =>
    obtain ⟨error, t, hlink⟩ := followLink_ok dispatch link p
    obtain ⟨others, t', hrest⟩ := follow_ok dispatch rest t
    unfold follow at hgo
    rw [go_bind_ok hlink, go_bind_ok hrest] at hgo
    obtain ⟨hrouting, rfl⟩ := Prod.mk.inj hgo
    obtain rfl := Except.ok.inj hrouting
    have hfirst := followLink_visits h hlink hp hleft
    have htargets : (u.scene W execution).targets (link :: rest) =
        (u.scene W execution).targets [link] ++ (u.scene W execution).targets rest := by
      rw [Scene.targets, ← List.singleton_append, List.filterMap_append]
      rfl
    have herror : (error.or others.error).isSome = (error.isSome || others.error.isSome) := by cases error <;> rfl
    refine ⟨rfl, ?_⟩
    rw [htargets, herror]
    exact hfirst.trans fun _ hq => (ih hrest hq (Nat.lt_of_le_of_lt (hfirst.remaining_le hp.workflow) hleft)).2

/-- A node is routed to those that it leads to. -/
theorem along_visits (router : Option Router) {node : Node} {output : Value} (links : List Link)
    (ho : p.run.context.outputs.get? node.id = some output) (hp : Poised u W execution logs p)
    (hleft : p.run.remaining < depth) :
    ∃ routing q, go (along router dispatch node output links) p = (.ok routing, q) ∧
      routing.suspend = suspends router output links ∧
      Visits u W execution logs ((u.scene W execution).targets (selected router output links)) routing.error.isSome
        ⟨p.world, { p.run with context := steered router node output links p.run.context }⟩ q := by
  have hplain (hsel : selected router output links = links) (hsteered : clicked? router links output = none)
      (halong : along router dispatch node output links = follow dispatch links)
      (hsuspends : suspends router output links = false) :
      ∃ routing q, go (along router dispatch node output links) p = (.ok routing, q) ∧
        routing.suspend = suspends router output links ∧
        Visits u W execution logs ((u.scene W execution).targets (selected router output links)) routing.error.isSome
          ⟨p.world, { p.run with context := steered router node output links p.run.context }⟩ q := by
    obtain ⟨routing, q, hgo⟩ := follow_ok dispatch links p
    rw [hsel, steered, hsteered, halong, hsuspends]
    exact ⟨routing, q, hgo, follow_visits h hgo hp hleft⟩
  cases router with
  | none => exact hplain rfl rfl rfl rfl
  | some router =>
    cases output with
    | null | bool | num | str | list => cases router <;> exact hplain rfl rfl rfl rfl
    | map output =>
      cases router with
      | condition =>
        show ∃ routing q, go (condition dispatch node output links) p = (.ok routing, q) ∧ routing.suspend = false ∧
          Visits u W execution logs ((u.scene W execution).targets
            (ofOutlet links (if (Value.field output "result").truthy then "true" else "false"))) routing.error.isSome p q
        unfold condition
        dsimp only
        generalize (if (Value.field output "result").truthy then "true" else "false") = outlet
        obtain ⟨routing, q, hgo⟩ := follow_ok dispatch (ofOutlet links outlet) p
        obtain ⟨hsuspend, hvisits⟩ := follow_visits h hgo hp hleft
        rw [go_bind_ok hgo]
        let warning : Engine Unit := Engine.log .warning "handlers.condition" "condition_branch_unconnected"
          [("node_id", .str node.id), ("branch", .str outlet), ("available_ports", outletList links)]
        have hwarning : Hushed warning := hushed_log (by decide)
        split
        · refine ⟨routing, ⟨(Engine.run warning q.world).2, q.run⟩, rfl, hsuspend, ?_⟩
          have hall := hvisits.trans fun _ hq => .quiet hq (hwarning q.world)
          rwa [List.append_nil, Bool.or_false] at hall
        · exact ⟨routing, q, rfl, hsuspend, hvisits⟩
      | pendingSend =>
        show ∃ routing q, go (pendingSend node output links) p = (.ok routing, q) ∧ routing.suspend = !links.isEmpty ∧
          Visits u W execution logs [] routing.error.isSome p q
        unfold pendingSend
        cases links.isEmpty with
        | true => exact ⟨⟨true, none, false⟩, p, rfl, rfl, .refl hp⟩
        | false =>
          let report : Engine Unit := Engine.log .info "handlers.button_message" "execution_suspended"
            [("node_id", .str node.id), ("message_id", Value.field output "message_id"), ("ports", outletList links)]
          have hreport : Hushed report := hushed_log (by decide)
          exact ⟨⟨false, none, true⟩, ⟨(Engine.run report p.world).2, p.run⟩, rfl, rfl, .quiet hp (hreport p.world)⟩
      | buttonClick =>
        rw [steered]
        show ∃ routing q, go (buttonClick dispatch node output links) p = (.ok routing, q) ∧ routing.suspend = false ∧ _
        cases hl : (ofOutlet links (Value.field output "button_id").display).isEmpty with
        | true =>
          refine ⟨nowhere, p, ?_, rfl, ?_⟩
          · unfold buttonClick
            dsimp only
            rw [hl]
            rfl
          · rw [clicked?, hl, selected, List.isEmpty_iff.1 hl]
            exact .refl hp
        | false =>
          obtain ⟨w, r⟩ := p
          obtain ⟨w', hq, hrun⟩ := go_buttonClick node hl w r
          have hclicked : Poised u W execution logs ⟨w, { r with context := clickedContext node output r.context }⟩ :=
            ⟨hp.fluent.spliced _ ho, hp.equipped, hp.execution, hp.workflow, hp.graph⟩
          obtain ⟨routing, q, hgo⟩ := follow_ok dispatch (ofOutlet links (Value.field output "button_id").display)
            ⟨w', { r with context := clickedContext node output r.context }⟩
          refine ⟨routing, q, (hrun dispatch).trans hgo, (follow_visits h hgo (hclicked.quiet hq) hleft).1, ?_⟩
          rw [clicked?, hl]
          exact (Visits.quiet hclicked hq).trans fun _ hp => (follow_visits h hgo hp hleft).2

end Routing

/-- A failure is noted with the routing. -/
theorem Routing.failed_noteIn (routing : Routing) (r : Run) :
    (routing.noteIn r).failed = (routing.error.isSome || r.failed) := by
  unfold noteIn
  cases routing.error <;> cases routing.suspend <;> simp [Run.recordFailure]

/-! ## Dispatches -/

/-- A visit, and what it led to. -/
theorem Visited.visit {S : Scene} {rows more : List NodeLog} {node : Node} {vs : List Visit} {fell fell' : Bool}
    {r s t : Run} (hnew : r.context.isCompleted node.id = false) (hin : node.id ∈ r.entered)
    (hrows : rows.map NodeLog.account = (S.visit node r.context).account?.toList)
    (k : Visited S more (S.behind (S.visit node r.context)) vs fell
      { r with context := S.after (S.visit node r.context) } s)
    (hf : (fell' || t.failed) = (S.fell (S.visit node r.context) || (fell || s.failed)))
    (hs : t.suspended = (s.suspended || S.waits (S.visit node r.context)))
    (hc : t.context = s.context) (he : t.entered = s.entered) :
    Visited S (rows ++ more) [node] (S.visit node r.context :: vs) fell' r t where
  walk := .visit hnew (by rw [List.append_nil]; exact hc ▸ k.walk)
  rows := by
    rw [List.map_append, hrows, k.rows, List.filterMap_cons]
    cases (S.visit node r.context).account? <;> rfl
  failed := by rw [hf, k.failed, List.any_cons, Bool.or_left_comm]
  suspended := by rw [hs, k.suspended, List.any_cons, Bool.or_assoc, Bool.or_comm (vs.any _)]
  entered := he ▸ k.entered
  visited v hv := by
    rw [he]
    rcases List.mem_cons.1 hv with rfl | hv
    · exact k.entered hin
    · exact k.visited v hv

/-- With a node of the workflow that is completed, fewer ids are left. -/
theorem Run.remaining_lt {node : Node} {r s : Run} (hw : s.workflow = r.workflow) (hmem : node ∈ r.workflow.nodes)
    (hnew : r.context.isCompleted node.id = false)
    (hc : ∀ id, s.context.isCompleted id = (id == node.id || r.context.isCompleted id)) : s.remaining < r.remaining := by
  rw [remaining, remaining, hw]
  refine countP_lt (fun id _ hid => ?_) (Workflow.mem_ids hmem) ?_ ?_
  · rw [hc, Bool.not_or, Bool.and_eq_true] at hid
    exact hid.2
  · rw [hc]
    simp
  · rw [hnew]
    rfl

namespace Dispatch

variable {u w : World} {W : Workflow} {execution : String} {logs : List NodeLog} {r : Run} {node : Node}

/-- A node that has not run before is visited, and so are those that it leads to. -/
theorem perform_visits {depth : Nat} {dispatch : Node → Running Unit} (hconstant : u.Constant) (hs : u.Steady)
    (h : Tours u W execution depth dispatch) (hp : Poised u W execution logs ⟨w, r⟩) (hmem : node ∈ W.nodes)
    (hnew : r.context.isCompleted node.id = false) (hleft : r.remaining ≤ depth) (hin : node.id ∈ r.entered) :
    let out := go (perform node >>= route dispatch node) ⟨w, r⟩
    Visits u W execution logs [node] (!out.1.isOk) ⟨w, r⟩ out.2 := by
  intro out
  obtain ⟨result, w', rows, hperform, hresult, hrows, hturned⟩ := hp.perform hconstant hs hnew
  generalize hv : (u.scene W execution).visit node r.context = v at hperform hresult hrows hturned
  have hnode : v.node = node ∧ v.context = r.context := by rw [← hv]; exact ⟨rfl, rfl⟩
  -- a fault ends the visit, when the node runs or when it is routed
  have hend (hfell : (u.scene W execution).fell v = true) : Visits u W execution logs [node] true ⟨w, r⟩
      ⟨w', { r with context := r.context.turned node v.result }⟩ := by
    obtain ⟨hafter, hbehind, hwaits⟩ := Scene.of_fell hfell
    rw [hnode.1, hnode.2] at hafter
    have hstill : Visited (u.scene W execution) [] ((u.scene W execution).behind v) [] false
        { r with context := (u.scene W execution).after v } { r with context := r.context.turned node v.result } := by
      rw [hbehind]
      exact .of_still hafter.symm rfl rfl rfl
    refine ⟨[v], rows ++ [], by rwa [List.append_nil], ?_⟩
    subst hv
    refine .visit hnew hin hrows hstill ?_ ?_ rfl rfl
    · rw [hfell]
      rfl
    · rw [hwaits, Bool.or_false]
  cases hvalue : v.result with
  | error fault =>
    rw [hvalue] at hresult
    cases result with
    | ok output => cases hresult
    | error fault' =>
      have hout : out = (.error fault', _) := go_bind_error hperform
      rw [hout]
      exact hend (by rw [Scene.fell, hvalue])
  | ok output =>
    rw [hvalue] at hresult
    cases result with
    | error fault => cases hresult
    | ok output' =>
      obtain rfl : output' = output := Option.some.inj hresult
      have ho := output_of_perform hperform
      have hout : out = go (route dispatch node output') _ := go_bind_ok hperform
      rw [hout]
      unfold route
      rw [go_bind_ok (go_run w' _), go_lift_bind (Engine.run_config w')]
      have htools : w'.config.buttonTools = (u.scene W execution).tools := by rw [hturned.equipped.config]; rfl
      have hlinks : r.graph.links node.id = (u.scene W execution).links node := by
        rw [show r.graph = W.graph from hp.graph]
        rfl
      dsimp only
      rw [htools, hlinks]
      cases hchoose : Router.choose (u.scene W execution).tools node output' with
      | error fault =>
        rw [go_lift_bind_error (Engine.run_ofExcept _ w')]
        refine hend ?_
        rw [Scene.fell, hvalue, hnode.1]
        dsimp only
        rw [hchoose]
        rfl
      | ok router =>
        rw [go_lift_bind (Engine.run_ofExcept _ w')]
        have hless : ({ r with context := r.context.turned node v.result } : Run).remaining < depth :=
          Nat.lt_of_lt_of_le (Run.remaining_lt (hp.workflow ▸ rfl) (hp.workflow.symm ▸ hmem) hnew
            (Context.isCompleted_turned _ _ _)) hleft
        obtain ⟨routing, q, hgo, hsuspend, vs, more, hq, k⟩ :=
          Routing.along_visits h router ((u.scene W execution).links node) ho hturned hless
        obtain ⟨hafter, hbehind, hfell, hwaits⟩ := Scene.of_routed hvalue (hnode.1.symm ▸ hchoose)
        rw [hnode.1, hnode.2] at hafter
        rw [hnode.1] at hbehind hwaits
        dsimp only at k
        rw [← hbehind, ← hafter] at k
        rw [go_bind_ok hgo, go_modifyRun]
        refine ⟨v :: vs, rows ++ more, ?_, ?_⟩
        · rw [← List.append_assoc]
          exact hq.noteIn routing
        · subst hv
          refine .visit hnew hin hrows k ?_ ?_ ?_ ?_
          · rw [hfell, routing.failed_noteIn]
            rfl
          · rw [hwaits, routing.suspended_noteIn, hsuspend]
          · rw [routing.noteIn_eq]
          · rw [routing.noteIn_eq]

/-- Whatever is dispatched, it is a traversal. -/
theorem tours_within (hconstant : u.Constant) (hs : u.Steady) : ∀ depth, Tours u W execution depth (within depth)
  | 0, _, _, _, _, hleft, _ => absurd hleft (Nat.not_lt_zero _)
  | depth + 1, node, ⟨w, r⟩, logs, hmem, hleft, hp => by
    have hentered : Poised u W execution logs ⟨w, { r with entered := r.entered ++ [node.id] }⟩ := hp.rerun rfl rfl rfl rfl
    have hstart {fell q} (k : Visits u W execution logs [node] fell ⟨w, { r with entered := r.entered ++ [node.id] }⟩ q) :
        Visits u W execution logs [node] fell ⟨w, r⟩ q := by
      obtain ⟨vs, rows, hq, k⟩ := k
      exact ⟨vs, rows, hq, { k with entered := List.Subset.trans (List.subset_append_left _ _) k.entered }⟩
    cases hdone : r.context.isCompleted node.id with
    | true =>
      unfold within
      rw [go_bind_ok (go_modifyRun _ w r), go_bind_ok (go_run w _)]
      dsimp only
      rw [hdone, if_pos rfl]
      refine hstart ⟨[], [], ?_, .skip hdone (.refl _ _), rfl, ?_, ?_, List.Subset.refl _, fun v hv => by cases hv⟩
      · rw [List.append_nil]
        exact hentered.quiet (hushed_log (by decide) w)
      · exact (Bool.or_false _).symm
      · exact (Bool.or_false _).symm
    | false =>
      rw [go_within hdone]
      exact hstart (perform_visits hconstant hs (tours_within hconstant hs depth) hentered hmem hdone
        (Nat.le_of_lt_succ hleft) (List.mem_append_right _ (List.mem_singleton_self _)))

end Dispatch

theorem tours_dispatch {u : World} {W : Workflow} {execution : String} (hconstant : u.Constant) (hs : u.Steady) (depth : Nat) :
    Tours u W execution depth dispatch := by
  intro node ⟨w, r⟩ logs hmem _ hp
  unfold dispatch
  rw [go_bind_ok (go_run w r)]
  exact Dispatch.tours_within hconstant hs r.depth node ⟨w, r⟩ logs hmem r.remaining_lt_depth hp

/-! ## Executions that start -/

/-- Of what was started, the failures are told by the error. -/
theorem Invocation.failed_resumed {W V : Workflow} {p : Progress} {r : Run} {w : World}
    (h : Engine.run (settle W p.run fromTrigger) p.world = (.ok r, w)) (hf : p.run.failed = false)
    (he : p.run.firstError = "") (hs : p.run.suspended = false) (hr : r.suspended = true) (execution : String) (c : Context) :
    (Run.resumed execution V c r.error).failed = r.failed := by
  obtain ⟨r', w', hrun, hwent⟩ := settle_went W p
  obtain ⟨hr', -⟩ := Prod.mk.inj (h.symm.trans hrun)
  obtain rfl := Except.ok.inj hr'
  have hfailed := hwent.failed
  have hsuspended := hwent.suspended
  dsimp only at hfailed hsuspended
  rw [hf, Bool.false_or] at hfailed
  rw [hr, hs, Bool.false_or] at hsuspended
  have hmessages := (tellable p).resolve_right fun ⟨hno, _⟩ => by rw [hno] at hsuspended; cases hsuspended
  rw [hfailed, hwent.error (tellable p) hf he hs, Run.resumed]
  cases hall : failures p with
  | nil => rfl
  | cons message rest =>
    have hmessage : (some message).filter (· != "") = some message :=
      Option.filter_some_pos (bne_iff_ne.2 (hmessages message (hall ▸ List.mem_cons_self)))
    rw [List.head?_cons, hmessage]
    rfl

/-- A run from its trigger node is a traversal. -/
theorem Invocation.settle_visits {u : World} {W : Workflow} {execution : String} {logs : List NodeLog} {p : Progress}
    {trigger : Node} (hconstant : u.Constant) (hs : u.Steady) (hp : Poised u W execution logs p)
    (ht : W.triggerNode? = some trigger) : ∃ r w, Engine.run (settle W p.run fromTrigger) p.world = (.ok r, w) ∧
      Visits u W execution logs [trigger] false p ⟨w, r⟩ := by
  have hvisits := tours_dispatch hconstant hs (p.run.remaining + 1) trigger p logs (List.mem_of_find?_eq_some ht)
    (Nat.lt_succ_self _) hp
  have hgo := go_fromTrigger (hp.workflow.symm ▸ ht : p.run.workflow.triggerNode? = some trigger)
  rw [← hgo] at hvisits
  obtain ⟨vs, rows, hq, hvisited⟩ := hvisits
  rcases hout : go fromTrigger p with ⟨fault | ⟨⟩, q⟩ <;> rw [hout] at hq hvisited
  · -- what ends the trigger node is a failure of the run
    obtain ⟨w, hrun, -⟩ := run_settle_error W hout
    obtain ⟨s, w', hrun', hquiet, -⟩ := run_settle W p.run fromTrigger p.world
    obtain ⟨-, rfl⟩ := Prod.mk.inj (hrun.symm.trans hrun')
    rw [show go fromTrigger ⟨p.world, p.run⟩ = _ from hout] at hquiet
    exact ⟨_, w, hrun, vs, rows, (hq.quiet hquiet).rerun rfl rfl rfl rfl, { hvisited with failed := hvisited.failed }⟩
  · exact ⟨q.run, q.world, run_settle_ok W hout, vs, rows, hq, hvisited⟩

/-- A write of a record changes nothing that a node finds. -/
theorem Equipped.of_wrote_execution {execution : String} {v : Value} {w w' : World}
    (h : Wrote (Store.Executions.place execution) v w w') : Equipped w w' :=
  .of_wrote h fun message => Store.Mappings.accepts_of_write_ne h.storage (executions_ne_mappings execution message).symm

/-- An execution whose run was launched has a record that could be written. -/
theorem Invocation.fits_of_launch {w u : World} {W : Workflow} {payload : Value} {r : Run}
    (h : Engine.run (launch W payload) w = (.ok r, u)) : (Store.Executions.place w.nextExecution).Fits := by
  rcases Journal.startExecution_cases W.id (Context.start payload).triggerData w with
    ⟨session, w₁, -, hw⟩ | ⟨-, fault, w₁, hx, -⟩
  · exact hw.fits
  · unfold launch at h
    rw [Engine.run_bind_error hx] at h
    cases h

/-- An execution that was started, before its trigger node is dispatched. -/
structure Begun (W : Workflow) (payload : Value) (x : Execution) (logs : List NodeLog) (w u : World) : Prop where
  id : x.id = w.nextExecution
  triggerData : x.triggerData = (Context.start payload).triggerData
  poised : Poised w W x.id logs ⟨u, .start x.id W (.start payload)⟩
  unsent : Unsent w u
  launched : ∃ r v, Engine.run (Invocation.settle W (.start x.id W (.start payload)) Invocation.fromTrigger) u = (.ok r, v) ∧
    Engine.run (Invocation.launch W payload) w = (.ok r, v) ∧ HasRecord v.storage x.id x

/-- What an execution has come to that was started: its nodes were visited from its trigger node on, and its deeds are the
rows of the visits. -/
structure Launched (W : Workflow) (payload : Value) (trigger : Node) (x : Execution) (logs : List NodeLog)
    (ds : List Deed) (vs : List Visit) (r : Run) (w w' : World) : Prop extends Invoked W x logs ds w w' where
  id : x.id = w.nextExecution
  visited : Visited (w.scene W x.id) (ds.map Deed.row) [trigger] vs false (.start x.id W (.start payload)) r
  poised : ∃ v, Poised w W x.id (logs ++ ds.map Deed.row) ⟨v, r⟩
  logged : HasLogs w'.storage x.id (logs ++ ds.map Deed.row)
  equipped : Equipped w w'
  heard : w'.Heard
  status : x.status = r.status
  triggerData : x.triggerData = (Context.start payload).triggerData
  bounded : Number.inRange x.durationMs = true
  failed : r.suspended = true → ∀ c, (Run.resumed x.id W c x.errorMessage).failed = r.failed

namespace Invocation

variable {w : World} {logs : List NodeLog} (ho : Orderly w) (hs : w.Steady) (hh : w.Heard)
  (hf : (Store.Executions.place w.nextExecution).Fits) (hl : HasLogs w.storage w.nextExecution logs)

include ho hs hh hf hl

/-- Where nothing is refused, an execution starts. -/
theorem launch_begun (W : Workflow) (payload : Value) : ∃ x u, Begun W payload x logs w u := by
  rcases Journal.startExecution_cases W.id (Context.start payload).triggerData w with ⟨session, w₁, hx, hw⟩ | ⟨hno, -⟩
  · have htracks := (startExecution_tracks W payload (Context.start payload).triggerData ho).2 _ (by rw [hx])
    rw [hx] at htracks
    generalize hbegun : Execution.begun w.nextExecution W.id (Context.start payload).triggerData session w.clock.stamp = x
      at hx hw htracks
    have hid : x.id = w.nextExecution := by rw [← hbegun]; rfl
    obtain ⟨u, hq, hlaunch⟩ := run_launch hx
    obtain ⟨r, v, hlaunched, -, -, hconfined⟩ := (stable_confined x.id w₁).launched hx ⟨htracks, rfl, .refl w₁⟩
    have hup : Equipped w { w with issued := w.issued + 1 } := ⟨rfl, fun h => h, fun _ _ => rfl, fun _ => rfl⟩
    have hsame : Unsent w { w with issued := w.issued + 1 } := ⟨rfl, fun _ => rfl, fun _ => rfl⟩
    have hwritten : Unsent w w₁ := hsame.trans (.of_wrote hw (fun _ => (executions_ne_mappings _ _).symm)
      fun message => (Apart.claims_ne message (by decide) _ _).symm)
    refine ⟨x, u, hid, by rw [← hbegun]; rfl, ?_, hwritten.trans (.of_quiet hq), r, v, hlaunch ▸ hlaunched, hlaunched,
      hconfined.hasRecord (hid ▸ hw.read_self)⟩
    exact ⟨(fluent_begun ho hs hh hid hw hl).quiet hq, (hup.trans (.of_wrote_execution hw)).trans (.of_quiet hq), rfl, rfl,
      rfl⟩
  · exact absurd ⟨hs, hh, hf⟩ hno

/-- It visits nodes from its trigger node on. -/
theorem execute_launched (hconstant : w.Constant) {W : Workflow} {trigger : Node} (ht : W.triggerNode? = some trigger)
    (payload : Value) : ∃ r u x ds vs, Engine.run (launch W payload) w = (.ok r, u) ∧
      Launched W payload trigger x logs ds vs r w (Engine.run (execute W payload) w).2 := by
  obtain ⟨x, u, hid, htrigger, hpoised, hunsent, r, v, hsettle, hlaunch, hrecord⟩ := launch_begun ho hs hh hf hl W payload
  obtain ⟨r₁, v₁, hsettle₁, vs, rows, hend, hvisited⟩ := settle_visits hconstant hs hpoised ht
  obtain ⟨r₂, v₂, ds, hsettle₂, hpassed⟩ := settle_passed W hpoised.fluent
  obtain ⟨hr₁, rfl⟩ := Prod.mk.inj (hsettle₁.symm.trans hsettle)
  obtain rfl := Except.ok.inj hr₁
  obtain ⟨hr₂, rfl⟩ := Prod.mk.inj (hsettle₂.symm.trans hsettle)
  obtain rfl := Except.ok.inj hr₂
  -- both tell of the same rows
  obtain rfl : ds.map Deed.row = rows := List.append_cancel_left (hpassed.fluent.rows.unique hend.fluent.rows)
  have hexecution : r₂.execution = x.id := hend.execution
  have hrecord : HasRecord v₂.storage r₂.execution x := hexecution.symm ▸ hrecord
  have hfits : (Store.Executions.place r₂.execution).Fits := hexecution.symm ▸ hid ▸ hf
  have hfluent : Fluent ⟨v₂, r₂⟩ (logs ++ ds.map Deed.row ++ []) := by rw [List.append_nil]; exact hpassed.fluent
  have hrows : HasLogs v₂.storage x.id (logs ++ ds.map Deed.row) := hexecution ▸ hpassed.fluent.rows
  generalize hspan : (v₂.clock.since w.clock.reading).millis = duration
  obtain ⟨w', hfinal, hwrote⟩ :=
    finalize_done hrecord hpassed.fluent.audible.steady hpassed.fluent.audible.heard hfits duration
  obtain ⟨w'', hfinal', hinvoked⟩ := hpassed.finalized hunsent rfl rfl rfl (.of_quiet (.refl v₂)) hfluent rfl
    hexecution hrecord hexecution.symm hfits duration
  obtain ⟨-, rfl⟩ := Prod.mk.inj (hfinal.symm.trans hfinal')
  rw [run_execute hs hlaunch, hspan, hfinal]
  refine ⟨r₂, v₂, x.ended r₂.status r₂.error duration v₂.clock.stamp, ds, vs, hlaunch, hinvoked, hid, hvisited,
    ⟨v₂, hend⟩, ?_, hend.equipped.trans (.of_wrote_execution hwrote),
    hpassed.fluent.audible.heard.of_service hwrote.service, rfl, htrigger, ?_,
    fun hsuspended c => failed_resumed (p := ⟨u, .start x.id W (.start payload)⟩) hsettle rfl rfl rfl hsuspended _ c⟩
  · rw [HasLogs, hwrote.read_ne (executions_ne_nodeLogs _ _).symm]
    exact hrows
  · rw [← hspan]
    exact Span.inRange_bounded _

end Invocation

/-! ## Executions that go on -/

/-- What is routed behind a button is a traversal. -/
theorem Visits.noteIn {u : World} {W : Workflow} {execution : String} {logs : List NodeLog} {stack : List Node}
    {p : Progress} {w : World} {s : Run} {routing : Routing}
    (h : Visits u W execution logs stack routing.error.isSome p ⟨w, s⟩) (hs : routing.suspend = false) :
    Visits u W execution logs stack false p ⟨w, routing.noteIn s⟩ := by
  obtain ⟨vs, rows, hq, hvisited⟩ := h
  refine ⟨vs, rows, hq.noteIn routing, ?_, hvisited.rows, ?_, ?_, ?_, ?_⟩
  · rw [show (routing.noteIn s).context = s.context by rw [routing.noteIn_eq]]
    exact hvisited.walk
  · rw [Bool.false_or, routing.failed_noteIn]
    exact hvisited.failed
  · rw [routing.suspended_noteIn, hs, Bool.or_false]
    exact hvisited.suspended
  all_goals rw [show (routing.noteIn s).entered = s.entered by rw [routing.noteIn_eq]]
  · exact hvisited.entered
  · exact hvisited.visited

/-- An execution that goes on behind a button visits nodes from those on that the button leads to. -/
theorem Continuation.goOn_visits {u w : World} {W : Workflow} {x : Execution} {node : Node} {context : Context}
    {logs : List NodeLog} (hconstant : u.Constant) (hs : u.Steady)
    (hp : Poised u W x.id logs ⟨w, .resumed x.id W context x.errorMessage⟩) (hf : (Store.Executions.place x.id).Fits)
    (hb : Number.inRange x.durationMs = true)
    (hclaims : Router.claims w.config.buttonTools node (context.output node.id) .buttonClick = .ok true)
    (hlinks : Routing.selected (some .buttonClick) (context.output node.id) (W.graph.links node.id) ≠ [])
    (message : String) (button : Value) (start : Int) :
    ∃ y answer w' rows vs s, Engine.run (goOn message W x node button context start) w = (.ok answer, w') ∧
      HasRecord w'.storage x.id y ∧ HasLogs w'.storage x.id (logs ++ rows) ∧ y.status = s.status ∧
      Visited (u.scene W x.id) rows ((u.scene W x.id).targets
          (Routing.selected (some .buttonClick) (context.output node.id) (W.graph.links node.id))) vs false
        { Run.resumed x.id W context x.errorMessage with
          context := Routing.steered (some .buttonClick) node (context.output node.id) (W.graph.links node.id) context } s := by
  obtain ⟨entries, hmap, hget⟩ := Router.output_of_claims hclaims
  have hcontext : (Run.resumed x.id W context x.errorMessage).context = context := Run.context_resumed _ _ _ _
  have hgraph : (Run.resumed x.id W context x.errorMessage).graph = W.graph := hp.graph
  have hsteady := hp.fluent.audible.steady
  have ho : (Run.resumed x.id W context x.errorMessage).context.outputs.get? node.id = some (context.output node.id) := by
    rw [hcontext, hget, hmap]
  obtain ⟨routing, q, hgo, hsuspend, hvisits⟩ := Routing.along_visits (tours_dispatch hconstant hs _) (some .buttonClick)
    (p := ⟨w, .resumed x.id W context x.errorMessage⟩) (W.graph.links node.id) ho hp (Nat.lt_succ_self _)
  obtain ⟨routing', q', hgo', -, -, hrouted, -⟩ := Routing.along_went Dispatch.tree_tells
    (p := ⟨w, .resumed x.id W context x.errorMessage⟩) (W.graph.links node.id) (some .buttonClick) ho
  obtain ⟨hrouting, rfl⟩ := Prod.mk.inj (hgo.symm.trans hgo')
  obtain rfl := Except.ok.inj hrouting
  replace hrouted : routing.routed = true := (hrouted rfl).trans (by simpa using hlinks)
  rw [hmap] at hsuspend
  have hresume : Engine.run (Invocation.resume W x.id node context x.errorMessage) w =
      (.ok (routing, routing.noteIn q.run), q.world) := by
    have hclaimed : Engine.run (Invocation.claimed node context) w = (.ok true, w) := by
      unfold Invocation.claimed
      rw [run_bind_ok (run_entering_steady hsteady _), run_bind_ok (run_config w), run_ofExcept, hclaims]
    rw [Invocation.resume_eq, run_bind_ok hclaimed]
    show Engine.run (onRun _ _ >>= _) w = _
    rw [run_bind_ok (run_onRun _ _ w), hgraph, hgo]
    rfl
  rw [hcontext] at hvisits
  obtain ⟨vs, rows, hend, hvisited⟩ := hvisits.noteIn hsuspend
  have hexecution : (routing.noteIn q.run).execution = x.id := hend.execution
  obtain ⟨x', hx'⟩ := hend.fluent.audible.record
  obtain ⟨duration, hduration, -⟩ := run_totalDuration hb start q.world
  obtain ⟨w', hfinal, hwrote⟩ := Invocation.finalize_done hx' hend.fluent.audible.steady hend.fluent.audible.heard
    (hexecution.symm ▸ hf) duration
  dsimp only at hfinal hwrote
  rw [hexecution] at hwrote
  refine ⟨_, (routing.noteIn q.run).answer, w', rows, vs, routing.noteIn q.run, ?_, hwrote.read_self, ?_, rfl, hvisited⟩
  · unfold goOn
    rw [run_bind_ok hresume]
    dsimp only
    unfold noteUnrouted
    rw [if_pos hrouted, pure_bind, run_bind_ok hduration, hfinal]
  · have hrows : HasLogs q.world.storage x.id (logs ++ rows) := hexecution ▸ hend.fluent.rows
    rw [HasLogs, hwrote.read_ne (executions_ne_nodeLogs _ _).symm]
    exact hrows

end WorkGraph
