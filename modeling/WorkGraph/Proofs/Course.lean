import WorkGraph.Invocation
import WorkGraph.Proofs.Turn

/-!
# What every dispatch keeps

A dispatch goes through the graph by few kinds of moves. What all of these keep, the whole dispatch keeps, where something
else may hold between a node that has succeeded and its links (`Guided`), and where nothing else does (`Stable`). An output
that brings its click along changes the context before the links are followed (`Routing.answer?`, `Routing.clickedContext`).
-/

namespace WorkGraph

open Running

/-- Whether a computation keeps a property, whatever comes of it. -/
def Running.Keeps {α : Type} (I : Progress → Prop) (act : Running α) : Prop :=
  ∀ p, I p → I (go act p).2

namespace Running

variable {α β : Type} {I : Progress → Prop}

theorem keeps_pure (a : α) : Keeps I (pure a) :=
  fun _ h => h

theorem keeps_throw (fault : Fault) : Keeps I (throw fault : Running α) :=
  fun _ h => h

theorem keeps_bind {act : Running α} {next : α → Running β} (h : Keeps I act) (k : ∀ a, Keeps I (next a)) :
    Keeps I (act >>= next) := by
  intro p hp
  have hq := h p hp
  rw [go_bind]
  rcases hr : go act p with ⟨result, q⟩
  rw [hr] at hq
  cases result with
  | ok a => exact k a q hq
  | error fault => exact hq

theorem keeps_ite {c : Prop} [Decidable c] {act other : Running α} (h : Keeps I act) (k : Keeps I other) :
    Keeps I (if c then act else other) := by
  split
  · exact h
  · exact k

end Running

/-- A node that has not run before is performed and routed. -/
theorem Dispatch.go_within {node : Node} {r : Run} (h : r.context.isCompleted node.id = false) (depth : Nat) (w : World) :
    go (within (depth + 1) node) ⟨w, r⟩ =
      go (perform node >>= route (within depth) node) ⟨w, { r with entered := r.entered ++ [node.id] }⟩ := by
  rw [within, go_bind_ok (go_modifyRun _ w r), go_bind_ok (go_run _ _)]
  dsimp only
  rw [h, if_neg Bool.false_ne_true]

/-- A node that is performed changes the context of the run and nothing else of it. -/
theorem Dispatch.run_perform (node : Node) (p : Progress) :
    ∃ c, (go (perform node) p).2.run = { p.run with context := c } := by
  let I (q : Progress) : Prop := ∃ c, q.run = { p.run with context := c }
  have hlift {α : Type} (act : Engine α) : Keeps I (liftM act : Running α) := fun _ h => h
  have hset (c : Context) : Keeps I (setContext c) := by
    rintro ⟨w, r⟩ ⟨_, hr⟩
    exact ⟨c, by rw [go_setContext, show r = _ from hr]⟩
  have hrecord (output : Value) : Keeps I (record node output) :=
    keeps_bind (fun _ h => h) fun _ => keeps_bind (hlift _) fun _ => hset _
  have hfail (log : NodeLog) (start : Int) (fault : Fault) : Keeps I (fail node log start fault) := by
    refine keeps_bind (hlift _) fun duration => keeps_bind (fun _ h => h) fun c => ?_
    have hclose : Keeps I (do
        let _ ← liftM (Journal.nodeFailed log fault duration.millis fault.output)
        pure () : Running Unit) := keeps_bind (hlift _) fun _ => keeps_pure ()
    exact keeps_ite (keeps_bind (hrecord _) fun _ => hclose) hclose
  have hperform : Keeps I (perform node) := by
    refine keeps_bind ?_ fun _ => keeps_bind (hlift _) fun _ => keeps_bind (fun _ h => h) fun r =>
      keeps_bind (hlift _) fun log => keeps_bind (hlift _) fun result => ?_
    · rintro ⟨w, r⟩ ⟨c, hr⟩
      exact ⟨c.markCompleted node.id, by rw [go_modifyRun, show r = _ from hr]⟩
    · cases result with
      | ok output =>
        exact keeps_bind (hrecord _) fun _ => keeps_bind (hlift _) fun _ => keeps_bind (hlift _) fun _ => keeps_pure _
      | error fault => exact keeps_bind (hfail _ _ _) fun _ => keeps_throw _
  exact hperform p ⟨p.run.context, rfl⟩

/-! ## Clicks that are routed at once -/

namespace Routing

/-- The click that an output brings along, if it is routed by it and its button leads somewhere. -/
def clicked? (router : Option Router) (links : List Link) (output : Value) : Option (Entries Value) :=
  match router, output with
  | some .buttonClick, .map entries =>
    if (ofOutlet links (Value.field entries "button_id").display).isEmpty then none else some entries
  | _, _ => none

/-- The context of a run whose node was clicked. -/
def clickedContext (node : Node) (output : Entries Value) (c : Context) : Context :=
  let button := (Value.field output "button_id").display
  (c.spliceButton node.id [(button, (Value.field output "button_title").orElse (.str button))]).setButtonData
    (clickData button output)

/-- What a click does before its links are followed. -/
theorem go_buttonClick (node : Node) {output : Entries Value} {links : List Link}
    (hl : (ofOutlet links (Value.field output "button_id").display).isEmpty = false) (w : World) (r : Run) :
    ∃ w', Quiet w w' ∧ ∀ dispatch : Node → Running Unit, go (buttonClick dispatch node output links) ⟨w, r⟩ =
      go (follow dispatch (ofOutlet links (Value.field output "button_id").display))
        ⟨w', { r with context := clickedContext node output r.context }⟩ := by
  let act : Engine Unit := Engine.log .info "handlers.button_message" "button_click_routed"
    [("node_id", .str node.id), ("button_id", .str (Value.field output "button_id").display)]
  refine ⟨(Engine.run act w).2, Engine.hushed_log (by decide) w, fun dispatch => ?_⟩
  unfold buttonClick
  dsimp only
  rw [hl, if_neg Bool.false_ne_true, go_bind_ok (go_context w r), go_bind_ok (go_setContext _ w r)]
  exact go_lift_bind (a := ()) rfl _

/-! ## Links -/

section Links

variable {I : Progress → Prop} {dispatch : Node → Running Unit}
  (hd : ∀ {node : Node} {p : Progress}, node ∈ p.run.workflow.nodes → I p → I (go (dispatch node) p).2)

include hd

theorem keeps_followLink (link : Link) : Keeps I (followLink dispatch link) := by
  rintro ⟨w, r⟩ hp
  unfold followLink
  rw [go_bind_ok (go_run w r)]
  cases hn : r.workflow.node? link.target with
  | none => exact hp
  | some target =>
    have hq : I (go (dispatch target) ⟨w, r⟩).2 := hd (List.mem_of_find?_eq_some hn) hp
    dsimp only
    rw [go_bind, go_faultOf]
    rcases hr : go (dispatch target) ⟨w, r⟩ with ⟨result, q⟩
    rw [hr] at hq
    cases result <;> exact hq

theorem keeps_follow : ∀ links : List Link, Keeps I (follow dispatch links)
  | [] => keeps_pure _
  | link :: rest => keeps_bind (keeps_followLink hd link) fun _ => keeps_bind (keeps_follow rest) fun _ => keeps_pure _

/-- A node is routed from where it has left the run, or from where its click has. -/
theorem keeps_along (hquiet : ∀ {w w' : World} {r : Run}, I ⟨w, r⟩ → Quiet w w' → I ⟨w', r⟩) {router : Option Router}
    {node : Node} {output : Value} {links : List Link} {w : World} {r : Run}
    (hpassed : clicked? router links output = none → I ⟨w, r⟩)
    (hclicked : ∀ {entries : Entries Value} {w' : World}, output = .map entries →
      clicked? router links output = some entries → Quiet w w' →
      I ⟨w', { r with context := clickedContext node entries r.context }⟩) :
    I (go (along router dispatch node output links) ⟨w, r⟩).2 := by
  have hlift {act : Engine Unit} (ha : Engine.Hushed act) : Keeps I (liftM act : Running Unit) :=
    fun ⟨w, _⟩ hp => hquiet hp (ha w)
  have hfollow (h : clicked? router links output = none) (links : List Link) :
      I (go (follow dispatch links) ⟨w, r⟩).2 := keeps_follow hd links _ (hpassed h)
  cases router with
  | none => exact hfollow rfl links
  | some router =>
    cases output with
    | null | bool | num | str | list => cases router <;> exact hfollow rfl links
    | map output =>
      cases router with
      | condition =>
        refine keeps_bind (keeps_follow hd _) (fun routing => ?_) _ (hpassed rfl)
        dsimp only
        split
        · exact keeps_bind (hlift (Engine.hushed_log (by decide))) fun _ => keeps_pure _
        · exact keeps_pure _
      | pendingSend =>
        show I (go (pendingSend node output links) ⟨w, r⟩).2
        unfold pendingSend
        split
        · exact hpassed rfl
        · exact keeps_bind (hlift (Engine.hushed_log (by decide))) (fun _ => keeps_pure _) _ (hpassed rfl)
      | buttonClick =>
        show I (go (buttonClick dispatch node output links) ⟨w, r⟩).2
        cases hl : (ofOutlet links (Value.field output "button_id").display).isEmpty with
        | true =>
          unfold buttonClick
          dsimp only
          rw [hl]
          exact hpassed (by simp [clicked?, hl])
        | false =>
          obtain ⟨w', hq, hrun⟩ := go_buttonClick node hl w r
          rw [hrun]
          exact keeps_follow hd _ _ (hclicked rfl (by simp [clicked?, hl]) hq)

end Links

/-- The routing of a node is noted in what is known of failures, and in whether the run waits. -/
theorem noteIn_eq (routing : Routing) (r : Run) :
    routing.noteIn r = { r with
      failed := (routing.noteIn r).failed, firstError := (routing.noteIn r).firstError,
      suspended := (routing.noteIn r).suspended } := by
  unfold noteIn
  cases routing.error <;> cases routing.suspend <;> rfl

/-- The click that the output of a node brings along, if the routers go by it and its button leads somewhere. -/
def answer? (tools : List Value) (links : List Link) (node : Node) (output : Value) : Option (Entries Value) :=
  match Router.choose tools node output with
  | .ok router => clicked? router links output
  | .error _ => none

end Routing

/-! ## Dispatches -/

/-- A property that no move of a dispatch breaks, and what holds between a node that has succeeded and its links. -/
structure Guided (I : Progress → Prop) (J : Node → Value → Progress → Prop) : Prop where
  quiet : ∀ {w w' : World} {r : Run}, I ⟨w, r⟩ → Quiet w w' → I ⟨w', r⟩
  noted : ∀ {w : World} {r : Run} (failed : Bool) (firstError : String) (suspended : Bool),
    I ⟨w, r⟩ → I ⟨w, { r with failed, firstError, suspended }⟩
  entered : ∀ {w : World} {r : Run} (node : Node), I ⟨w, r⟩ → I ⟨w, { r with entered := r.entered ++ [node.id] }⟩
  ran : ∀ {p q : Progress} {node : Node} {output : Value}, node ∈ p.run.workflow.nodes → node.id ∈ p.run.entered →
    p.run.context.isCompleted node.id = false → I p → go (Dispatch.perform node) p = (.ok output, q) → J node output q
  fell : ∀ {p q : Progress} {node : Node} {fault : Fault}, node ∈ p.run.workflow.nodes → node.id ∈ p.run.entered →
    p.run.context.isCompleted node.id = false → I p → go (Dispatch.perform node) p = (.error fault, q) → I q
  passed : ∀ {w : World} {r : Run} {node : Node} {output : Value}, J node output ⟨w, r⟩ →
    Routing.answer? w.config.buttonTools (r.graph.links node.id) node output = none → I ⟨w, r⟩
  answered : ∀ {w w' : World} {r : Run} {node : Node} {output : Entries Value}, J node (.map output) ⟨w, r⟩ →
    Routing.answer? w.config.buttonTools (r.graph.links node.id) node (.map output) = some output → Quiet w w' →
    I ⟨w', { r with context := Routing.clickedContext node output r.context }⟩

namespace Guided

variable {I : Progress → Prop} {J : Node → Value → Progress → Prop} {dispatch : Node → Running Unit}

theorem noteIn (h : Guided I J) (routing : Routing) : Keeps I (modifyRun routing.noteIn) := by
  rintro ⟨w, r⟩ hp
  rw [go_modifyRun, routing.noteIn_eq]
  exact h.noted _ _ _ hp

theorem route (h : Guided I J)
    (hd : ∀ {node : Node} {p : Progress}, node ∈ p.run.workflow.nodes → I p → I (go (dispatch node) p).2) {node : Node}
    {output : Value} {p : Progress} (hj : J node output p) : I (go (Dispatch.route dispatch node output) p).2 := by
  obtain ⟨w, r⟩ := p
  unfold Dispatch.route
  rw [go_bind_ok (go_run w r), go_lift_bind (Engine.run_config w)]
  cases hc : Router.choose w.config.buttonTools node output with
  | error fault =>
    rw [go_lift_bind_error (Engine.run_ofExcept _ w)]
    exact h.passed hj (by rw [Routing.answer?, hc])
  | ok router =>
    rw [go_lift_bind (Engine.run_ofExcept _ w)]
    have hanswer : Routing.answer? w.config.buttonTools (r.graph.links node.id) node output =
        Routing.clicked? router (r.graph.links node.id) output := by rw [Routing.answer?, hc]
    have hq : I (go (Routing.along router dispatch node output (r.graph.links node.id)) ⟨w, r⟩).2 := by
      refine Routing.keeps_along hd h.quiet (fun hn => h.passed hj (hanswer.trans hn)) fun he hclick hq => ?_
      subst he
      exact h.answered hj (hanswer.trans hclick) hq
    rcases hr : go (Routing.along router dispatch node output (r.graph.links node.id)) ⟨w, r⟩ with ⟨result, q⟩
    rw [hr] at hq
    cases result with
    | error fault => rw [go_bind_error hr]; exact hq
    | ok routing =>
      rw [go_bind_ok hr]
      exact h.noteIn routing q hq

/-- What every move keeps, a dispatch keeps. -/
theorem within (h : Guided I J) : ∀ (depth : Nat) {node : Node} {p : Progress}, node ∈ p.run.workflow.nodes → I p →
    I (go (Dispatch.within depth node) p).2
  | 0, _, _, _, hp => hp
  | depth + 1, node, ⟨w, r⟩, hn, hp => by
    unfold Dispatch.within
    rw [go_bind_ok (go_modifyRun _ w r), go_bind_ok (go_run _ _)]
    have he := h.entered node hp
    split
    · exact h.quiet he (Engine.hushed_log (by decide) w)
    · next hc =>
      generalize hs : { r with entered := r.entered ++ [node.id] } = s at he hc
      have hnew : s.context.isCompleted node.id = false := by simpa using hc
      have hn : node ∈ s.workflow.nodes := hs ▸ hn
      have hin : node.id ∈ s.entered := by simp [← hs]
      rcases hr : go (Dispatch.perform node) ⟨w, s⟩ with ⟨fault | output, q⟩
      · rw [go_bind_error hr]
        exact h.fell hn hin hnew he hr
      · rw [go_bind_ok hr]
        exact h.route (fun hn hp => within h depth hn hp) (h.ran hn hin hnew he hr)

/-- Nothing else is done by an invocation on its run. -/
theorem dispatch_node (h : Guided I J) {node : Node} {p : Progress} (hn : node ∈ p.run.workflow.nodes) (hp : I p) :
    I (go (WorkGraph.dispatch node) p).2 := by
  obtain ⟨w, r⟩ := p
  unfold WorkGraph.dispatch
  rw [go_bind_ok (go_run w r)]
  exact h.within r.depth hn hp

theorem fromTrigger (h : Guided I J) : Keeps I Invocation.fromTrigger := by
  rintro ⟨w, r⟩ hp
  unfold Invocation.fromTrigger
  rw [go_bind_ok (go_run w r)]
  cases hn : r.workflow.triggerNode? with
  | none => exact hp
  | some node => exact h.dispatch_node (List.mem_of_find?_eq_some hn) hp

end Guided

/-- A property that no move of a dispatch breaks. -/
structure Stable (I : Progress → Prop) : Prop where
  quiet : ∀ {w w' : World} {r : Run}, I ⟨w, r⟩ → Quiet w w' → I ⟨w', r⟩
  noted : ∀ {w : World} {r : Run} (failed : Bool) (firstError : String) (suspended : Bool),
    I ⟨w, r⟩ → I ⟨w, { r with failed, firstError, suspended }⟩
  entered : ∀ {w : World} {r : Run} (node : Node), I ⟨w, r⟩ → I ⟨w, { r with entered := r.entered ++ [node.id] }⟩
  clicked : ∀ {w : World} {r : Run} {node : String} {output : Entries Value} (button : String) (title data : Value),
    r.context.outputs.get? node = some (.map output) → data.isNull = false → I ⟨w, r⟩ →
    I ⟨w, { r with context := (r.context.spliceButton node [(button, title)]).setButtonData data }⟩
  performed : ∀ (p : Progress) (node : Node), node ∈ p.run.workflow.nodes → node.id ∈ p.run.entered →
    p.run.context.isCompleted node.id = false → I p → I (go (Dispatch.perform node) p).2

namespace Stable

variable {I : Progress → Prop} {dispatch : Node → Running Unit}

/-- The output of a node that has succeeded is in the context, for a click to add to. -/
theorem guided (h : Stable I) : Guided I fun node output p => I p ∧ p.run.context.outputs.get? node.id = some output where
  quiet := h.quiet
  noted := h.noted
  entered := h.entered
  ran {p _ node _} hn he hnew hp hr := by
    have hq := h.performed p node hn he hnew hp
    rw [hr] at hq
    exact ⟨hq, Dispatch.output_of_perform hr⟩
  fell {p _ node _} hn he hnew hp hr := by
    have hq := h.performed p node hn he hnew hp
    rwa [hr] at hq
  passed hj _ := hj.1
  answered hj _ hq := h.clicked _ _ _ hj.2 rfl (h.quiet hj.1 hq)

theorem noteIn (h : Stable I) (routing : Routing) : Keeps I (modifyRun routing.noteIn) :=
  h.guided.noteIn routing

/-- Routing a node keeps what every move keeps. The output of a clicked node must be the one in the context. -/
theorem along (h : Stable I)
    (hd : ∀ {node : Node} {p : Progress}, node ∈ p.run.workflow.nodes → I p → I (go (dispatch node) p).2)
    (router : Option Router) {node : Node} {output : Value} {p : Progress} (links : List Link)
    (ho : p.run.context.outputs.get? node.id = some output) (hp : I p) :
    I (go (Routing.along router dispatch node output links) p).2 :=
  Routing.keeps_along hd h.quiet (fun _ => hp) fun he _ hq =>
    h.clicked _ _ _ (ho.trans (congrArg some he)) rfl (h.quiet hp hq)

theorem dispatch_node (h : Stable I) {node : Node} {p : Progress} (hn : node ∈ p.run.workflow.nodes) (hp : I p) :
    I (go (WorkGraph.dispatch node) p).2 :=
  h.guided.dispatch_node hn hp

theorem fromTrigger (h : Stable I) : Keeps I Invocation.fromTrigger :=
  h.guided.fromTrigger

end Stable

/-- A run stays one of its execution and workflow. -/
theorem stable_identity (execution : String) (workflow : Workflow) (graph : Graph) :
    Stable fun p => p.run.execution = execution ∧ p.run.workflow = workflow ∧ p.run.graph = graph where
  quiet h _ := h
  noted _ _ _ h := h
  entered _ h := h
  clicked _ _ _ _ _ h := h
  performed p node _ _ _ h := by
    obtain ⟨c, hc⟩ := Dispatch.run_perform node p
    rw [hc]
    exact h

/-! ## Runs in the world -/

namespace Engine

variable {α : Type}

theorem run_onRun (r : Run) (act : Running α) (w : World) :
    run (onRun r act) w = (.ok ((go act ⟨w, r⟩).1, (go act ⟨w, r⟩).2.run), (go act ⟨w, r⟩).2.world) := rfl

end Engine

/-- What is left of a run that was settled: its world up to what is quiet, and its context, its failures apart. -/
theorem Invocation.run_settle (workflow : Workflow) (r : Run) (act : Running Unit) (w : World) :
    ∃ s w', Engine.run (settle workflow r act) w = (.ok s, w') ∧ Quiet (go act ⟨w, r⟩).2.world w' ∧
      (s = (go act ⟨w, r⟩).2.run ∨ ∃ message, s = (go act ⟨w, r⟩).2.run.recordFailure message) := by
  unfold settle
  rw [Engine.run_bind_ok (Engine.run_onRun r act w)]
  cases (go act ⟨w, r⟩).1 with
  | ok _ => exact ⟨_, _, rfl, .refl _, .inl rfl⟩
  | error fault =>
    exact ⟨_, _, rfl, Engine.hushed_logFault _ _ _, .inr ⟨_, rfl⟩⟩

namespace Invocation

variable {workflow : Workflow} {payload : Value}

/-- An execution that starts: the run before its trigger node is dispatched. -/
def opening (workflow : Workflow) (payload : Value) : Engine Run := do
  let context := Context.start payload
  let execution ← Journal.startExecution workflow.id context.triggerData
  let r := Run.start execution.id workflow context
  Engine.log .info "executor" "workflow_started"
    [("workflow_id", .str workflow.id), ("execution_id", .str execution.id)]
  warnOfCycle workflow r.graph
  return r

theorem launch_eq (workflow : Workflow) (payload : Value) :
    launch workflow payload = opening workflow payload >>= fun r => settle workflow r fromTrigger := by
  unfold launch opening
  simp only [bind_assoc, pure_bind]

/-- After the record there are only events before the trigger node is dispatched. -/
theorem run_opening {w w' : World} {x : Execution}
    (h : Engine.run (Journal.startExecution workflow.id (Context.start payload).triggerData) w = (.ok x, w')) :
    ∃ u, Quiet w' u ∧ Engine.run (opening workflow payload) w = (.ok (.start x.id workflow (.start payload)), u) := by
  let r : Run := .start x.id workflow (.start payload)
  have hw (w : World) : ∃ u, Quiet w u ∧ Engine.run (warnOfCycle workflow r.graph) w = (.ok (), u) := by
    unfold warnOfCycle
    cases r.graph.cycle? with
    | none => exact ⟨w, .refl w, rfl⟩
    | some vertices => exact ⟨_, Engine.hushed_log (by decide) w, rfl⟩
  let said := (Engine.run (Engine.log .info "executor" "workflow_started"
    [("workflow_id", .str workflow.id), ("execution_id", .str x.id)]) w').2
  have hsaid : Quiet w' said := Engine.hushed_log (by decide) w'
  obtain ⟨u, hq, hu⟩ := hw said
  refine ⟨u, hsaid.trans hq, ?_⟩
  unfold opening
  rw [Engine.run_bind_ok h]
  exact Engine.run_bind_ok hu

theorem run_launch {w w' : World} {x : Execution}
    (h : Engine.run (Journal.startExecution workflow.id (Context.start payload).triggerData) w = (.ok x, w')) :
    ∃ u, Quiet w' u ∧ Engine.run (launch workflow payload) w =
      Engine.run (settle workflow (.start x.id workflow (.start payload)) fromTrigger) u := by
  obtain ⟨u, hq, ho⟩ := run_opening h
  refine ⟨u, hq, ?_⟩
  rw [launch_eq]
  exact Engine.run_bind_ok ho

end Invocation

end WorkGraph
