import WorkGraph.Proofs.Chronicle
import WorkGraph.Proofs.Refused
import WorkGraph.Proofs.Twin

/-!
# Clicks that do no harm

Whatever is done in twins is the same on both sides, and leaves twins behind: for each part of an invocation, from the
audit trail to whole sessions, there is one lemma that says so.
-/

namespace WorkGraph

open Engine

variable {n : Aside}

/-! ## The audit trail and the journal -/

namespace Twin

theorem callTool (tool : String) (arguments : Value) : Abreast (Twin n) (Audit.callTool tool arguments) := by
  refine abreast_get (fun w w' h => by rw [h.auditor]) fun w => ?_
  split
  · exact abreast_pure _
  · refine abreast_ite (abreast_pure _) <| abreast_ite (abreast_bind (abreast_throw _) fun _ => ?_) ?_
    all_goals
      refine abreast_bind (emit _) fun _ => ?_
      dsimp only
      split
      · exact abreast_bind (abreast_modify fun _ _ h => { h with auditor := rfl }) fun _ =>
          abreast_bind (twin_bond n).log fun _ => abreast_pure _
      · exact abreast_bind (abreast_modify fun _ _ h => { h with auditor := rfl }) fun _ => abreast_ofExcept _

theorem createSession (workflow execution : Value) : Abreast (Twin n) (Audit.createSession workflow execution) :=
  abreast_bind (callTool _ _) fun _ => abreast_ofExcept _

theorem appendTurn (session : Value) (content : String) (metadata : Entries Value) :
    Abreast (Twin n) (Audit.append session content metadata) :=
  abreast_ite (abreast_bind (twin_bond n).stamp fun _ => abreast_bind (callTool _ _) fun _ => abreast_pure _)
    (abreast_pure _)

theorem audited {act : Engine Unit} (h : Abreast (Twin n) act) : Abreast (Twin n) (Journal.audited act) :=
  abreast_get (fun _ _ h => by rw [h.auditor]) fun _ => abreast_ite h (abreast_pure _)

theorem sessionFor (execution : String) : Abreast (Twin n) (Journal.sessionFor execution) := by
  refine abreast_get (fun w w' h => by rw [h.sessions]) fun w => ?_
  split
  · exact abreast_pure _
  · refine abreast_bind (findExecution _) fun _ => abreast_bind (abreast_modify fun w w' h => ?_) fun _ => abreast_pure _
    exact { h with sessions := by rw [h.sessions] }

/-- What is reported of an execution. -/
theorem report {execution : String} {report : Value → Engine Unit} (h : ∀ session, Abreast (Twin n) (report session)) :
    Abreast (Twin n) (Journal.audited do report (← Journal.sessionFor execution)) :=
  audited (abreast_bind (sessionFor _) h)

theorem openSession (workflow execution : String) : Abreast (Twin n) (Journal.openSession workflow execution) := by
  refine abreast_get (fun w w' h => by rw [h.auditor]) fun w => abreast_ite ?_ (abreast_pure _)
  refine abreast_bind (createSession _ _) fun _ => abreast_bind (abreast_modify fun w w' h => ?_) fun _ => abreast_pure _
  exact { h with sessions := by rw [h.sessions] }

theorem startExecution (workflow : String) (triggerData : Value) :
    Abreast (Twin n) (Journal.startExecution workflow triggerData) :=
  abreast_bind freshExecutionId fun _ => abreast_bind (openSession _ _) fun _ => abreast_bind (twin_bond n).stamp fun _ =>
    abreast_bind (abreast_ofExcept _) fun _ => abreast_bind (saveExecution _) fun _ =>
      abreast_bind (twin_bond n).log fun _ => abreast_pure _

theorem finishExecution (id : String) (status : RunStatus) (error : Value) (duration : Int) :
    Abreast (Twin n) (Journal.finishExecution id status error duration) :=
  abreast_bind (twin_bond n).stamp fun _ => abreast_bind (updateExecution _ _) fun _ => abreast_bind (twin_bond n).log fun _ =>
    abreast_bind (report fun _ => appendTurn _ _ _) fun _ => abreast_pure _

end Twin

/-- A row is reported. What is reported must not depend on its number, nor change what is stored. -/
theorem Matched.reporting {execution : String} {w w' : World} {act act' : Engine NodeLog}
    (h : Matched n execution w w' act act') (report : NodeLog → Engine Unit) (ha : ∀ log, Abreast (Twin n) (report log))
    (hq : ∀ log, Hushed (report log))
    (hn : ∀ log, report log.next = report log) :
    Matched n execution w w' (do let log ← act; report log; return log) (do let log ← act'; report log; return log) := by
  obtain ⟨result, result', u, u', hr, hr', ht, htickets⟩ := h
  unfold Matched
  cases htickets with
  | error fault => exact ⟨_, _, u, u', run_bind_error hr, run_bind_error hr', ht, .error fault⟩
  | @ok log log' hticket =>
    have hreport : report log' = report log := by
      cases hticket with
      | same => rfl
      | next => exact hn log
    rw [run_bind_ok hr, run_bind_ok hr', hreport]
    obtain ⟨result, v, v', hv, hv', hvt⟩ := ha log u u' ht
    have hs := (hq log u).storage
    have hs' := (hq log u').storage
    rw [hv] at hs
    rw [hv'] at hs'
    cases result with
    | error fault => exact ⟨_, _, v, v', run_bind_error hv, run_bind_error hv', hvt, .error fault⟩
    | ok _ => exact ⟨_, _, v, v', run_bind_ok hv, run_bind_ok hv', hvt, .ok (hticket.of_find? (by rw [hs]) (by rw [hs']))⟩

namespace Journal

variable {execution : String} {w w' : World} {log log' : NodeLog}

theorem startNode_twins (h : Twin n w w') (execution : String) (node : Node) (input : Value) :
    Matched n execution w w' (startNode execution node input) (startNode execution node input) :=
  (Store.NodeLogs.append_twins h execution _).reporting _ (fun _ => Twin.report fun _ => Twin.appendTurn _ _ _)
    (fun _ => hushed_report fun _ => Audit.hushed_append _ _ _) fun _ => rfl

/-- The row of a node that starts names its execution. -/
theorem executionId_startNode {node : Node} {input : Value} {u : World}
    (h : run (startNode execution node input) w = (.ok log, u)) : log.executionId = execution := by
  obtain ⟨row, v, hrow, h⟩ := eq_ok_of_bind h
  obtain ⟨_, _, -, h⟩ := eq_ok_of_bind h
  obtain rfl := Except.ok.inj (congrArg Prod.fst h)
  exact Store.NodeLogs.executionId_append hrow

theorem nodeSucceeded_twins (h : Twin n w w') (ht : Ticket n log.executionId w.storage w'.storage log log')
    (output : Value) (duration : Int) :
    Matched n log.executionId w w' (nodeSucceeded log output duration) (nodeSucceeded log' output duration) := by
  have hupdate := Store.NodeLogs.update_twins h ht
    (fun now log => NodeLog.load_succeeded now log output duration w.clock.stamp) (fun _ => rfl) fun _ => rfl
  have hreport := hupdate.reporting (fun updated => audited do
    Audit.nodeCompleted (← sessionFor log.executionId) (.str log.nodeId) (.str log.nodeType) (.int updated.durationMs))
    (fun _ => Twin.report fun _ => Twin.appendTurn _ _ _) (fun _ => hushed_report fun _ => Audit.hushed_append _ _ _)
    fun _ => rfl
  unfold nodeSucceeded Matched
  rw [run_bind_ok (run_stamp w), run_bind_ok (run_stamp w'), h.clock]
  cases ht with
  | same => exact hreport
  | next => exact hreport

theorem nodeFailed_twins (h : Twin n w w') (ht : Ticket n log.executionId w.storage w'.storage log log')
    (fault : Fault) (duration : Int) (output : Value) :
    Matched n log.executionId w w' (nodeFailed log fault duration output) (nodeFailed log' fault duration output) := by
  have hupdate := Store.NodeLogs.update_twins h ht
    (fun now log => NodeLog.load_failed now log fault duration output w.clock.stamp) (fun _ => rfl) fun _ => rfl
  have hreport := hupdate.reporting (fun _ => do
    Engine.log .warning "recorder" "node_failed"
      [("execution_id", .str log.executionId), ("node_id", .str log.nodeId), ("node_type", .str log.nodeType),
        ("error", .str fault.message)]
    audited do
      Audit.nodeFailed (← sessionFor log.executionId) (.str log.nodeId) (.str log.nodeType) (.str fault.message))
    (fun _ => abreast_bind (twin_bond n).log fun _ => Twin.report fun _ => Twin.appendTurn _ _ _)
    (fun _ => hushed_bind (hushed_log (by decide)) fun _ => hushed_report fun _ => Audit.hushed_append _ _ _) fun _ => rfl
  simp only [bind_assoc] at hreport
  unfold nodeFailed Matched
  rw [run_bind_ok (run_stamp w), run_bind_ok (run_stamp w'), h.clock]
  cases ht with
  | same => exact hreport
  | next => exact hreport

end Journal

/-- A row that is not looked at again. -/
theorem Twin.routingFailed {α : Type} (execution node message : String) (details : Entries Value) (a : α) :
    Abreast (Twin n) (do let _ ← Journal.routingFailed execution node message details; return a) := by
  intro w w' h
  have happend : Matched n execution w w' (Journal.routingFailed execution node message details)
      (Journal.routingFailed execution node message details) := by
    unfold Journal.routingFailed Matched
    rw [run_bind_ok (run_stamp w), run_bind_ok (run_stamp w'), h.clock]
    exact (Store.NodeLogs.append_twins h execution _).reporting _ (fun _ => (twin_bond n).log)
      (fun _ => hushed_log (by decide)) fun _ => rfl
  obtain ⟨result, result', u, u', hr, hr', ht, htickets⟩ := happend
  cases htickets with
  | error fault => exact ⟨_, u, u', run_bind_error hr, run_bind_error hr', ht⟩
  | ok => exact ⟨.ok a, u, u', run_bind_ok hr, run_bind_ok hr', ht⟩

/-! ## Nodes -/

namespace Dispatch

open Running

/-- A node that runs leaves the logs as they are. -/
theorem find?_runNode (node : Node) (r : Run) (w : World) (execution : String) :
    (Engine.run (runNode node r) w).2.storage.find? (Store.NodeLogs.place execution) =
      w.storage.find? (Store.NodeLogs.place execution) := by
  rcases (runNode_worked node r w).1.storage with hs | ⟨m, -, -, -, rows, -, hw⟩
  · rw [hs]
  · exact Storage.find?_write_ne hw (nodeLogs_ne_mappings _ _)

/-- Where an output is recorded, the world stays as it is. -/
theorem go_record_world (node : Node) (output : Value) (r : Run) :
    ∃ result s, ∀ w, go (record node output) ⟨w, r⟩ = (result, ⟨w, s⟩) := by
  unfold record
  cases hc : r.context.record node.id node.type output with
  | ok c =>
    refine ⟨.ok (), { r with context := c }, fun w => ?_⟩
    rw [go_bind_ok (go_context w r), hc, go_lift_bind (Engine.run_ofExcept _ w)]
    rfl
  | error fault =>
    refine ⟨.error fault, r, fun w => ?_⟩
    rw [go_bind_ok (go_context w r), hc, go_lift_bind_error (Engine.run_ofExcept _ w)]

/-- The row of a failed node is closed in twins. -/
theorem fail_twins {w w' : World} {log log' : NodeLog} (node : Node) (start : Int) (fault : Fault) (r : Run)
    (h : Twin n w w') (ht : Ticket n log.executionId w.storage w'.storage log log') :
    ∃ result s u u', go (fail node log start fault) ⟨w, r⟩ = (result, ⟨u, s⟩) ∧
      go (fail node log' start fault) ⟨w', r⟩ = (result, ⟨u', s⟩) ∧ Twin n u u' := by
  have hclose (s : Run) (duration : Int) :
      ∃ result u u', go (do
          let _ ← liftM (Journal.nodeFailed log fault duration fault.output)
          pure () : Running Unit) ⟨w, s⟩ = (result, ⟨u, s⟩) ∧ go (do
          let _ ← liftM (Journal.nodeFailed log' fault duration fault.output)
          pure () : Running Unit) ⟨w', s⟩ = (result, ⟨u', s⟩) ∧ Twin n u u' := by
    obtain ⟨result, result', u, u', hr, hr', hu, htickets⟩ := Journal.nodeFailed_twins h ht fault duration fault.output
    cases htickets with
    | error fault => exact ⟨_, u, u', go_lift_bind_error hr s, go_lift_bind_error hr' s, hu⟩
    | ok => exact ⟨_, u, u', go_lift_bind hr s, go_lift_bind hr' s, hu⟩
  unfold fail
  rw [go_lift_bind (Engine.run_since _ _), go_lift_bind (Engine.run_since _ _), h.clock, go_bind_ok (go_context w r),
    go_bind_ok (go_context w' r)]
  dsimp only
  split
  · obtain ⟨result, s, hrecord⟩ := go_record_world node fault.output r
    cases result with
    | error fault => exact ⟨_, s, w, w', go_bind_error (hrecord w), go_bind_error (hrecord w'), h⟩
    | ok _ =>
      rw [go_bind_ok (hrecord w), go_bind_ok (hrecord w')]
      obtain ⟨result, u, u', hr, hr', hu⟩ := hclose s (w.clock.since start).millis
      exact ⟨result, s, u, u', hr, hr', hu⟩
  · obtain ⟨result, u, u', hr, hr', hu⟩ := hclose r (w.clock.since start).millis
    exact ⟨result, r, u, u', hr, hr', hu⟩

theorem perform_twins {w w' : World} (node : Node) (r : Run) (h : Twin n w w') :
    Running.Abreast (fun _ => Twin n) (perform node) r w w' := by
  unfold Running.Abreast perform
  rw [go_bind_ok (go_marked node w r), go_bind_ok (go_marked node w' r), go_lift_bind (Engine.run_reading _),
    go_lift_bind (Engine.run_reading _), go_bind_ok (go_run _ _), go_bind_ok (go_run _ _), h.clock]
  obtain ⟨result, result', u, u', hs, hs', hu, htickets⟩ :=
    Journal.startNode_twins h (r.marked node).execution node (.map (r.marked node).context.flat)
  cases htickets with
  | error fault => exact ⟨_, _, u, u', go_lift_bind_error hs _, go_lift_bind_error hs' _, hu⟩
  | @ok log log' hticket =>
    have hexecution : log.executionId = (r.marked node).execution := Journal.executionId_startNode hs
    rw [go_lift_bind hs, go_lift_bind hs', go_lift_bind (Engine.run_attempt _ _), go_lift_bind (Engine.run_attempt _ _)]
    obtain ⟨result, v, v', hn, hn', hv⟩ := (twin_bond n).runNode node (r.marked node) u u' hu
    have hfind := find?_runNode node (r.marked node) u log.executionId
    have hfind' := find?_runNode node (r.marked node) u' log.executionId
    rw [hn] at hfind
    rw [hn'] at hfind'
    rw [← hexecution] at hticket
    replace hticket := hticket.of_find? hfind hfind'
    rw [hn, hn']
    cases result with
    | ok output =>
      dsimp only
      obtain ⟨result, s, hrecord⟩ := go_record_world node output (r.marked node)
      cases result with
      | error fault => exact ⟨_, s, v, v', go_bind_error (hrecord v), go_bind_error (hrecord v'), hv⟩
      | ok _ =>
        rw [go_bind_ok (hrecord v), go_bind_ok (hrecord v'), go_lift_bind (Engine.run_since _ _),
          go_lift_bind (Engine.run_since _ _), hv.clock]
        obtain ⟨result, result', x, x', hr, hr', hx, htickets⟩ :=
          Journal.nodeSucceeded_twins hv hticket output (v.clock.since w.clock.reading).millis
        cases htickets with
        | error fault => exact ⟨_, s, x, x', go_lift_bind_error hr s, go_lift_bind_error hr' s, hx⟩
        | ok => exact ⟨_, s, x, x', go_lift_bind hr s, go_lift_bind hr' s, hx⟩
    | error fault =>
      dsimp only
      obtain ⟨result, s, x, x', hr, hr', hx⟩ := fail_twins node w.clock.reading fault (r.marked node) hv hticket
      cases result with
      | error fault => exact ⟨_, s, x, x', go_bind_error hr, go_bind_error hr', hx⟩
      | ok _ => exact ⟨_, s, x, x', go_bind_ok hr, go_bind_ok hr', hx⟩

end Dispatch

/-- No move of a dispatch makes a difference between twins. -/
theorem yoked_twin (n : Aside) : Yoked fun _ => Twin n where
  config h := h.config
  said _ h := h.said _
  noted _ _ _ h := h
  entered _ h := h
  clicked _ _ _ _ h := h
  performed node _ h := Dispatch.perform_twins node _ h

/-! ## Invocations -/

namespace Twin

theorem finalize (r : Run) (duration : Int) : Abreast (Twin n) (Invocation.finalize r duration) := by
  refine abreast_bind (entering _) fun _ => abreast_ite ?_ (abreast_ite ?_ ?_)
  all_goals exact abreast_bind (finishExecution _ _ _ _) fun _ => abreast_pure _

theorem launch (W : Workflow) (payload : Value) : Abreast (Twin n) (Invocation.launch W payload) := by
  refine abreast_bind (startExecution _ _) fun _ => abreast_bind (twin_bond n).log fun _ =>
    abreast_bind ((twin_bond n).warnOfCycle _ _) fun _ w w' h => ?_
  obtain ⟨s, u, u', hr, hr', hu⟩ := (yoked_twin n).settle h W
  exact ⟨.ok s, u, u', hr, hr', hu⟩

theorem execute (W : Workflow) (payload : Value) : Abreast (Twin n) (Invocation.execute W payload) :=
  abreast_bind (entering _) fun _ => abreast_bind (twin_bond n).reading fun _ => abreast_bind (launch W payload) fun _ =>
    abreast_bind ((twin_bond n).since _) fun _ => finalize _ _

theorem executeStored (id : String) (payload : Value) : Abreast (Twin n) (Invocation.executeStored id payload) :=
  Bond.executeStored (fun _ : Unit => twin_bond n) (fun _ h => h ()) execute id payload

theorem fire (trigger payload : Value) : Abreast (Twin n) (Trigger.fire trigger payload) :=
  Bond.fire (fun _ : Unit => twin_bond n) (fun _ h => h ()) execute trigger payload

theorem resume (W : Workflow) (execution : String) (node : Node) (context : Context) (prior : Option String) :
    Abreast (Twin n) (Invocation.resume W execution node context prior) := by
  intro w w' h
  obtain ⟨result, s, u, u', hr, hr', hu, -⟩ := (yoked_twin n).resume node prior (entering _ w w' h)
  exact ⟨result, u, u', hr, hr', hu⟩

/-! ## Clicks -/

theorem executionOf (mapping : ButtonMapping) : Abreast (Twin n) (Continuation.executionOf mapping) := by
  refine abreast_bind (findExecution _) fun found => ?_
  split
  · exact abreast_throw _
  · exact abreast_ite (abreast_pure _) (abreast_throw _)

/-- What is restored does not depend on the one row. -/
theorem restore (x : Execution) (node : Node) (button data : Value) :
    Abreast (Twin n) (Continuation.restore x node button data) := by
  have hcontext : Abreast (Twin n) (do
      let logs ← Store.NodeLogs.all x.id
      Engine.ofExcept (Context.replay x.triggerData logs)) := by
    intro w w' h
    obtain ⟨result, result', u, u', hr, hr', hu, hall⟩ := Store.NodeLogs.all_twins h x.id
    cases result with
    | error fault =>
      rcases hall with rfl | ⟨logs, hlogs, -⟩
      · exact ⟨_, u, u', run_bind_error hr, run_bind_error hr', hu⟩
      · cases hlogs
    | ok rows =>
      rcases hall with rfl | ⟨logs, hlogs, rfl⟩
      · exact ⟨_, u, u', (run_bind_ok hr).trans (run_ofExcept _ _), (run_bind_ok hr').trans (run_ofExcept _ _), hu⟩
      · obtain rfl := Except.ok.inj hlogs
        refine ⟨_, u, u', (run_bind_ok hr).trans (run_ofExcept _ _), (run_bind_ok hr').trans ?_, hu⟩
        rw [run_ofExcept, n.replay_among]
  have heq : Continuation.restore x node button data = (do
      let context ← (do
        let logs ← Store.NodeLogs.all x.id
        Engine.ofExcept (Context.replay x.triggerData logs))
      return context.spliceButton node.id (← Engine.ofExcept (ButtonMessage.clicked button data))) := by
    unfold Continuation.restore
    rw [bind_assoc]
  rw [heq]
  exact abreast_bind hcontext fun _ => abreast_bind (abreast_ofExcept _) fun _ => abreast_pure _

theorem restoreOrRelease (message : String) (x : Execution) (node : Node) (button data : Value) :
    Abreast (Twin n) (Continuation.restoreOrRelease message x node button data) := by
  refine abreast_bind (abreast_attempt (restore _ _ _ _)) fun result => ?_
  cases result with
  | ok context => exact abreast_pure _
  | error fault => exact abreast_bind ((twin_bond n).release _) fun _ => abreast_throw _

theorem noteUnrouted (message : String) (x : Execution) (node : Node) (button : Value) (routing : Routing) (r : Run) :
    Abreast (Twin n) (Continuation.noteUnrouted message x node button routing r) :=
  abreast_ite (abreast_pure _) (routingFailed _ _ _ _ _)

theorem goOn (message : String) (W : Workflow) (x : Execution) (node : Node) (button : Value) (context : Context)
    (start : Int) : Abreast (Twin n) (Continuation.goOn message W x node button context start) :=
  abreast_bind (resume _ _ _ _ _) fun _ => abreast_bind (noteUnrouted _ _ _ _ _ _) fun _ =>
    abreast_bind ((twin_bond n).totalDuration _ _) fun _ => finalize _ _

theorem goOnOrFail (message : String) (W : Workflow) (x : Execution) (node : Node) (button : Value) (context : Context)
    (start : Int) : Abreast (Twin n) (Continuation.goOnOrFail message W x node button context start) := by
  refine abreast_bind (abreast_attempt (goOn _ _ _ _ _ _ _)) fun result => ?_
  cases result with
  | ok answer => exact abreast_pure _
  | error fault =>
    exact abreast_bind ((twin_bond n).totalDuration _ _) fun _ => abreast_bind ((twin_bond n).logFault _ _) fun _ =>
      abreast_bind (finishExecution _ _ _ _) fun _ => abreast_throw _

theorem proceed (mapping : ButtonMapping) (message : String) (button data : Value) :
    Abreast (Twin n) (Continuation.proceed mapping message button data) := by
  refine abreast_bind (twin_bond n).reading fun _ => abreast_bind ((twin_bond n).workflowOf _) fun W =>
    abreast_bind (executionOf _) fun x => ?_
  split
  · exact abreast_throw _
  · refine abreast_bind ((twin_bond n).warnOfButton _ _ _) fun _ => abreast_bind ((twin_bond n).claim _ _) fun _ =>
      abreast_ite (abreast_bind (abreast_throw _) fun _ => ?_) ?_
    all_goals
      exact abreast_bind (restoreOrRelease _ _ _ _ _) fun _ => abreast_bind (twin_bond n).log fun _ =>
        goOnOrFail _ _ _ _ _ _ _

theorem refuse (mapping : ButtonMapping) (message : String) (button : Value) (fault : Fault) :
    Abreast (Twin n) (Continuation.refuse mapping message button fault) := by
  unfold Continuation.refuse
  dsimp only
  split
  · exact routingFailed _ _ _ _ _
  · exact abreast_bind ((twin_bond n).logFault _ _) fun _ => routingFailed _ _ _ _ _

theorem click (message : String) (button data : Value) : Abreast (Twin n) (WorkGraph.click message button data) := by
  refine abreast_bind ((twin_bond n).findMapping _) fun found => ?_
  split
  · exact abreast_bind (twin_bond n).log fun _ => abreast_pure _
  · refine abreast_bind (abreast_attempt (proceed _ _ _ _)) fun result => ?_
    cases result with
    | ok answer => exact abreast_pure _
    | error fault => exact abreast_bind (refuse _ _ _ _) fun _ => abreast_pure _

/-! ## Sessions -/

/-- A step does the same in twins. -/
theorem perform (step : Session.Step) : Abreast (Twin n) (Session.perform step) := by
  cases step with
  | execute W payload => exact abreast_map _ (execute W payload)
  | executeStored id payload => exact abreast_map _ (executeStored id payload)
  | trigger trigger payload => exact abreast_map _ (fire trigger payload)
  | click message button data => exact abreast_map _ (click message button data)
  | saveWorkflow W => exact abreast_map _ (saveWorkflow W)
  | setWorkflowStatus id status => exact abreast_map _ ((twin_bond n).setWorkflowStatus saveWorkflow id status)
  | register role id collaborator =>
    exact abreast_bind ((twin_bond n).change role (·.set id collaborator)) fun _ => abreast_pure _
  | unregister role id => exact abreast_bind ((twin_bond n).change role (·.erase id)) fun _ => abreast_pure _
  | advance ticks => exact abreast_bind ((twin_bond n).advance ticks) fun _ => abreast_pure _
  | inject failpoint =>
    exact abreast_bind (abreast_modify fun w w' h => { h with failpoints := by rw [h.failpoints] }) fun _ => abreast_pure _
  | forget => exact abreast_bind (abreast_modify fun w w' h => { h with sessions := rfl }) fun _ => abreast_pure _
  | closeAudit =>
    exact abreast_bind (abreast_modify fun w w' h => { h with auditor := by rw [h.auditor] }) fun _ => abreast_pure _

end Twin

/-- Steps do the same in twins. -/
theorem Session.run_twins : ∀ (steps : List Step) {w w' : World}, Twin n w w' →
    (run steps w').1 = (run steps w).1 ∧ Twin n (run steps w).2 (run steps w').2
  | [], _, _, h => ⟨rfl, h⟩
  | step :: rest, w, w', h => by
    obtain ⟨result, u, u', hr, hr', hu⟩ := Twin.perform step w w' h
    obtain ⟨hanswers, htwin⟩ := run_twins rest hu
    simp only [run, hr, hr']
    exact ⟨by rw [hanswers], htwin⟩

/-! ## What a refused click leaves -/

/-- A row without its number. -/
def NodeLog.unnumbered (log : NodeLog) : NodeLog :=
  { log with id := 0 }

/-- The rows of the nodes are the same in twins, but for their numbers. -/
theorem Twin.attempted {w w' : World} (h : Twin n w w') (execution : String) :
    (w'.storage.attempted execution).map NodeLog.unnumbered = (w.storage.attempted execution).map NodeLog.unnumbered := by
  rcases h.log_cases execution with hd | ⟨-, logs, -, -, hl, hl'⟩
  · have hread : w'.storage.read (Store.NodeLogs.place execution) (.list []) =
        w.storage.read (Store.NodeLogs.place execution) (.list []) := by
      rw [Storage.read, Storage.read, hd]
    rw [Spared.attempted_congr hread]
  · have hrest (rows : List NodeLog) : ((rows.map NodeLog.next).filter (!·.isRouting)).map NodeLog.unnumbered =
        (rows.filter (!·.isRouting)).map NodeLog.unnumbered := by
      rw [List.filter_map, List.map_map]
      rfl
    rw [Storage.attempted, Storage.attempted, hl.nodeLogs, hl'.nodeLogs, Aside.among]
    conv => rhs; rw [← List.take_append_drop n.count logs]
    rw [List.filter_append, List.filter_append, List.filter_cons, n.routing, Bool.not_true, if_neg Bool.false_ne_true,
      List.map_append, List.map_append, hrest]

/-- With the note of a refused click a world is the twin of what it was, provided the log had rows before. -/
theorem Noted.twin {mapping : ButtonMapping} {w w' : World} {logs : List NodeLog} (hn : Noted mapping w w')
    (hauditor : w'.auditor = w.auditor) (hsessions : w'.sessions = w.sessions)
    (hl : HasLogs w.storage mapping.executionId logs) (hc : Counted logs) (hne : logs ≠ []) :
    ∃ n, Twin n { w with failpoints := w'.failpoints } w' := by
  obtain ⟨rows, text, details, hrows, hw⟩ := hn
  have hmap : rows = logs.map NodeLog.toValue := by simpa using hrows.symm.trans hl
  subst hmap
  rw [List.length_map] at hw
  let n : Aside := ⟨mapping.executionId, logs.length, .unrouted mapping.executionId (logs.length + 1) mapping.nodeId text
    details w.clock.stamp, List.length_pos_iff.2 hne, NodeLog.isRouting_unrouted _ _ _ _ _ _, rfl⟩
  have hamong : (n.among logs).map NodeLog.toValue = logs.map NodeLog.toValue ++ [n.row.toValue] := by
    simp [n, Aside.among]
  have hs := hw.storage
  obtain ⟨storage, -, hq⟩ := hw
  exact ⟨n, hq.config, hq.clock, hq.issued, hq.tools, hq.agents, rfl, hauditor, hsessions, hq.calls,
    .of_write hl hc (Nat.le_refl _) (hamong ▸ hs)⟩

/-- Without a note a world is what it was. -/
theorem Quiet.twin {w w' : World} (hq : Quiet w w') (hauditor : w'.auditor = w.auditor)
    (hsessions : w'.sessions = w.sessions) (n : Aside) : Twin n { w with failpoints := w'.failpoints } w' :=
  ⟨hq.config, hq.clock, hq.issued, hq.tools, hq.agents, rfl, hauditor, hsessions, hq.calls, hq.storage ▸ .refl n _⟩

/-- A refused click does nothing but to note itself: there is one row more in the log of the execution of its mapping, and
nothing at all without a mapping. Where there were rows in that log, whatever is done from then on, with the same
injected faults, is as if there had been no click: the same answers, the same calls, the same rows of nodes but for their
numbers, and the same in all files that are no logs. -/
theorem refused_click_harmless {message : String} {button data : Value} {w : World} (hu : w.Unset .releaseClaim)
    (hnone : (run (click message button data) w).1 = .ok none) (hno : ¬Continuation.Restores message button data w) :
    let found := (run (Store.Mappings.find? message) w).1
    let w' := (run (click message button data) w).2
    (found = .ok none ∧ Quiet w w' ∨ ∃ mapping, found = .ok (some mapping) ∧ Noted mapping w w') ∧
    ((∀ mapping, found = .ok (some mapping) →
        ∃ logs, HasLogs w.storage mapping.executionId logs ∧ Counted logs ∧ logs ≠ []) →
      ∀ steps,
        let p := Session.run steps { w with failpoints := w'.failpoints }
        let p' := Session.run steps w'
        p'.1 = p.1 ∧ p'.2.calls = p.2.calls ∧
          (∀ execution, (p'.2.storage.attempted execution).map NodeLog.unnumbered =
            (p.2.storage.attempted execution).map NodeLog.unnumbered) ∧
          ∀ place : Location, (∀ execution, place.path ≠ (Store.NodeLogs.place execution).path) →
            p'.2.storage.find? place = p.2.storage.find? place) := by
  intro found w'
  have hleft := click_refused hu hnone hno
  refine ⟨hleft, fun hlogs steps => ?_⟩
  obtain ⟨hauditor, hsessions⟩ := click_remote (remote_audit w.auditor w.sessions) hno ⟨rfl, rfl⟩
  obtain ⟨n, htwin⟩ : ∃ n, Twin n { w with failpoints := w'.failpoints } w' := by
    rcases hleft with ⟨hf, hq⟩ | ⟨mapping, hf, hn⟩
    · exact ⟨_, hq.twin hauditor hsessions ⟨"", 1, .unrouted "" 2 "" "" [] "", Nat.one_pos,
        NodeLog.isRouting_unrouted _ _ _ _ _ _, rfl⟩⟩
    · obtain ⟨logs, hl, hc, hne⟩ := hlogs mapping hf
      exact hn.twin hauditor hsessions hl hc hne
  obtain ⟨hanswers, ht⟩ := Session.run_twins steps htwin
  exact ⟨hanswers, ht.calls, ht.attempted, fun place hp => ht.storage.find?_ne place (hp n.execution)⟩

namespace Sample

/-- Whether a click is refused, and no injected fault waits. -/
def refuses (message : String) (button : Value) (w : World) : Bool :=
  (run (click message button .null) w).1.toOption == some none && !restores message button w && w.failpoints.isEmpty

theorem of_refuses {message : String} {button : Value} {w : World} (h : refuses message button w = true) :
    w.Unset .releaseClaim ∧ (run (click message button .null) w).1 = .ok none ∧
      ¬Continuation.Restores message button .null w := by
  simp only [refuses, Bool.and_eq_true, beq_iff_eq, Bool.not_eq_true', List.isEmpty_iff] at h
  obtain ⟨⟨hnone, hno⟩, hpoints⟩ := h
  refine ⟨fun p hp => ?_, ?_, fun hr => ?_⟩
  · rw [hpoints] at hp
    cases hp
  · rcases hr : (run (click message button .null) w).1 with fault | answer <;> rw [hr] at hnone
    · cases hnone
    · rw [Option.some.inj hnone]
  · rw [restores_iff.2 hr] at hno
    cases hno

/-- A world in which there is a mapping of an execution of which nothing else is there. -/
def orphaned : World :=
  { World.initial {} "" none with storage := ⟨"", [("button_mappings/m.json", .value (.list [ButtonMapping.toValue
    { id := 1, messageId := "m", workflowId := "flow", executionId := "lost", nodeId := "ask", buttonIds := []
      createdAt := "" }]))]⟩ }

end Sample

/-- A message is clicked whose workflow is not stored, and again when it is. -/
theorem refused_click_harmless_sample :
    let w := (Session.run ((Sample.asking (.str Sample.sender)).take 2) (.initial {} "" none)).2
    let w' := (run (click "m" (.str "yes") .null) w).2
    let steps : List Session.Step :=
      [.saveWorkflow (Sample.halfway (.str Sample.sender)), .click "m" (.str "yes") .null]
    w.Unset .releaseClaim ∧ (run (click "m" (.str "yes") .null) w).1 = .ok none ∧
      ¬Continuation.Restores "m" (.str "yes") .null w ∧
      (Session.run steps w').1 = (Session.run steps { w with failpoints := w'.failpoints }).1 := by
  intro w w' steps
  have ho : Orderly w := orderly_run _ (orderly_initial {} "" none)
  have hrun : (Sample.refuses "m" (.str "yes") w,
      (run (Store.Mappings.find? "m") w).1.toOption.join.map ButtonMapping.executionId,
      (w.storage.nodeLogs Sample.execution).isEmpty) = (true, some Sample.execution, false) := by decide +kernel
  simp only [Prod.mk.injEq] at hrun
  obtain ⟨hrefuses, hid, hrows⟩ := hrun
  obtain ⟨hu, hnone, hno⟩ := Sample.of_refuses hrefuses
  refine ⟨hu, hnone, hno, ((refused_click_harmless hu hnone hno).2 (fun mapping hf => ?_) steps).1⟩
  have he : mapping.executionId = Sample.execution := by
    rw [hf] at hid
    exact Option.some.inj hid
  rw [he]
  rcases ho.logs_cases Sample.execution with ⟨logs, hl, hc, -⟩ | hno
  · refine ⟨logs, hl, hc, fun hnil => ?_⟩
    rw [hl.nodeLogs, hnil] at hrows
    cases hrows
  · unfold Storage.nodeLogs at hrows
    split at hrows
    · next rows hr => exact absurd hr (hno rows)
    · cases hrows

/-- Where there was no log, the note of a refused click can be taken for a workflow, one that cannot be read. -/
theorem not_always_harmless :
    let w := Sample.orphaned
    let w' := (run (click "m" (.str "yes") .null) w).2
    let steps : List Session.Step := [.executeStored "../node_logs/lost" .null]
    w.Unset .releaseClaim ∧ (run (click "m" (.str "yes") .null) w).1 = .ok none ∧
      ¬Continuation.Restores "m" (.str "yes") .null w ∧
      (Session.run steps { w with failpoints := w'.failpoints }).1.map Except.isOk = [true] ∧
      (Session.run steps w').1.map Except.isOk = [false] := by
  intro w w' steps
  have hrun : (Sample.refuses "m" (.str "yes") w,
      (Session.run steps { w with failpoints := w'.failpoints }).1.map Except.isOk,
      (Session.run steps w').1.map Except.isOk) = (true, [true], [false]) := by decide +kernel
  simp only [Prod.mk.injEq] at hrun
  obtain ⟨hrefuses, hanswers⟩ := hrun
  obtain ⟨hu, hnone, hno⟩ := Sample.of_refuses hrefuses
  exact ⟨hu, hnone, hno, hanswers⟩

end WorkGraph
