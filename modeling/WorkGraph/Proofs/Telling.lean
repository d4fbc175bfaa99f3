import WorkGraph.Proofs.Outcome
import WorkGraph.Proofs.Veil

/-!
# Runs that are told to two services

A node that has not run before leaves the same row in kindred worlds, and both services are told of that
(`Kindred.perform`); so it goes along a whole run (`Telling`, `yoked_telling`). What an invocation does is therefore the
same in both, and both services are told of the execution, of its rows and of what it has come to: where it starts
(`Kindred.execute`), and where it goes on behind a click (`Kindred.goOnOrFail`).
-/

namespace WorkGraph

open Engine

/-! ## Runs that are told -/

/-- Whether a row is that of a node of an execution, and closed. -/
structure NodeLog.Closed (execution : String) (row : NodeLog) : Prop where
  executionId : row.executionId = execution
  inputData : row.inputData ≠ .null
  status : row.status ≠ .running

namespace Dispatch

open Running

variable {node : Node} {w w₁ w₂ u : World} {r : Run} {log row : NodeLog} {output : Value} {fault : Fault}

/-- A node that failed, where its row could be closed. -/
theorem go_fail {start : Int} (hr : Engine.run (Journal.nodeFailed log fault (w.clock.since start).millis fault.output) w =
    (.ok row, u)) (r : Run) :
    go (fail node log start fault) ⟨w, r⟩ = (.ok (), ⟨u, { r with context := r.context.kept node fault.output }⟩) := by
  unfold fail
  rw [go_lift_bind (run_since _ _), go_bind_ok (go_context w r)]
  dsimp only
  unfold Context.kept
  split
  · next hk =>
    simp only [Bool.and_eq_true, Bool.not_eq_true'] at hk
    rw [go_bind_ok (go_record hk.2 _ w), go_lift_bind hr, go_pure]
  · rw [go_lift_bind hr, go_pure]

section Perform

variable (hs : Engine.run (Journal.startNode r.execution node (.map (r.marked node).context.flat)) w = (.ok log, w₁))

include hs

/-- A node that succeeded, where its row could be opened and closed. -/
theorem go_perform_ok (hn : Engine.run (runNode node (r.marked node)) w₁ = (.ok output, w₂))
    (ho : (r.marked node).context.hasOutput node.id = false)
    (hr : Engine.run (Journal.nodeSucceeded log output (w₂.clock.since w.clock.reading).millis) w₂ = (.ok row, u)) :
    go (perform node) ⟨w, r⟩ =
      (.ok output, ⟨u, { r with context := (r.marked node).context.recorded node.id node.type output }⟩) := by
  unfold perform
  rw [go_bind_ok (go_marked node w r), go_lift_bind (run_reading _), go_bind_ok (go_run _ _), r.execution_marked,
    go_lift_bind hs, go_lift_bind (run_attempt _ _), hn]
  dsimp only
  rw [go_bind_ok (go_record ho output w₂), go_lift_bind (run_since _ _), go_lift_bind hr, go_pure]
  rfl

/-- A node that failed, where its row could be opened and closed. -/
theorem go_perform_error (hn : Engine.run (runNode node (r.marked node)) w₁ = (.error fault, w₂))
    (hr : Engine.run (Journal.nodeFailed log fault (w₂.clock.since w.clock.reading).millis fault.output) w₂ =
      (.ok row, u)) :
    go (perform node) ⟨w, r⟩ =
      (.error fault, ⟨u, { r with context := (r.marked node).context.kept node fault.output }⟩) := by
  unfold perform
  rw [go_bind_ok (go_marked node w r), go_lift_bind (run_reading _), go_bind_ok (go_run _ _), r.execution_marked,
    go_lift_bind hs, go_lift_bind (run_attempt _ _), hn]
  dsimp only
  rw [go_bind_ok (go_fail hr (r.marked node)), go_throw]
  rfl

end Perform

end Dispatch

namespace Kindred

open Running

variable {a b : Option Auditor} {trail : List Notice} {w w' : World} {x : Execution} {logs : List NodeLog} {r : Run}
  {node : Node}

/-- A node that has not run before leaves the same row in both worlds, and both services are told of that. -/
theorem perform (h : Kindred a b trail w w') (hx : HasRecord w.storage x.id x) (he : r.execution = x.id)
    (hf : Fluent ⟨w, r⟩ logs) (ht : node.Titled) (hnew : r.context.isCompleted node.id = false) :
    ∃ row result s u u', go (Dispatch.perform node) ⟨w, r⟩ = (result, ⟨u, s⟩) ∧
      go (Dispatch.perform node) ⟨w', r⟩ = (result, ⟨u', s⟩) ∧ Kindred a b (trail ++ row.notices) u u' ∧
      HasRecord u.storage x.id x ∧ HasLogs u.storage x.id (logs ++ [row]) ∧ row.Closed x.id := by
  have ho : (r.marked node).context.hasOutput node.id = false := by
    rw [Run.marked, Context.hasOutput_markCompleted, ← Bool.not_eq_true]
    exact fun ho => Bool.false_ne_true (hnew.symm.trans (hf.dispatched _ ho))
  have hrows : HasLogs w.storage x.id logs := he ▸ hf.rows
  have hfits : (Store.NodeLogs.place x.id).Fits := he ▸ hf.fits
  obtain ⟨w₁, w₁', hs, hs', hw₁, h₁⟩ := h.startNode hx hfits hrows ht (.map (r.marked node).context.flat)
  generalize hlog : NodeLog.opened _ _ _ _ _ = log at hs hs' hw₁ h₁
  have hid : log.executionId = x.id := by rw [← hlog]; rfl
  have hcounted : Counted (logs ++ [log]) := hf.counted.append (by rw [← hlog]; rfl)
  have hinput : log.inputData ≠ .null := by rw [← hlog]; exact fun hnull => by cases hnull
  obtain ⟨result, w₂, w₂', hn, hn', h₂⟩ := (kindred_bond a b _).runNode node (r.marked node) w₁ w₁' h₁
  have hworked := (Dispatch.runNode_worked node (r.marked node) w₁).1
  rw [hn] at hworked
  have hx₂ : HasRecord w₂.storage x.id x := hworked.hasRecord ((hw₁.read_ne (executions_ne_nodeLogs _ _)).trans hx)
  have hl₂ : HasLogs w₂.storage x.id (logs ++ [log]) := hworked.hasLogs hw₁.hasLogs
  rw [← he] at hs hs'
  have hclock : w₂'.clock.since w'.clock.reading = w₂.clock.since w.clock.reading := by rw [h₂.clock, h.clock]
  cases result with
  | ok output =>
    obtain ⟨u, u', hr, hr', hw, hu⟩ := h₂.nodeSucceeded hx₂ hfits hl₂ hcounted hid output
      (w₂.clock.since w.clock.reading).millis
    refine ⟨_, _, _, u, u', Dispatch.go_perform_ok hs hn ho hr, Dispatch.go_perform_ok hs' hn' ho (by rwa [hclock]), ?_,
      (hw.read_ne (executions_ne_nodeLogs _ _)).trans hx₂, hw.hasLogs, hid, hinput, fun hno => by cases hno⟩
    rw [List.append_assoc] at hu
    exact hu
  | error fault =>
    obtain ⟨u, u', hr, hr', hw, hu⟩ := h₂.nodeFailed hx₂ hfits hl₂ hcounted hid fault
      (w₂.clock.since w.clock.reading).millis fault.output
    refine ⟨_, _, _, u, u', Dispatch.go_perform_error hs hn hr, Dispatch.go_perform_error hs' hn' (by rwa [hclock]), ?_,
      (hw.read_ne (executions_ne_nodeLogs _ _)).trans hx₂, hw.hasLogs, hid, hinput, fun hno => by cases hno⟩
    rw [List.append_assoc] at hu
    exact hu

/-- A node whose title is no text leaves none. -/
theorem perform_untitled (h : Kindred a b trail w w') (ht : ¬node.Titled) (r : Run) :
    ∃ fault u u', go (Dispatch.perform node) ⟨w, r⟩ = (.error fault, ⟨u, r.marked node⟩) ∧
      go (Dispatch.perform node) ⟨w', r⟩ = (.error fault, ⟨u', r.marked node⟩) ∧ Kindred a b trail u u' := by
  have happend := (kindred_bond a b trail).appendLog (not_ofRecord_nodeLogs r.execution)
    (NodeLog.opening node (.map (r.marked node).context.flat))
  obtain ⟨result, u, u', hr, hr', hu⟩ := happend w w' h
  obtain ⟨fault, v, hb, -⟩ : Barred (Store.NodeLogs.append r.execution
      (NodeLog.opening node (.map (r.marked node).context.flat))) w :=
    Store.NodeLogs.append_barred fun rows _ log hl => NodeLog.load_opening_ne ht _ log hl
  obtain ⟨rfl, rfl⟩ := Prod.mk.inj (hr.symm.trans hb)
  have hgo {w u : World} (hr : Engine.run (Store.NodeLogs.append r.execution
      (NodeLog.opening node (.map (r.marked node).context.flat))) w = (.error fault, u)) :
      go (Dispatch.perform node) ⟨w, r⟩ = (.error fault, ⟨u, r.marked node⟩) := by
    unfold Dispatch.perform
    rw [go_bind_ok (go_marked node w r), go_lift_bind (run_reading _), go_bind_ok (go_run _ _), r.execution_marked]
    exact go_lift_bind_error (run_bind_error hr) (r.marked node)
  exact ⟨fault, u, u', hgo hr, hgo hr', hu⟩

end Kindred

/-- Both services were told of the rows that a run of an execution has left so far, behind those that there were. -/
structure Telling (a b : Option Auditor) (trail : List Notice) (x : Execution) (logs rows : List NodeLog) (r : Run)
    (w w' : World) : Prop where
  kindred : Kindred a b (trail ++ rows.flatMap NodeLog.notices) w w'
  execution : r.execution = x.id
  record : HasRecord w.storage x.id x
  fluent : Fluent ⟨w, r⟩ (logs ++ rows)
  closed : ∀ row ∈ rows, row.Closed x.id

/-- Every move of a run keeps that. -/
theorem yoked_telling (a b : Option Auditor) (trail : List Notice) (x : Execution) (logs : List NodeLog) :
    Yoked fun r w w' => ∃ rows, Telling a b trail x logs rows r w w' where
  config := fun ⟨_, h⟩ => h.kindred.config
  said event := fun ⟨rows, h⟩ =>
    ⟨rows, { h with
      kindred := h.kindred.said rfl
      fluent := { h.fluent with audible := ⟨h.fluent.audible.steady, h.fluent.audible.heard, h.fluent.audible.record⟩ } }⟩
  noted failed firstError suspended := fun ⟨rows, h⟩ =>
    ⟨rows, { h with fluent := h.fluent.rerun rfl rfl }⟩
  entered node := fun ⟨rows, h⟩ => ⟨rows, { h with fluent := h.fluent.rerun rfl rfl }⟩
  clicked button title data ho := fun ⟨rows, h⟩ => ⟨rows, { h with fluent := h.fluent.spliced data ho }⟩
  performed {r w w'} node hnew := fun ⟨rows, h⟩ => by
    by_cases ht : node.Titled
    · obtain ⟨row, result, s, u, u', hgo, hgo', hk, hx, hl, hclosed⟩ :=
        h.kindred.perform h.record h.execution h.fluent ht hnew
      obtain ⟨row', result', v, hv, hturn⟩ := h.fluent.perform ht hnew
      obtain ⟨rfl, hs⟩ := Prod.mk.inj (hgo.symm.trans hv)
      obtain ⟨rfl, rfl⟩ := Progress.mk.inj hs
      have hfluent := h.fluent.turned hturn
      obtain rfl : row = row' := by
        have hsame := hl.unique (h.execution ▸ hfluent.rows)
        simpa using hsame
      refine ⟨result, _, u, u', hgo, hgo', rows ++ [row], ?_, h.execution, hx, ?_, fun other hm => ?_⟩
      · rw [List.flatMap_append, ← List.append_assoc]
        simpa using hk
      · rw [← List.append_assoc]
        exact hfluent
      · rcases List.mem_append.1 hm with hm | hm
        · exact h.closed other hm
        · exact List.mem_singleton.1 hm ▸ hclosed
    · obtain ⟨fault, u, u', hgo, hgo', hk⟩ := h.kindred.perform_untitled ht r
      obtain ⟨fault', v, hv, hq, hfluent⟩ := h.fluent.untitled ht
      obtain ⟨rfl, -⟩ := Progress.mk.inj (congrArg Prod.snd (hgo.symm.trans hv))
      exact ⟨_, _, u, u', hgo, hgo', rows, hk, h.execution, hq.hasRecord h.record, hfluent, h.closed⟩

/-! ## Invocations that are told -/

namespace Telling

variable {a b : Option Auditor} {trail : List Notice} {w w' : World} {x : Execution} {logs rows : List NodeLog} {r : Run}

/-- Both services are told what a run has come to. -/
theorem finalize (h : Telling a b trail x logs rows r w w') (hf : (Store.Executions.place x.id).Fits) (duration : Int) :
    let y := x.ended r.status r.error duration w.clock.stamp
    ∃ u u', run (Invocation.finalize r duration) w = (.ok r.answer, u) ∧
      run (Invocation.finalize r duration) w' = (.ok r.answer, u') ∧ HasRecord u.storage x.id y ∧
      HasLogs u.storage x.id (logs ++ rows) ∧
      Kindred a b (trail ++ rows.flatMap NodeLog.notices ++
        [.concluded x.id x.workflowId y.status y.errorMessage w.clock.stamp]) u u' := by
  intro y
  obtain ⟨u, u', hr, hr', hw, hu⟩ := h.kindred.finalize h.record h.execution hf duration
  refine ⟨u, u', hr, hr', hw.read_self, ?_, hu⟩
  rw [HasLogs, hw.read_ne (executions_ne_nodeLogs _ _).symm]
  exact h.execution ▸ h.fluent.rows

end Telling

/-- An execution runs the same way in both worlds, and both services are told of it, of the rows of its nodes and of what
it has come to. If its record cannot be written, they are told of it all the same. -/
theorem Kindred.execute {a b : Option Auditor} {trail : List Notice} {w w' : World} {logs : List NodeLog}
    (h : Kindred a b trail w w') (ho : Orderly w) (hl : HasLogs w.storage w.nextExecution logs) (W : Workflow)
    (payload : Value) :
    (¬(Store.Executions.place w.nextExecution).Fits ∧ ∃ fault u u',
      run (Invocation.execute W payload) w = (.error fault, u) ∧
      run (Invocation.execute W payload) w' = (.error fault, u') ∧ Issued u.issued w.nextExecution ∧
      Kindred a b (trail ++ [.opened W.id w.nextExecution]) u u') ∨
    (Store.Executions.place w.nextExecution).Fits ∧ ∃ y rows now result u u',
      run (Invocation.execute W payload) w = (result, u) ∧ run (Invocation.execute W payload) w' = (result, u') ∧
      y.id = w.nextExecution ∧ y.workflowId = W.id ∧ HasRecord u.storage y.id y ∧
      HasLogs u.storage y.id (logs ++ rows) ∧
      (∀ row ∈ rows, row.Closed y.id) ∧
      Kindred a b (trail ++ [.opened W.id y.id] ++ rows.flatMap NodeLog.notices ++
        [.concluded y.id y.workflowId y.status y.errorMessage now]) u u' := by
  rcases h.opening (fun _ => ho.ne_nextExecution) W payload with
    ⟨hf, fault, u, u', hr, hr', hi, hu⟩ | ⟨hf, x, v, v', hr, hr', hid, hworkflow, hx, hv⟩
  · have hrefused {w u : World} (hs : w.Steady) (hr : run (Invocation.opening W payload) w = (.error fault, u)) :
        run (Invocation.execute W payload) w = (.error fault, u) := by
      unfold Invocation.execute
      rw [run_bind_ok (run_entering_steady hs _), run_bind_ok (run_reading w), Invocation.launch_eq]
      exact run_bind_error (run_bind_error hr)
    exact .inl ⟨hf, fault, u, u', hrefused h.steady hr, hrefused h.steady' hr', hi, hu⟩
  · obtain ⟨z, t, hopened⟩ := Invocation.execute_opened ho h.steady h.heard hf W payload
    obtain ⟨hrun, rfl⟩ := Prod.mk.inj (hr.symm.trans hopened.opened)
    have hzx : x.id = z.id := congrArg Run.execution (Except.ok.inj hrun)
    have hfluent : Fluent ⟨v, .start x.id W (.start payload)⟩ logs := hzx ▸ hopened.fluent logs (hzx ▸ hid ▸ hl)
    have htelling : Telling a b (trail ++ [.opened W.id x.id]) x logs [] (.start x.id W (.start payload)) v v' :=
      ⟨by simpa using hv, rfl, hx, by simpa using hfluent, fun _ hm => by cases hm⟩
    obtain ⟨r, u, u', hs, hs', rows, ht⟩ := (yoked_telling a b _ x logs).settle ⟨[], htelling⟩ W
    have hlaunch {w v u : World} (hr : run (Invocation.opening W payload) w = (.ok (.start x.id W (.start payload)), v))
        (hs : run (Invocation.settle W (.start x.id W (.start payload)) Invocation.fromTrigger) v = (.ok r, u)) :
        run (Invocation.launch W payload) w = (.ok r, u) := by
      rw [Invocation.launch_eq, run_bind_ok hr, hs]
    obtain ⟨t, t', hfinal, hfinal', hrecord, hlogs, ht'⟩ := ht.finalize (hid ▸ hf) (u.clock.since w.clock.reading).millis
    refine .inr ⟨hf, x.ended r.status r.error (u.clock.since w.clock.reading).millis u.clock.stamp, rows, u.clock.stamp,
      .ok r.answer, t, t', ?_, ?_, hid, hworkflow, hrecord, hlogs, ht.closed, ht'⟩
    · exact (run_execute h.steady (hlaunch hr hs)).trans hfinal
    · rw [run_execute h.steady' (hlaunch hr' hs'), ht.kindred.clock, h.clock]
      exact hfinal'

/-- The row of a node is none of a click. -/
theorem NodeLog.Closed.isOfNode {execution : String} {row : NodeLog} (h : row.Closed execution) : row.isOfNode = true := by
  have hnull : row.inputData.isNull = false := by
    have := h.inputData
    cases hi : row.inputData <;> simp_all [Value.isNull]
  rw [NodeLog.isOfNode, hnull, Bool.and_false]
  rfl

namespace Telling

variable {a b : Option Auditor} {trail : List Notice} {w w' : World} {x : Execution} {logs rows : List NodeLog} {r : Run}

/-- A run that goes on behind a click does so in both worlds, or in none. -/
theorem resume {workflow : Workflow} {context : Context} (node : Node)
    (h : Telling a b trail x logs [] (.start x.id workflow context) w w') :
    ∃ result s rows u u', run (Invocation.resume workflow x.id node context x.errorMessage) w = (result, u) ∧
      run (Invocation.resume workflow x.id node context x.errorMessage) w' = (result, u') ∧
      Telling a b trail x logs rows s u u' ∧ ∀ p, result = .ok p → p.2 = s := by
  obtain ⟨result, s, u, u', hr, hr', ⟨rows, hu⟩, hp⟩ := (yoked_telling a b trail x logs).resume node x.errorMessage
    ⟨_, w, w', run_entering_steady h.kindred.steady _, run_entering_steady h.kindred.steady' _, [], h⟩
  exact ⟨result, s, rows, u, u', hr, hr', hu, hp⟩

/-- A click that was not routed is noted in both worlds, and no service is told of that. -/
theorem noteUnrouted (h : Telling a b trail x logs rows r w w') (message : String) (node : Node) (button : Value)
    (routing : Routing) :
    ∃ s extra u u', run (Continuation.noteUnrouted message x node button routing r) w = (.ok s, u) ∧
      run (Continuation.noteUnrouted message x node button routing r) w' = (.ok s, u') ∧ s.execution = x.id ∧
      HasRecord u.storage x.id x ∧ HasLogs u.storage x.id (logs ++ rows ++ extra) ∧
      (∀ row ∈ extra, row.isOfNode = false) ∧ Kindred a b (trail ++ rows.flatMap NodeLog.notices) u u' := by
  have hrows : HasLogs w.storage x.id (logs ++ rows) := h.execution ▸ h.fluent.rows
  unfold Continuation.noteUnrouted
  cases routing.routed with
  | true =>
    exact ⟨r, [], w, w', rfl, rfl, h.execution, h.record, by rwa [List.append_nil],
      (fun _ hm => by cases hm), h.kindred⟩
  | false =>
    obtain ⟨u, u', hr, hr', hw, hu⟩ := h.kindred.done
      ((kindred_bond a b _).routingFailed (not_ofRecord_nodeLogs x.id) node.id (Continuation.unconnected button)
        [("message_id", .str message), ("button_id", button),
          ("available_handles", Routing.outletList (r.graph.links node.id))])
      (Journal.routingFailed_posted hrows _ _ _) (h.execution ▸ h.fluent.fits)
    refine ⟨r.recordFailure (Continuation.unconnected button), [_], u, u', (run_bind_ok hr).trans rfl,
      (run_bind_ok hr').trans rfl, h.execution, (hw.read_ne (executions_ne_nodeLogs _ _)).trans h.record, hw.hasLogs,
      fun row hm => ?_, hu⟩
    rw [List.mem_singleton.1 hm, NodeLog.isOfNode, NodeLog.isRouting_unrouted]
    rfl

end Telling

theorem Kindred.totalDuration {a b : Option Auditor} {trail : List Notice} {w w' : World} {x : Execution}
    (h : Kindred a b trail w w') (hb : Number.inRange x.durationMs = true) (start : Int) : ∃ duration,
    run (Continuation.totalDuration x start) w = (.ok duration, w) ∧
      run (Continuation.totalDuration x start) w' = (.ok duration, w') := by
  obtain ⟨duration, hd, -⟩ := Continuation.run_totalDuration hb start w
  obtain ⟨other, hd', -⟩ := Continuation.run_totalDuration hb start w'
  obtain ⟨result, u, u', hr, hr', -⟩ := (kindred_bond a b trail).totalDuration x start w w' h
  obtain rfl : result = .ok duration := congrArg Prod.fst (hr.symm.trans hd)
  obtain rfl : duration = other := Except.ok.inj (congrArg Prod.fst (hr'.symm.trans hd'))
  exact ⟨duration, hd, hd'⟩

/-- An execution goes on behind a click in the same way in both worlds, and both services are told of the rows of its nodes
and of what it has come to. -/
theorem Kindred.goOnOrFail {a b : Option Auditor} {trail : List Notice} {w v' : World} {x : Execution} {logs : List NodeLog}
    {mapping : ButtonMapping} {button data : Value} {workflow : Workflow} {node : Node} {context : Context}
    (hk : Kindred a b trail (w.accepting x node button) v') (hw : Forgetful w)
    (hr : Continuation.Resumable mapping button data workflow x node context w)
    (hf : (Store.Executions.place x.id).Fits) (hb : Number.inRange x.durationMs = true) (hl : HasLogs w.storage x.id logs)
    (message : String) (start : Int) :
    ∃ y rows extra now result u u',
      run (Continuation.goOnOrFail message workflow x node button context start) (w.accepting x node button) = (result, u) ∧
      run (Continuation.goOnOrFail message workflow x node button context start) v' = (result, u') ∧
      y.id = x.id ∧ y.workflowId = x.workflowId ∧ HasRecord u.storage y.id y ∧
      HasLogs u.storage y.id (logs ++ (rows ++ extra)) ∧ (∀ row ∈ rows, row.Closed y.id) ∧
      (∀ row ∈ extra, row.isOfNode = false) ∧
      Kindred a b (trail ++ rows.flatMap NodeLog.notices ++
        [.concluded y.id y.workflowId y.status y.errorMessage now]) u u' := by
  have hx : HasRecord (w.accepting x node button).storage x.id x := hw.orderly.hasRecord_of_ready hr.toReady
  have hfluent : Fluent ⟨w.accepting x node button, .start x.id workflow context⟩ logs :=
    Continuation.fluent_resumed hw hk.steady hk.heard hr hf hl none
  have htelling : Telling a b trail x logs [] (.start x.id workflow context) (w.accepting x node button) v' :=
    ⟨by simpa using hk, rfl, hx, by simpa using hfluent, fun _ hm => by cases hm⟩
  generalize w.accepting x node button = v at htelling ⊢
  unfold Continuation.goOnOrFail Continuation.goOn
  rw [run_bind_ok (run_attempt _ _), run_bind_ok (run_attempt _ _)]
  obtain ⟨result, s, rows, u, u', hres, hres', ht, hs⟩ := htelling.resume node
  cases result with
  | error fault =>
    obtain ⟨duration, hd, hd'⟩ := ht.kindred.totalDuration hb start
    let failure : ResumeFailure := ⟨.interrupted fault.message, x.id, some node.id⟩
    let event : Effect := .event ⟨"continuation", .error, failure.message, [], true⟩
    obtain ⟨session, t, t', hfin, hfin', hwrote, ht'⟩ :=
      (ht.kindred.said (show event.request? = none from rfl)).finishExecution ht.record hf .failed
        (some failure.message) duration
    have hlog (v : World) : run (Engine.logFault "continuation" failure.message) v =
      (.ok (), { v with trace := v.trace ++ [event] }) := rfl
    rw [run_bind_error hres, run_bind_error hres']
    refine ⟨x.ended .failed (some failure.message) duration u.clock.stamp, rows, [], u.clock.stamp, .error (.stalled failure),
      t, t', ?_, ?_, rfl, rfl, hwrote.read_self, ?_, ht.closed, (fun _ hm => by cases hm), ht'⟩
    · exact (run_bind_ok hd).trans <| (run_bind_ok (hlog u)).trans (run_bind_ok hfin)
    · exact (run_bind_ok hd').trans <| (run_bind_ok (hlog u')).trans (run_bind_ok hfin')
    · show HasLogs t.storage x.id (logs ++ (rows ++ []))
      rw [List.append_nil, HasLogs, hwrote.read_ne (executions_ne_nodeLogs _ _).symm]
      exact ht.execution ▸ ht.fluent.rows
  | ok p =>
    obtain ⟨routing, s⟩ := p
    obtain rfl := hs _ rfl
    obtain ⟨t, extra, v₁, v₁', hn, hn', hid, hx₁, hl₁, hextra, hk₁⟩ := ht.noteUnrouted message node button routing
    obtain ⟨duration, hd, hd'⟩ := hk₁.totalDuration hb start
    obtain ⟨u₁, u₁', hfin, hfin', hwrote, hu⟩ := hk₁.finalize hx₁ hid hf duration
    have hgo {v u v₁ u₁ : World}
        (hres : run (Invocation.resume workflow x.id node context x.errorMessage) v = (.ok (routing, s), u))
        (hn : run (Continuation.noteUnrouted message x node button routing s) u = (.ok t, v₁))
        (hd : run (Continuation.totalDuration x start) v₁ = (.ok duration, v₁))
        (hfin : run (Invocation.finalize t duration) v₁ = (.ok t.answer, u₁)) :
        run (Continuation.goOn message workflow x node button context start) v = (.ok t.answer, u₁) :=
      (run_bind_ok hres).trans <| (run_bind_ok hn).trans <| (run_bind_ok hd).trans hfin
    have hgone := hgo hres hn hd hfin
    have hgone' := hgo hres' hn' hd' hfin'
    unfold Continuation.goOn at hgone hgone'
    rw [hgone, hgone']
    refine ⟨x.ended t.status t.error duration v₁.clock.stamp, rows, extra, v₁.clock.stamp, .ok t.answer, u₁, u₁',
      rfl, rfl, rfl, rfl, hwrote.read_self, ?_, ht.closed, hextra, hu⟩
    show HasLogs u₁.storage x.id (logs ++ (rows ++ extra))
    rw [← List.append_assoc, HasLogs, hwrote.read_ne (executions_ne_nodeLogs _ _).symm]
    exact hl₁

end WorkGraph
