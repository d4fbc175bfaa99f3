import WorkGraph.Proofs.FirstError
import WorkGraph.Proofs.Forgotten
import WorkGraph.Proofs.Touches

/-!
# How executions turn out

What an invocation comes to for its execution is a `Report`. It goes by the tree of the invocation alone, and what is on
record of the execution in the end is what the report tells after the failures that were there before
(`Invocation.execute_holds`, `Continuation.goOnOrFail_ends`): the execution runs as long as a node waits for a click, and
else it has failed if there was a failure in this invocation or an earlier one, the first of which is its error. A click
that is interrupted before it is routed leaves an error of its own in place of that.
-/

namespace WorkGraph

open Engine Running

/-! ## Reports -/

/-- What an invocation came to for its execution. -/
structure Report where
  execution : String
  /-- The failures in it, in the order in which they were noted. -/
  failures : List String
  /-- Whether a node came to wait for a click. -/
  suspends : Bool
  /-- The error of a click that was interrupted before it was routed. -/
  interrupted : Option String

namespace Report

/-- The status and the error that an invocation leaves, where there were failures before. -/
def outcome (earlier : List String) (r : Report) : RunStatus × Option String :=
  match r.interrupted with
  | some message => (.failed, some message)
  | none => (.ending r.suspends (earlier ++ r.failures), (earlier ++ r.failures).head?)

/-- The status and the error that the invocations of an execution leave. -/
def told (reports : List Report) : RunStatus × Option String :=
  reports.getLast?.elim (.running, none) (outcome (reports.dropLast.flatMap Report.failures))

variable {reports : List Report} {r : Report}

theorem told_append (reports : List Report) (r : Report) :
    told (reports ++ [r]) = r.outcome (reports.flatMap Report.failures) := by
  simp [told]

/-- Of the failures before it is only the first that counts. -/
theorem outcome_head? (earlier : List String) (r : Report) : r.outcome earlier.head?.toList = r.outcome earlier := by
  cases earlier with
  | nil => rfl
  | cons message rest =>
    unfold outcome RunStatus.ending
    cases r.interrupted <;> rfl

/-- An execution that still runs was not interrupted, so that its error is its first failure. -/
theorem error_of_running {error : Option String} (h : told reports = (.running, error)) :
    error = (reports.flatMap Report.failures).head? := by
  rcases List.eq_nil_or_concat reports with rfl | ⟨before, last, rfl⟩
  · exact (Prod.mk.inj h).2.symm
  · rw [List.concat_eq_append, told_append, outcome] at h
    cases hi : last.interrupted with
    | some message =>
      rw [hi] at h
      cases (Prod.mk.inj h).1
    | none =>
      rw [hi] at h
      rw [List.concat_eq_append, List.flatMap_append, List.flatMap_singleton]
      exact (Prod.mk.inj h).2.symm

/-- The first failure stays the error, unless a click is interrupted. -/
theorem told_kept {more : List Report} {message : String} (h : told reports = (.running, some message)) :
    (told (reports ++ more)).2 = some message ∨ ∃ r ∈ more, r.interrupted.isSome = true := by
  rcases List.eq_nil_or_concat more with rfl | ⟨before, last, rfl⟩
  · rw [List.append_nil, h]
    exact .inl rfl
  · rw [List.concat_eq_append, ← List.append_assoc, told_append, outcome]
    cases hi : last.interrupted with
    | some _ => exact .inr ⟨last, by simp, by rw [hi]; rfl⟩
    | none =>
      refine .inl ?_
      rw [List.flatMap_append, List.append_assoc, List.head?_append, ← error_of_running h]
      rfl

/-- Where there is no error, there was none before. -/
theorem earlier_eq_nil {earlier : List String} {status : RunStatus} (h : r.outcome earlier = (status, none)) :
    earlier = [] := by
  unfold outcome at h
  cases hi : r.interrupted with
  | some message => rw [hi] at h; cases (Prod.mk.inj h).2
  | none =>
    rw [hi] at h
    exact (List.append_eq_nil_iff.1 (List.head?_eq_none_iff.1 (Prod.mk.inj h).2)).1

end Report

/-- What an execution that starts comes to; nothing if it does not start. -/
def Invocation.report (W : Workflow) (payload : Value) (w : World) : Option Report :=
  match Engine.run (opening W payload) w with
  | (.ok r, u) => some ⟨w.nextExecution, failures ⟨u, r⟩, suspends ⟨u, r⟩, none⟩
  | (.error _, _) => none

/-- The run of an execution that goes on. -/
def Run.resumed (execution : String) (workflow : Workflow) (context : Context) (prior : Option String) : Run :=
  (prior.filter (· != "")).elim (.start execution workflow context) (Run.start execution workflow context).recordFailure

/-- It starts, but for the failure that it may have had before. -/
theorem Run.resumed_eq (execution : String) (workflow : Workflow) (context : Context) (prior : Option String) :
    ∃ failed firstError, resumed execution workflow context prior =
      { start execution workflow context with failed, firstError } := by
  unfold resumed
  cases prior.filter (· != "") <;> exact ⟨_, _, rfl⟩

theorem Run.context_resumed (execution : String) (workflow : Workflow) (context : Context) (prior : Option String) :
    (resumed execution workflow context prior).context = context := by
  obtain ⟨_, _, h⟩ := resumed_eq execution workflow context prior
  rw [h]
  rfl

namespace Continuation

/-- What is behind the button that was clicked. -/
def behind (node : Node) (output : Value) (p : Progress) : List Branch :=
  Dispatch.behind Dispatch.tree dispatch (some .buttonClick) node output (p.run.graph.links node.id) p

/-- What a click comes to that goes on. -/
def report (workflow : Workflow) (x : Execution) (node : Node) (button : Value) (context : Context) (w : World) : Report :=
  let r := Run.resumed x.id workflow context x.errorMessage
  let output := context.output node.id
  match Router.claims w.config.buttonTools node output .buttonClick with
  | .error fault => ⟨x.id, [], false, some (ResumeFailure.message ⟨.interrupted fault.message, x.id, some node.id⟩)⟩
  | .ok false => ⟨x.id, [unconnected button], false, none⟩
  | .ok true =>
    let kids := behind node output ⟨w, r⟩
    let unrouted := (Routing.selected (some .buttonClick) output (r.graph.links node.id)).isEmpty
    { execution := x.id
      failures := Branch.notedOf kids ++ (kids.findSome? Branch.fall?).toList ++ if unrouted then [unconnected button] else []
      suspends := Branch.suspendsOf kids
      interrupted := none }

theorem execution_report {workflow : Workflow} {x : Execution} {node : Node} {button : Value} {context : Context}
    {w : World} : (report workflow x node button context w).execution = x.id := by
  unfold report
  dsimp only
  split <;> rfl

end Continuation

/-! ## What is on record -/

/-- The id is returned of an execution that has not failed. -/
def Execution.answer (x : Execution) : Option String :=
  if x.status = .failed then none else some x.id

/-- Whether an execution is on record as a report tells after earlier failures, and its log has gone on accordingly. -/
structure Report.Holds (r : Report) (earlier : List String) (logs : List NodeLog) (x : Execution) (w : World) : Prop where
  record : HasRecord w.storage x.id x
  bounded : Number.inRange x.durationMs = true
  told : (x.status, x.errorMessage) = r.outcome earlier
  texted : x.status = .running → x.errorMessage ≠ some ""
  rows : ∃ more, HasLogs w.storage x.id (logs ++ more) ∧ (x.errorMessage = none → ∀ row ∈ more, row.status ≠ .failed)

/-! ## Executions that start -/

/-- An execution that starts is on record as its report tells, and the id is returned unless it has failed. -/
theorem Invocation.execute_holds {w : World} {logs : List NodeLog} (h : Orderly w) (hs : w.Steady) (hh : w.Heard)
    (hf : (Store.Executions.place w.nextExecution).Fits) (hl : HasLogs w.storage w.nextExecution logs) (W : Workflow)
    (payload : Value) : ∃ rep y w', report W payload w = some rep ∧ rep.execution = w.nextExecution ∧
      y.id = w.nextExecution ∧ Engine.run (execute W payload) w = (.ok y.answer, w') ∧ rep.Holds [] logs y w' := by
  obtain ⟨r, u, hopen, y, w', hid, hrun, hconcluded, hrows⟩ := execute_ends h hs hh hf W payload
  obtain ⟨more, hmore, hverdicts⟩ := hrows logs hl
  refine ⟨⟨w.nextExecution, failures ⟨u, r⟩, suspends ⟨u, r⟩, none⟩, y, w', ?_, rfl, hid, hrun, hconcluded.record,
    hconcluded.bounded, Prod.ext hconcluded.status hconcluded.error, fun hrunning hempty => ?_, more, hmore,
    fun hnone row hrow hfailed => ?_⟩
  · unfold report
    rw [hopen]
  · rw [hconcluded.error] at hempty
    rcases tellable ⟨u, r⟩ with htexts | ⟨hno, message, hone⟩
    · exact htexts "" (List.mem_of_mem_head? hempty) rfl
    · rw [hconcluded.status, RunStatus.ending, hno, hone] at hrunning
      cases hrunning
  · rw [hconcluded.error, List.head?_eq_none_iff] at hnone
    exact failures_ne_nil hfailed (hverdicts ▸ List.mem_map_of_mem hrow) hnone

/-- An execution whose record cannot be written does not start. -/
theorem Invocation.execute_refused {w : World} (hs : w.Steady) (hf : ¬(Store.Executions.place w.nextExecution).Fits)
    (W : Workflow) (payload : Value) :
    report W payload w = none ∧ Touches none w (Engine.run (execute W payload) w).2 := by
  rcases Journal.startExecution_cases W.id (Context.start payload).triggerData w with
    ⟨session, w', -, hw⟩ | ⟨-, fault, w', hr, hq⟩
  · exact absurd hw.fits hf
  · have hopen : Engine.run (opening W payload) w = (.error fault, w') := by
      unfold opening
      exact Engine.run_bind_error hr
    have hlaunch : Engine.run (launch W payload) w = (.error fault, w') := by
      rw [launch_eq, Engine.run_bind_error hopen]
    refine ⟨by rw [report, hopen], ?_⟩
    unfold execute
    rw [Engine.run_bind_ok (run_entering_steady hs _), Engine.run_bind_ok (run_reading w), Engine.run_bind_error hlaunch]
    exact (Touches.of_counted w).trans (.of_quiet hq)

/-! ## Clicks that go on -/

namespace Branch

theorem ne_of_noted {bs : List Branch} {message : String}
    (h : message ∈ notedOf bs ++ (bs.findSome? fall?).toList) : message ≠ "" := by
  rw [List.mem_append, Option.mem_toList] at h
  rcases h with h | h
  · exact ne_of_mem_notedOf h
  · obtain ⟨b, -, hb⟩ := List.exists_of_findSome?_eq_some h
    exact ne_of_fall? hb

theorem not_failed_of_noted {bs : List Branch} (h : notedOf bs ++ (bs.findSome? fall?).toList = []) {v : Verdict}
    (hv : v ∈ rowsOf bs) : v.status ≠ .failed := by
  intro hfailed
  obtain ⟨hnoted, hfall⟩ := List.append_eq_nil_iff.1 h
  rcases noted_of_failedOf hfailed hv with ⟨message, hm⟩ | hne
  · rw [hm] at hfall
    cases hfall
  · exact hne hnoted

end Branch

/-- How a click was routed that was not interrupted: what was noted of the nodes behind the button, and the rows that they
left. -/
structure Continuation.Routed (report : Report) (button : Value) (noted : List String) (rows : List Verdict) (p : Progress)
    (routing : Routing) (q : Progress) : Prop where
  interrupted : report.interrupted = none
  went : Went noted report.suspends rows p q
  texts : ∀ message ∈ noted, message ≠ ""
  failures : report.failures = noted ++ if routing.routed then [] else [unconnected button]
  clean : noted = [] → ∀ v ∈ rows, v.status ≠ .failed

namespace Invocation

/-- A run that goes on is interrupted at once, or it is routed, or it has nothing to follow. -/
theorem resume_went {w : World} (workflow : Workflow) (x : Execution) (node : Node) (context : Context) (hs : w.Steady)
    (button : Value) :
    let report := Continuation.report workflow x node button context w
    let r := Run.resumed x.id workflow context x.errorMessage
    let out := Engine.run (resume workflow x.id node context x.errorMessage) w
    (∃ fault, report.interrupted =
        some (ResumeFailure.message ⟨.interrupted fault.message, x.id, some node.id⟩) ∧ out = (.error fault, w)) ∨
    ∃ routing s w' noted rows, out = (.ok (routing, s), w') ∧
      Continuation.Routed report button noted rows ⟨w, r⟩ routing ⟨w', s⟩ := by
  intro report r out
  have hout : out = Engine.run (resume workflow x.id node context x.errorMessage) w := rfl
  unfold resume at hout
  rw [run_bind_ok (run_entering_steady hs _), run_bind_ok (run_config w), ← Run.resumed] at hout
  have hreport : report = Continuation.report workflow x node button context w := rfl
  unfold Continuation.report at hreport
  dsimp only at hreport
  rw [hout]
  cases hclaims : Router.claims w.config.buttonTools node (context.output node.id) .buttonClick with
  | error fault =>
    rw [hclaims] at hreport
    rw [run_ofExcept_bind_error rfl, hreport]
    exact .inl ⟨fault, rfl, rfl⟩
  | ok claimed =>
    rw [hclaims] at hreport
    rw [run_ofExcept_bind rfl]
    cases claimed with
    | false =>
      rw [hreport]
      exact .inr ⟨Routing.nowhere, r, w, [], [], rfl, rfl, .refl _, by simp, rfl, by simp⟩
    | true =>
      rw [hreport]
      dsimp only
      obtain ⟨entries, hmap, hget⟩ := Router.output_of_claims hclaims
      have ho : r.context.outputs.get? node.id = some (context.output node.id) := by
        rw [Run.context_resumed, hmap]
        exact hget
      obtain ⟨routing, ⟨w', s⟩, hgo, herror, hsuspend, hrouted, hwent⟩ :=
        Routing.along_went Dispatch.tree_tells (p := ⟨w, r⟩) (r.graph.links node.id) (some .buttonClick) ho
      have hwaits : Routing.suspends (some .buttonClick) (context.output node.id) (r.graph.links node.id) = false := by
        rw [hmap]
        rfl
      let kids := Continuation.behind node (context.output node.id) ⟨w, r⟩
      refine .inr ⟨routing, routing.noteIn s, w', Branch.notedOf kids ++ (kids.findSome? Branch.fall?).toList,
        Branch.rowsOf kids, ?_, rfl, ?_, fun _ => Branch.ne_of_noted, ?_, fun hnone _ => Branch.not_failed_of_noted hnone⟩
      · rw [Bool.not_true, if_neg Bool.false_ne_true, run_bind_ok (run_onRun r _ w), hgo]
        rfl
      · have hnote := hwent.trans (.noteIn routing w' s)
        rw [herror, hsuspend, hwaits, Bool.or_false, List.append_nil] at hnote
        exact hnote
      · rw [hrouted rfl]
        cases (Routing.selected (some .buttonClick) (context.output node.id) (r.graph.links node.id)).isEmpty <;> rfl

end Invocation

/-- A click that led nowhere is noted in a log that can be written. -/
theorem Journal.routingFailed_wrote {execution : String} {w : World} {logs : List NodeLog} (ha : Audible execution w)
    (hf : (Store.NodeLogs.place execution).Fits) (hl : HasLogs w.storage execution logs) (node message : String)
    (details : Entries Value) :
    let row := NodeLog.unrouted execution (logs.length + 1) node message details w.clock.stamp
    ∃ w', run (routingFailed execution node message details) w = (.ok row, w') ∧
      Wrote (Store.NodeLogs.place execution) (.list ((logs ++ [row]).map NodeLog.toValue)) w w' := by
  intro row
  have hp := routingFailed_posted hl node message details
  rcases hr : run (routingFailed execution node message details) w with ⟨result, w'⟩
  rw [hr] at hp
  cases hp with
  | done hw => exact ⟨w', rfl, hw⟩
  | unheard hno _ => exact absurd trivial hno
  | lost hno _ => exact absurd ⟨ha.steady, hf⟩ hno

namespace Continuation

variable {mapping : ButtonMapping} {button data : Value} {workflow : Workflow} {x : Execution} {node : Node}
  {context : Context} {w : World} {logs : List NodeLog}

theorem unconnected_ne (button : Value) : unconnected button ≠ "" := by
  unfold unconnected
  rw [Ne, String.append_eq_empty_iff, String.append_eq_empty_iff]
  exact fun h => absurd h.1.1 (by decide)

namespace Routed

variable {r : Report} {noted : List String} {rows : List Verdict} {p q : Progress} {routing : Routing}

theorem ne_of_mem_failures (h : Routed r button noted rows p routing q) {message : String} (hm : message ∈ r.failures) :
    message ≠ "" := by
  rw [h.failures, List.mem_append] at hm
  rcases hm with hm | hm
  · exact h.texts message hm
  · cases hrouted : routing.routed <;> rw [hrouted] at hm
    · exact List.mem_singleton.1 hm ▸ unconnected_ne button
    · cases hm

/-- Where there was no failure, the click was routed, and no row tells of one. -/
theorem routed_of_failures (h : Routed r button noted rows p routing q) (hnone : r.failures = []) :
    routing.routed = true ∧ ∀ v ∈ rows, v.status ≠ .failed := by
  rw [h.failures, List.append_eq_nil_iff] at hnone
  refine ⟨?_, h.clean hnone.1⟩
  cases hrouted : routing.routed with
  | true => rfl
  | false =>
    rw [hrouted] at hnone
    cases hnone.2

end Routed

/-- A click that was not routed is a failure, and has a row of its own. -/
theorem noteUnrouted_went {r : Run} (h : Fluent ⟨w, r⟩ logs) (hx : r.execution = x.id) (message : String)
    (node : Node) (button : Value) (routing : Routing) :
    ∃ s w' rows, run (noteUnrouted message x node button routing r) w = (.ok s, w') ∧
      Went (if routing.routed then [] else [unconnected button]) false rows ⟨w, r⟩ ⟨w', s⟩ ∧
      (routing.routed = true → rows = []) := by
  unfold noteUnrouted
  cases hrouted : routing.routed with
  | true => exact ⟨r, w, [], rfl, .refl _, fun _ => rfl⟩
  | false =>
    let details : Entries Value := [("message_id", .str message), ("button_id", button),
      ("available_handles", Routing.outletList (r.graph.links node.id))]
    have hposted {logs : List NodeLog} (h : Fluent ⟨w, r⟩ logs) :=
      Journal.routingFailed_wrote (hx ▸ h.audible) (hx ▸ h.fits) (hx ▸ h.rows) node.id (unconnected button) details
    obtain ⟨w', hr, -⟩ := hposted h
    rw [if_neg Bool.false_ne_true, run_bind_ok hr, if_neg Bool.false_ne_true]
    refine ⟨r.recordFailure (unconnected button), w', [⟨node.id ++ "_button_continuation", .failed, some (unconnected button)⟩],
      rfl, ?_, fun hno => by cases hno⟩
    have hrow : Went [] false [⟨node.id ++ "_button_continuation", .failed, some (unconnected button)⟩] ⟨w, r⟩ ⟨w', r⟩ := by
      refine .of_run rfl fun logs' hl => ⟨[.unrouted x.id (logs'.length + 1) node.id (unconnected button) details w.clock.stamp],
        ?_, rfl⟩
      obtain ⟨v, hv, hw⟩ := hposted hl
      obtain rfl : v = w' := congrArg Prod.snd (hv.symm.trans hr)
      refine ⟨?_, hl.fits, hx ▸ hw.hasLogs, hl.counted.append rfl, hl.dispatched⟩
      exact hl.audible.wrote hw (hx ▸ executions_ne_nodeLogs _ _)
    exact hrow.trans (.noteIn ⟨false, some (unconnected button), false⟩ w' r)

/-- The time that was spent on an execution can be told as long as it could before. -/
theorem run_totalDuration (hb : Number.inRange x.durationMs = true) (start : Int) (w : World) :
    ∃ duration, run (totalDuration x start) w = (.ok duration, w) ∧ Number.inRange duration = true := by
  unfold totalDuration
  rw [run_bind_ok (run_since start w)]
  unfold Span.after? Number.doubleOfInt?
  rw [hb]
  exact ⟨_, rfl, Span.inRange_bounded _⟩

/-- The context of a click that goes on is that of a run to which nothing is refused. -/
theorem fluent_resumed (h : Forgetful w) (hs : w.Steady) (hh : w.Heard)
    (hr : Resumable mapping button data workflow x node context w) (hf : (Store.Executions.place x.id).Fits)
    (hl : HasLogs w.storage x.id logs) (prior : Option String) :
    Fluent ⟨w.accepting x node button, .resumed x.id workflow context prior⟩ logs := by
  have hrecord := h.orderly.hasRecord_of_ready hr.toReady
  obtain ⟨rebuilt, fields, hreplay, -, rfl⟩ := hr.restored logs hl
  have hcounted : Counted logs := by
    rcases h.orderly.logs_cases x.id with ⟨logs', hl', hc, -⟩ | hno
    · exact hl.unique hl' ▸ hc
    · exact absurd hl (hno _)
  have hstart : Fluent ⟨w.accepting x node button, .start x.id workflow (rebuilt.spliceButton node.id fields)⟩ logs := by
    refine ⟨⟨hs, hh, x, hrecord⟩, fits_nodeLogs hf, hl, hcounted, fun n hn => ?_⟩
    show rebuilt.isCompleted n = true
    by_cases hne : n = node.id
    · -- the message waits behind a row of its node
      have hid : mapping.executionId = x.id := (h.orderly.id_of_ready hr.toReady).2.symm
      have hnode : mapping.nodeId = node.id := by
        have hfound := List.find?_some hr.found
        exact (beq_iff_eq.1 hfound).symm
      have hwaits := h.listed mapping hr.listed logs (hid ▸ hl)
      exact (Context.isCompleted_foldlM_replayLog hreplay n).2 (.inr (hne ▸ hnode ▸ hwaits.attempted))
    · refine Context.isCompleted_of_replay hreplay (Eq.trans ?_ hn)
      show (rebuilt.outputs.get? n).isSome = ((rebuilt.outputs.set node.id _).get? n).isSome
      rw [Entries.get?_set_ne _ _ hne]
  refine hstart.rerun ?_ (Run.context_resumed _ _ _ _)
  unfold Run.resumed
  cases prior.filter (· != "") <;> rfl

/-- The error that was there before is the first. -/
theorem went_resumed (execution : String) (workflow : Workflow) (context : Context) {prior : Option String}
    (he : prior ≠ some "") (w : World) :
    Went prior.toList false [] ⟨w, .start execution workflow context⟩ ⟨w, .resumed execution workflow context prior⟩ := by
  cases prior with
  | none => exact .refl _
  | some message =>
    have hne : (message != "") = true := bne_iff_ne.2 fun hm => he (congrArg some hm)
    rw [Run.resumed, Option.filter_some_pos (p := (· != "")) hne]
    exact .noteIn ⟨false, some message, false⟩ w (.start execution workflow context)

section Resumable

variable (h : Forgetful w) (hs : w.Steady) (hh : w.Heard)
  (hr : Resumable mapping button data workflow x node context w) (hf : (Store.Executions.place x.id).Fits)
  (hb : Number.inRange x.durationMs = true) (hl : HasLogs w.storage x.id logs)

include h hs hh hr hf hb hl

/-- An execution in which a click was interrupted has failed with the error of that. -/
theorem goOnOrFail_interrupted {fault : Fault} (message : String) (start : Int)
    (hres : run (Invocation.resume workflow x.id node context x.errorMessage) (w.accepting x node button) =
      (.error fault, w.accepting x node button))
    (hi : (report workflow x node button context (w.accepting x node button)).interrupted =
      some (ResumeFailure.message ⟨.interrupted fault.message, x.id, some node.id⟩)) :
    ∃ failure y w', run (goOnOrFail message workflow x node button context start) (w.accepting x node button) =
        (.error (.stalled failure), w') ∧ y.id = x.id ∧ y.answer = none ∧
      (report workflow x node button context (w.accepting x node button)).Holds x.errorMessage.toList logs y w' := by
  have hrecord : HasRecord (w.accepting x node button).storage x.id x := h.orderly.hasRecord_of_ready hr.toReady
  obtain ⟨duration, hduration, hrange⟩ := run_totalDuration hb start (w.accepting x node button)
  unfold goOnOrFail goOn
  rw [run_bind_ok (run_attempt _ _), run_bind_error hres]
  dsimp only
  rw [run_bind_ok hduration]
  let failure : ResumeFailure := ⟨.interrupted fault.message, x.id, some node.id⟩
  have hlog : Quiet (w.accepting x node button)
    (run (Engine.logFault "continuation" failure.message) (w.accepting x node button)).2 := hushed_logFault _ _ _
  rw [run_bind_of_fst (a := ()) rfl]
  generalize (run (Engine.logFault "continuation" failure.message) (w.accepting x node button)).2 = u at hlog
  have hend := Journal.finishExecution_assured (hlog.hasRecord hrecord) (.inr ⟨hlog.steady hs, hlog.heard hh⟩) .failed
    (some failure.message) duration
  rcases hfinish : run (Journal.finishExecution x.id .failed (.str failure.message) duration) u with ⟨result, w'⟩
  rw [show Value.ofText? (some failure.message) = .str failure.message from rfl, hfinish] at hend
  cases hend with
  | done hw =>
    rw [run_bind_ok hfinish]
    refine ⟨failure, x.ended .failed (some failure.message) duration u.clock.stamp, w', rfl, rfl, rfl,
      hw.read_self, hrange, ?_, (fun hno => by cases hno), [], ?_, fun _ row hrow => absurd hrow List.not_mem_nil⟩
    · rw [Report.outcome, hi]
      rfl
    · rw [List.append_nil, HasLogs, hw.read_ne (executions_ne_nodeLogs _ _).symm, hlog.storage]
      exact hl
  | unheard hno _ => exact absurd trivial hno
  | lost hno _ => exact absurd ⟨hlog.steady hs, hf⟩ hno

/-- An execution whose click was routed, or could not be, goes on with the error that was there. -/
theorem goOn_ends {routing : Routing} {s : Run} {w₁ : World} {noted : List String} {rows : List Verdict}
    (he : x.errorMessage ≠ some "") (message : String) (start : Int)
    (hres : run (Invocation.resume workflow x.id node context x.errorMessage) (w.accepting x node button) =
      (.ok (routing, s), w₁))
    (hroute : Routed (report workflow x node button context (w.accepting x node button)) button noted rows
      ⟨w.accepting x node button, .resumed x.id workflow context x.errorMessage⟩ routing ⟨w₁, s⟩) :
    ∃ y w', run (goOn message workflow x node button context start) (w.accepting x node button) = (.ok y.answer, w') ∧
      y.id = x.id ∧
      (report workflow x node button context (w.accepting x node button)).Holds x.errorMessage.toList logs y w' := by
  have hrecord : HasRecord (w.accepting x node button).storage x.id x := h.orderly.hasRecord_of_ready hr.toReady
  generalize report workflow x node button context (w.accepting x node button) = report at hroute ⊢
  have hwent := hroute.went
  obtain ⟨r, ⟨htracks, -, hconfined⟩, -⟩ :=
    (stable_confined x.id (w.accepting x node button)).resumed x.errorMessage
      ⟨h.orderly.tracks_of_resumable hr, rfl, .refl _⟩
  rw [hres] at htracks hconfined
  have hprior := went_resumed x.id workflow context he (w.accepting x node button)
  have hexecution : s.execution = x.id := (hprior.trans hwent).execution
  obtain ⟨more, hfluent₁, hmore⟩ := hwent.rows logs (fluent_resumed h hs hh hr hf hl x.errorMessage)
  obtain ⟨t, w₂, others, hnoted, hwent₂, hothers⟩ := noteUnrouted_went hfluent₁ hexecution message node button routing
  obtain ⟨more₂, hfluent₂, hmore₂⟩ := hwent₂.rows _ hfluent₁
  have hconfined₂ := hconfined.trans (noteUnrouted_confined htracks.orderly message x node button routing s)
  rw [hnoted] at hconfined₂
  change Confined x.id (w.accepting x node button) w₂ at hconfined₂
  obtain ⟨duration, hduration, hrange⟩ := run_totalDuration hb start w₂
  -- the error that was there, then what happened behind the button, then the click itself if it led nowhere
  have hall := hprior.trans (hwent.trans hwent₂)
  rw [← hroute.failures, Bool.or_false, Bool.false_or, List.nil_append] at hall
  have ht : t.execution = x.id := hall.execution
  have htold : ∀ m ∈ x.errorMessage.toList ++ report.failures, m ≠ "" := by
    intro m hm
    rcases List.mem_append.1 hm with hm | hm
    · exact fun hempty => he (hempty ▸ Option.mem_toList.1 hm)
    · exact hroute.ne_of_mem_failures hm
  obtain ⟨y, w', hfinal, hy, hconcluded, hw⟩ := Invocation.finalize_concluded (ht ▸ hconfined₂.hasRecord hrecord)
    ht.symm (hconfined₂.steady hs) (World.Heard.of_service (w := w) hh hconfined₂.service) (ht ▸ hf)
    (hall.status rfl rfl) (hall.error (.inl htold) rfl rfl rfl) hrange
  have hyx : y.id = x.id := hy.trans ht
  unfold goOn
  rw [run_bind_ok hres]
  dsimp only
  rw [run_bind_ok hnoted, run_bind_ok hduration, hfinal]
  refine ⟨y, w', rfl, hyx, hconcluded.record, hconcluded.bounded, ?_, fun _ hempty => ?_, more ++ more₂, ?_,
    fun hnone row hrow => ?_⟩
  · rw [Report.outcome, hroute.interrupted, hconcluded.status, hconcluded.error]
  · rw [hconcluded.error] at hempty
    exact htold "" (List.mem_of_mem_head? hempty) rfl
  · rw [HasLogs, hw.read_ne (executions_ne_nodeLogs _ _).symm, ← List.append_assoc, hy]
    exact hfluent₂.rows
  · rw [hconcluded.error, List.head?_eq_none_iff, List.append_eq_nil_iff] at hnone
    obtain ⟨hrouted, hclean⟩ := hroute.routed_of_failures hnone.2
    rw [hothers hrouted, List.map_eq_nil_iff] at hmore₂
    rw [hmore₂, List.append_nil] at hrow
    exact hclean row.verdict (hmore ▸ List.mem_map_of_mem hrow)

/-- What comes of a click that goes on is on record as its report tells, after the error that was there. The id is returned
of an execution that has not failed, and a click that was interrupted has failed. -/
theorem goOnOrFail_ends (he : x.errorMessage ≠ some "") (message : String) (start : Int) :
    ∃ result y w', run (goOnOrFail message workflow x node button context start) (w.accepting x node button) = (result, w') ∧
      y.id = x.id ∧ (result = .ok y.answer ∨ y.answer = none ∧ ∃ failure, result = .error (.stalled failure)) ∧
      (report workflow x node button context (w.accepting x node button)).Holds x.errorMessage.toList logs y w' := by
  rcases Invocation.resume_went workflow x node context (w := w.accepting x node button) hs button with
    ⟨fault, hi, hres⟩ | ⟨routing, s, w₁, noted, rows, hres, hroute⟩
  · obtain ⟨failure, y, w', hrun, hid, hanswer, hholds⟩ :=
      goOnOrFail_interrupted h hs hh hr hf hb hl message start hres hi
    exact ⟨_, y, w', hrun, hid, .inr ⟨hanswer, failure, rfl⟩, hholds⟩
  · obtain ⟨y, w', hrun, hid, hholds⟩ :=
      goOn_ends h hs hh hr hf hb hl he message start hres hroute
    refine ⟨.ok y.answer, y, w', ?_, hid, .inl rfl, hholds⟩
    unfold goOnOrFail
    rw [run_bind_ok (run_attempt _ _), hrun]
    rfl

end Resumable

end Continuation

end WorkGraph
