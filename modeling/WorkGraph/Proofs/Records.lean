import WorkGraph.Proofs.Apart

/-!
# The record of an execution

An invocation writes the record of its execution when it starts and once more when it ends, and no other record. Between,
everything that it does is confined to its execution (`Confined`, `stable_confined`). How it ends is decided by what its
run has noted (`Run.status`, `Run.error`, `Run.answer`), and where no report to an audit service can fail, an end that was
written is final: nothing fails behind it (`finalize_posted`). `Invocation.execute_cases` and
`Continuation.goOnOrFail_cases` put this together for the two ways of working on an execution.
-/

namespace WorkGraph

open Engine

/-! ## Worlds in which no report fails -/

/-- Whether there is no audit service. -/
def World.Unaudited (w : World) : Prop :=
  w.auditor = none

section Unaudited

variable {w w' : World}

theorem World.Unaudited.of_service (h : w.Unaudited)
    (hs : w'.auditor.map Auditor.service = w.auditor.map Auditor.service) : w'.Unaudited := by
  rw [World.Unaudited] at h ⊢
  rw [h] at hs
  cases ha : w'.auditor with
  | none => rfl
  | some a => rw [ha] at hs; cases hs

theorem World.Unaudited.quiet (h : w.Unaudited) (hq : Quiet w w') : w'.Unaudited :=
  h.of_service hq.auditor

theorem World.Unaudited.wrote {place : Location} {v : Value} (h : w.Unaudited) (hw : Wrote place v w w') : w'.Unaudited :=
  h.of_service hw.service

theorem World.Unaudited.heard (h : w.Unaudited) : w.Heard := by
  intro a ha
  rw [World.Unaudited.eq_1] at h
  rw [h] at ha
  cases ha

/-- Nothing is reported. -/
theorem Journal.run_audited (h : w.Unaudited) (act : Engine Unit) : run (audited act) w = (.ok (), w) := by
  unfold audited
  rw [run_get_bind, show w.auditor = none from h]
  rfl

/-- Whether no report can fail: there is no audit service, or else it is sound and no injected fault waits. -/
def World.Assured (w : World) : Prop :=
  w.Unaudited ∨ w.Steady ∧ w.Heard

theorem World.Assured.of_service (h : w.Assured) (hs : w.Steady → w'.Steady)
    (ha : w'.auditor.map Auditor.service = w.auditor.map Auditor.service) : w'.Assured :=
  h.imp (·.of_service ha) fun h => ⟨hs h.1, h.2.of_service ha⟩

theorem World.Assured.quiet (h : w.Assured) (hq : Quiet w w') : w'.Assured :=
  h.of_service hq.steady hq.auditor

/-- What comes of an invocation is written to the record, and nothing fails behind that. -/
theorem Journal.finishExecution_assured {id : String} {x : Execution} (h : HasRecord w.storage id x) (hu : w.Assured)
    (status : RunStatus) (error : Option String) (duration : Int) :
    let y := x.ended status error duration w.clock.stamp
    Posted (Store.Executions.place id) y.toValue y True w
      (run (finishExecution id status (Value.ofText? error) duration) w) := by
  intro y
  rcases hu with hu | ⟨hsteady, hheard⟩
  · unfold finishExecution
    rw [run_bind_ok (run_stamp w)]
    have hf : Store.unnamed ["self", "execution_id"]
        (Execution.ending status (Value.ofText? error) duration w.clock.stamp) = .ok () := by
      cases status <;> rfl
    have hw := Store.Executions.update_posted h hf (Execution.load_ended _ x status error duration w.clock.stamp)
    refine hw.reporting ?_ fun w' hw' => .inl ?_
    · exact hushed_bind (hushed_log (by decide)) fun _ =>
        hushed_bind (hushed_report fun _ => Audit.hushed_append _ _ _) fun _ => hushed_pure _
    · have hlog : Quiet w' (run (Engine.log (if status == .failed then .warning else .info) "recorder"
          "execution_finished" [("execution_id", .str id), ("status", .str y.status.name),
            ("duration_ms", .int y.durationMs), ("error_message", Value.ofText? error)]) w').2 := hushed_log (by decide) w'
      exact congrArg Prod.fst (run_bind_ok (run_audited ((hu.wrote hw').quiet hlog) _))
  · have hp := finishExecution_posted h status error duration
    rcases hr : run (finishExecution id status (Value.ofText? error) duration) w with ⟨result, w'⟩
    rw [hr] at hp
    cases hp with
    | done hw => exact .done hw
    | unheard hno _ => exact absurd ⟨hsteady, hheard, x, h⟩ hno
    | lost hno hq => exact .lost hno hq

end Unaudited

/-! ## How an invocation ends -/

namespace Run

/-- The status that a run leaves. -/
def status (r : Run) : RunStatus :=
  if r.suspended then .running else if r.failed then .failed else .success

/-- The error that a run leaves. -/
def error (r : Run) : Option String :=
  if r.suspended then if r.firstError == "" then none else some r.firstError
  else if r.failed then some r.firstError else none

/-- What is returned of a run. -/
def answer (r : Run) : Option String :=
  if r.status = .failed then none else some r.execution

end Run

/-- What is written of a run is what it has noted. -/
theorem Invocation.finalize_eq (r : Run) (duration : Int) :
    finalize r duration = do
      Engine.entering .finalize
      let _ ← Journal.finishExecution r.execution r.status (Value.ofText? r.error) duration
      return r.answer := by
  unfold finalize Run.answer Run.status Run.error
  cases r.suspended with
  | true => cases hf : r.firstError == "" <;> simp [Value.ofText?]
  | false => cases r.failed <;> simp [Value.ofText?]

/-- What a run has noted is written to the record of its execution, or nothing is. -/
theorem Invocation.finalize_posted {w : World} {r : Run} {x : Execution} (h : HasRecord w.storage r.execution x)
    (hu : w.Assured) (duration : Int) :
    Posted (Store.Executions.place r.execution) (x.ended r.status r.error duration w.clock.stamp).toValue r.answer True w
      (run (finalize r duration) w) := by
  rw [finalize_eq]
  refine .entering _ fun u hq => ?_
  rw [← hq.clock]
  exact (Journal.finishExecution_assured (hq.hasRecord h) (hu.quiet hq) r.status r.error duration).returning r.answer

/-! ## What is confined to an execution -/

/-- The calls on behalf of an execution. -/
def World.callsFor (w : World) (execution : String) : List Call :=
  w.calls.filter fun call => call.origin.any (·.execution == execution)

/-- All that has changed is of one execution, and is not its record. -/
structure Confined (execution : String) (w w' : World) : Prop where
  issued : w'.issued = w.issued
  steady : w.Steady → w'.Steady
  service : w'.auditor.map Auditor.service = w.auditor.map Auditor.service
  record : ∀ other, w'.storage.read (Store.Executions.place other) .null =
    w.storage.read (Store.Executions.place other) .null
  rows : ∀ other, (Store.NodeLogs.place other).path ≠ (Store.NodeLogs.place execution).path →
    w'.storage.read (Store.NodeLogs.place other) (.list []) = w.storage.read (Store.NodeLogs.place other) (.list [])
  calls : ∀ other, other ≠ execution → w'.callsFor other = w.callsFor other

namespace Confined

variable {execution : String} {u w w' : World}

theorem trans (h : Confined execution u w) (k : Confined execution w w') : Confined execution u w' where
  issued := k.issued.trans h.issued
  steady := k.steady ∘ h.steady
  service := k.service.trans h.service
  record other := (k.record other).trans (h.record other)
  rows other ho := (k.rows other ho).trans (h.rows other ho)
  calls other ho := (k.calls other ho).trans (h.calls other ho)

theorem of_idle (h : Idle w w') : Confined execution w w' where
  issued := h.issued
  steady := h.steady
  service := h.auditor
  record _ := by rw [h.storage]
  rows _ _ := by rw [h.storage]
  calls _ _ := by rw [World.callsFor, h.calls, World.callsFor]

theorem of_quiet (h : Quiet w w') : Confined execution w w' :=
  of_idle h.idle

theorem refl (w : World) : Confined execution w w :=
  of_quiet (.refl w)

/-- The log of the execution was written. -/
theorem logged {v : Value} (h : Wrote (Store.NodeLogs.place execution) v w w') : Confined execution w w' where
  issued := h.issued
  steady := h.steady
  service := h.service
  record _ := h.read_ne (executions_ne_nodeLogs _ _)
  rows _ ho := h.read_ne ho
  calls _ _ := by rw [World.callsFor, h.calls, World.callsFor]

/-- A node of the execution has run. -/
theorem worked {origin : Origin} {workflow : String} (h : Worked origin workflow w w')
    (ho : origin.execution = execution) : Confined execution w w' where
  issued := h.issued
  steady := h.steady
  service := h.service
  record _ := h.read_ne (executions_ne_mappings _)
  rows _ _ := h.read_ne (nodeLogs_ne_mappings _)
  calls other hne := by
    rcases h.calls with hc | ⟨call, hcall, hc⟩
    · rw [World.callsFor, hc, World.callsFor]
    · rw [World.callsFor, hc, List.filter_append, World.callsFor]
      simp [hcall, ho, Ne.symm hne]

theorem unaudited (h : Confined execution w w') (hu : w.Unaudited) : w'.Unaudited :=
  hu.of_service h.service

theorem assured (h : Confined execution w w') (hu : w.Assured) : w'.Assured :=
  hu.of_service h.steady h.service

theorem hasRecord {other : String} {x : Execution} (h : Confined execution w w') (hx : HasRecord w.storage other x) :
    HasRecord w'.storage other x :=
  (h.record other).trans hx

/-- A click that led nowhere was noted. -/
theorem routed (h : Orderly w) (execution node message : String) (details : Entries Value) :
    Confined execution w (run (Journal.routingFailed execution node message details) w).2 := by
  rcases h.routingFailed_cases execution node message details with
    ⟨logs, row, -, -, -, -, -, -, hp⟩ | ⟨fault, w', hr, hq⟩
  · exact hp.keeps (I := Confined execution w) logged of_quiet
  · rw [hr]
    exact of_quiet hq

end Confined

/-- Every move of a run is confined to its execution. -/
theorem stable_confined (execution : String) (w : World) :
    Stable fun p => Tracks p ∧ p.run.execution = execution ∧ Confined execution w p.world where
  quiet h hq := ⟨stable_tracks.quiet h.1 hq, h.2.1, h.2.2.trans (.of_quiet hq)⟩
  noted failed firstError suspended h := ⟨stable_tracks.noted failed firstError suspended h.1, h.2⟩
  entered node h := ⟨stable_tracks.entered node h.1, h.2⟩
  clicked button title data ho hd h := ⟨stable_tracks.clicked button title data ho hd h.1, h.2⟩
  performed p node hn he hnew h := by
    obtain ⟨htracks, rfl, hconfined⟩ := h
    obtain ⟨c, hc⟩ := Dispatch.run_perform node p
    refine ⟨stable_tracks.performed p node hn he hnew htracks, by rw [hc], hconfined.trans ?_⟩
    exact htracks.perform_induction node .trans .of_quiet .logged (.worked · rfl)

/-! ## Invocations that start -/

/-- What is quiet gives out no id. -/
theorem Quiet.nextExecution {w w' : World} (h : Quiet w w') : w'.nextExecution = w.nextExecution := by
  unfold World.nextExecution
  rw [h.clock, h.issued]

/-- An execution starts, runs, and ends, unless it does not even start. -/
theorem Invocation.execute_cases {w : World} (h : Orderly w) (hu : w.Assured) (W : Workflow) (payload : Value) :
    (∃ fault w', run (execute W payload) w = (.error fault, w') ∧ (w.Steady → w'.Steady) ∧
      w'.auditor.map Auditor.service = w.auditor.map Auditor.service ∧ w.issued ≤ w'.issued ∧ w'.storage = w.storage ∧
      w'.calls = w.calls) ∨
    ∃ w₀ session w₁ u r duration, Quiet w w₀ ∧
      let x := Execution.begun w₀.nextExecution W.id (Context.start payload).triggerData session w₀.clock.stamp
      Wrote (Store.Executions.place x.id) x.toValue { w₀ with issued := w₀.issued + 1 } w₁ ∧
        run (launch W payload) w₀ = (.ok r, u) ∧ r.execution = x.id ∧ Confined x.id w₁ u ∧
        Posted (Store.Executions.place x.id) (x.ended r.status r.error duration u.clock.stamp).toValue r.answer True u
          (run (execute W payload) w) := by
  unfold execute
  obtain ⟨w₀, hq, he | ⟨-, fault, he⟩⟩ := entering_cases .execute w
  · rw [run_bind_ok he, run_bind_ok (run_reading w₀)]
    have htracks := (startExecution_tracks W payload (Context.start payload).triggerData (h.quiet hq)).2
    rcases Journal.startExecution_cases W.id (Context.start payload).triggerData w₀ with
      ⟨session, w₁, hr, hw⟩ | ⟨-, fault, w₁, hr, hq₁⟩
    · have htracks := htracks _ (by rw [hr])
      rw [hr] at htracks
      obtain ⟨r, u, hlaunch, -, hexecution, hconfined⟩ :=
        (stable_confined w₀.nextExecution w₁).launched hr ⟨htracks, rfl, .refl w₁⟩
      have hrecord : HasRecord u.storage w₀.nextExecution _ := hconfined.hasRecord hw.read_self
      have hassured : u.Assured := hconfined.assured (hu.of_service (hw.steady ∘ hq.steady) (hw.service.trans hq.auditor))
      rw [run_bind_ok hlaunch, run_bind_ok (run_since _ u)]
      have hend := finalize_posted (hexecution ▸ hrecord) hassured (u.clock.since w₀.clock.reading).millis
      rw [hexecution] at hend
      exact .inr ⟨w₀, session, w₁, u, r, _, hq, hw, hlaunch, hexecution, hconfined, hend⟩
    · have hlaunch : run (launch W payload) w₀ = (.error fault, w₁) := by
        unfold launch
        exact run_bind_error hr
      rw [run_bind_error hlaunch]
      have hissued : w.issued ≤ w₁.issued := by
        rw [hq₁.issued, ← hq.issued]
        exact Nat.le_succ _
      exact .inl ⟨fault, w₁, rfl, hq₁.steady ∘ hq.steady, hq₁.auditor.trans hq.auditor, hissued,
        hq₁.storage.trans hq.storage, hq₁.calls.trans hq.calls⟩
  · rw [run_bind_error he]
    exact .inl ⟨fault, w₀, rfl, hq.steady, hq.auditor, Nat.le_of_eq hq.issued.symm, hq.storage, hq.calls⟩

/-! ## Invocations that go on -/

/-- A record under its own id has an id that was given out. -/
theorem Orderly.issued_of_hasRecord {w : World} (h : Orderly w) {x : Execution} (hx : HasRecord w.storage x.id x) :
    Issued w.issued x.id := by
  rcases h.record_cases x.id hx with hnull | ⟨W, hW⟩ | ⟨y, hy, hi, -⟩
  · cases hnull
  · exact absurd (hW ▸ Execution.load_toValue "" x) (Execution.load_ne_of_missing rfl x)
  · rw [Execution.toValue_inj hy]
    exact hi

/-- Nothing is on record of the next execution. -/
theorem Orderly.ne_nextExecution {w : World} (h : Orderly w) {x : Execution} (hx : HasRecord w.storage x.id x) :
    x.id ≠ w.nextExecution :=
  fun he => not_issued_nextExecution w (he ▸ h.issued_of_hasRecord hx)

/-- The record of an execution. -/
def Storage.execution? (s : Storage) (id : String) : Option Execution :=
  match s.read (Store.Executions.place id) .null with
  | .ok v => (Execution.load "" v).toOption
  | .error _ => none

/-- What is on record is what is read. -/
theorem Orderly.hasRecord_iff {w : World} (h : Orderly w) (id : String) (x : Execution) :
    HasRecord w.storage id x ↔ w.storage.execution? id = some x := by
  unfold HasRecord Storage.execution?
  constructor
  · intro hx
    rw [hx]
    exact congrArg Except.toOption (Execution.load_toValue "" x)
  · intro hx
    split at hx
    · next v hv =>
      rcases h.record_cases id hv with rfl | ⟨W, rfl⟩ | ⟨y, rfl, -, -⟩
      · cases hx
      · cases hload : Execution.load "" W.toValue with
        | error fault => rw [hload] at hx; cases hx
        | ok y => exact absurd hload (Execution.load_ne_of_missing rfl y)
      · rw [Execution.load_toValue] at hx
        rw [hv, Option.some.inj hx]
    · cases hx

/-- The first execution of a new world. -/
def Sample.execution : String := "exec_20250101_000000_00000001"

/-- An execution that a click can go on with is on record under its own id. -/
theorem Orderly.hasRecord_of_ready {mapping : ButtonMapping} {workflow : Workflow} {x : Execution} {node : Node}
    {w : World} (h : Orderly w) (hr : Continuation.Ready mapping workflow x node w) : HasRecord w.storage x.id x := by
  obtain ⟨-, hid⟩ := h.id_of_ready hr
  obtain ⟨v, now, hv, hx⟩ := hr.recorded
  rw [HasRecord, hid, hv]
  rcases h.record_cases _ hv with rfl | ⟨W, rfl⟩ | ⟨y, rfl, -, -⟩
  · cases hx
  · exact absurd hx (Execution.load_ne_of_missing rfl x)
  · rw [Execution.load_toValue] at hx
    rw [Except.ok.inj hx]

namespace Continuation

variable {mapping : ButtonMapping} {button data : Value} {workflow : Workflow} {x : Execution} {node : Node}
  {context : Context} {w : World}

/-- A click that was not routed is noted in the log of its execution. -/
theorem noteUnrouted_confined (h : Orderly w) (message : String) (x : Execution) (node : Node) (button : Value)
    (routing : Routing) (r : Run) : Confined x.id w (run (noteUnrouted message x node button routing r) w).2 := by
  unfold noteUnrouted
  split
  · exact .refl w
  · rcases hr : run (Journal.routingFailed x.id node.id (unconnected button) _) w with ⟨_ | _, u⟩
    · rw [run_bind_error hr]
      exact (congrArg Prod.snd hr).symm ▸ .routed h _ _ _ _
    · rw [run_bind_ok hr]
      exact (congrArg Prod.snd hr).symm ▸ .routed h _ _ _ _

/-- A run stays one of its execution. -/
theorem execution_of_noteUnrouted {message : String} {routing : Routing} {r s : Run} {w' : World}
    (h : run (noteUnrouted message x node button routing r) w = (.ok s, w')) : s.execution = r.execution := by
  unfold noteUnrouted at h
  split at h
  · rw [← Except.ok.inj (Prod.mk.inj h).1]
  · obtain ⟨_, _, -, h⟩ := eq_ok_of_bind h
    rw [← Except.ok.inj (Prod.mk.inj h).1]
    rfl

/-- What comes of a click that goes on: an end of the execution that was written, or a fault before anything was. -/
theorem goOn_cases (h : Orderly w) (hu : w.Assured) (message : String)
    (hr : Resumable mapping button data workflow x node context w) (start : Int) :
    ∃ u, Confined x.id (w.accepting x node button) u ∧
      ((∃ status error duration answer w',
        run (goOn message workflow x node button context start) (w.accepting x node button) = (.ok answer, w') ∧
        Wrote (Store.Executions.place x.id) (x.ended status error duration u.clock.stamp).toValue u w') ∨
      ∃ fault, run (goOn message workflow x node button context start) (w.accepting x node button) = (.error fault, u)) := by
  have hrecord : HasRecord (w.accepting x node button).storage x.id x := h.hasRecord_of_ready hr.toReady
  have hassured : (w.accepting x node button).Assured := hu
  obtain ⟨r, ⟨htracks, hexecution, hconfined⟩, hsame⟩ :=
    (stable_confined x.id (w.accepting x node button)).resumed x.errorMessage ⟨h.tracks_of_resumable hr, rfl, .refl _⟩
  unfold goOn
  rcases hres : run (Invocation.resume workflow x.id node context x.errorMessage) (w.accepting x node button) with
    ⟨fault | ⟨routing, s⟩, w₁⟩
  · rw [hres] at hconfined
    rw [run_bind_error hres]
    exact ⟨w₁, hconfined, .inr ⟨fault, rfl⟩⟩
  · obtain rfl := hsame routing s (by rw [hres])
    rw [hres] at htracks hconfined
    rw [run_bind_ok hres]
    have hnote := hconfined.trans (noteUnrouted_confined htracks.orderly message x node button routing s)
    rcases hnoted : run (noteUnrouted message x node button routing s) w₁ with ⟨fault | r, w₂⟩ <;> rw [hnoted] at hnote
    · rw [run_bind_error hnoted]
      exact ⟨w₂, hnote, .inr ⟨fault, rfl⟩⟩
    · rw [run_bind_ok hnoted]
      have hid : r.execution = x.id := (execution_of_noteUnrouted hnoted).trans hexecution
      have hq := hushed_totalDuration x start w₂
      rcases htotal : run (totalDuration x start) w₂ with ⟨fault | duration, w₃⟩ <;> rw [htotal] at hq
      · rw [run_bind_error htotal]
        exact ⟨w₃, hnote.trans (.of_quiet hq), .inr ⟨fault, rfl⟩⟩
      · rw [run_bind_ok htotal]
        have hconfined := hnote.trans (.of_quiet hq)
        have hend := Invocation.finalize_posted (hid ▸ hconfined.hasRecord hrecord) (hconfined.assured hassured) duration
        rw [hid] at hend
        rcases hrun : run (Invocation.finalize r duration) w₃ with ⟨result, w₄⟩
        rw [hrun] at hend
        cases hend with
        | done hw => exact ⟨w₃, hconfined, .inl ⟨_, _, _, _, w₄, rfl, hw⟩⟩
        | unheard hno _ => exact absurd trivial hno
        | lost _ hq => exact ⟨w₄, hconfined.trans (.of_quiet hq), .inr ⟨_, rfl⟩⟩

/-- A click that goes on leaves the record of its execution ended once, or as it was. -/
theorem goOnOrFail_cases (h : Orderly w) (hu : w.Assured) (message : String)
    (hr : Resumable mapping button data workflow x node context w) (start : Int) :
    ∃ u, Confined x.id (w.accepting x node button) u ∧ ∃ result w',
      run (goOnOrFail message workflow x node button context start) (w.accepting x node button) = (result, w') ∧
      ((∃ status error duration,
        Wrote (Store.Executions.place x.id) (x.ended status error duration u.clock.stamp).toValue u w') ∨ w' = u) := by
  have hrecord : HasRecord (w.accepting x node button).storage x.id x := h.hasRecord_of_ready hr.toReady
  have hassured : (w.accepting x node button).Assured := hu
  obtain ⟨u, hconfined, ⟨status, error, duration, answer, w', hrun, hw⟩ | ⟨fault, hrun⟩⟩ := goOn_cases h hu message hr start
  all_goals
    unfold goOnOrFail
    rw [run_bind_ok (run_attempt _ _), hrun]
    dsimp only
  · exact ⟨u, hconfined, _, w', rfl, .inl ⟨status, error, duration, hw⟩⟩
  · have hq := hushed_totalDuration x start u
    rcases htotal : run (totalDuration x start) u with ⟨fault' | duration, u₁⟩ <;> rw [htotal] at hq
    · rw [run_bind_error htotal]
      exact ⟨u₁, hconfined.trans (.of_quiet hq), _, u₁, rfl, .inr rfl⟩
    · rw [run_bind_ok htotal]
      let failure : ResumeFailure := ⟨.interrupted fault.message, x.id, some node.id⟩
      have hlog : Quiet u₁ (run (Engine.logFault "continuation" failure.message) u₁).2 := hushed_logFault _ _ u₁
      rw [run_bind_of_fst (a := ()) rfl]
      have hconfined := hconfined.trans (.of_quiet (hq.trans hlog))
      generalize (run (Engine.logFault "continuation" failure.message) u₁).2 = u₂ at hconfined
      have hend := Journal.finishExecution_assured (hconfined.hasRecord hrecord) (hconfined.assured hassured) .failed
        (some failure.message) duration
      rcases hfinish : run (Journal.finishExecution x.id .failed (.str failure.message) duration) u₂ with ⟨result, u₃⟩
      rw [show Value.ofText? (some failure.message) = .str failure.message from rfl, hfinish] at hend
      cases hend with
      | done hw =>
        rw [run_bind_ok hfinish]
        exact ⟨u₂, hconfined, _, u₃, rfl, .inl ⟨_, _, _, hw⟩⟩
      | unheard hno _ => exact absurd trivial hno
      | lost _ hq' =>
        rw [run_bind_error hfinish]
        exact ⟨u₃, hconfined.trans (.of_quiet hq'), _, u₃, rfl, .inr rfl⟩

end Continuation

end WorkGraph
