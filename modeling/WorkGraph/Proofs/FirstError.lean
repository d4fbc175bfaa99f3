import WorkGraph.Proofs.Branch
import WorkGraph.Proofs.Records

/-!
# The error of an execution

A run starts with the tree of its trigger node (`Invocation.tree?`). What is written of it when it ends depends on the
tree alone: the error is the failure that was noted first (`Invocation.execute_ends`, `first_noted_wins`). A failure is
noted once all siblings of the node that failed are over, so that the one that was noted first need not be the one that
happened first (`not_first_in_time`).
-/

namespace WorkGraph

open Engine Running

/-! ## The failures of a tree -/

namespace Branch

/-- The failures of a run that started with a tree, in the order in which they are noted. What ends the first node ends
the run, and no node leads to it. -/
def failures (b : Branch) : List String :=
  b.noted ++ (b.fault?.map Fault.message).toList

theorem ne_of_fall? {b : Branch} {message : String} (h : b.fall? = some message) : message ≠ "" := by
  cases b with
  | skipped | grew => cases h
  | fell node stage fault =>
    obtain rfl := Option.some.inj h
    simp

mutual

/-- What is noted is a text. -/
theorem ne_of_mem_noted {message : String} : ∀ {b : Branch}, message ∈ b.noted → message ≠ ""
  | grew _ _ behind, h => by
    rw [noted, List.mem_append, Option.mem_toList] at h
    rcases h with h | h
    · exact ne_of_mem_notedOf h
    · obtain ⟨b, -, hb⟩ := List.exists_of_findSome?_eq_some h
      exact ne_of_fall? hb

theorem ne_of_mem_notedOf {message : String} : ∀ {bs : List Branch}, message ∈ notedOf bs → message ≠ ""
  | b :: rest, h => by
    rw [notedOf, List.mem_append] at h
    exact h.elim ne_of_mem_noted ne_of_mem_notedOf

end

mutual

/-- Where a row tells of a failure, one is noted, or else it is what led to the row that notes it. -/
theorem noted_of_failed {v : Verdict} (hv : v.status = .failed) :
    ∀ {b : Branch}, v ∈ b.rows → b.fault?.isSome = true ∨ b.noted ≠ []
  | fell _ _ _, _ => .inl rfl
  | grew node _ behind, h => by
    rw [rows, List.mem_cons] at h
    rcases h with rfl | h
    · cases hv
    · refine .inr ?_
      rw [noted]
      rcases noted_of_failedOf hv h with ⟨message, hm⟩ | hne
      · rw [hm]
        simp
      · exact List.append_ne_nil_of_left_ne_nil hne _

theorem noted_of_failedOf {v : Verdict} (hv : v.status = .failed) :
    ∀ {bs : List Branch}, v ∈ rowsOf bs → (∃ message, bs.findSome? fall? = some message) ∨ notedOf bs ≠ []
  | b :: rest, h => by
    rw [rowsOf, List.mem_append] at h
    rw [notedOf, List.findSome?_cons]
    rcases h with h | h
    · rcases noted_of_failed hv h with hf | hne
      · cases b with
        | fell => exact .inl ⟨_, rfl⟩
        | skipped | grew => cases hf
      · exact .inr (List.append_ne_nil_of_left_ne_nil hne _)
    · rcases noted_of_failedOf hv h with ⟨message, hm⟩ | hne
      · cases hb : b.fall? with
        | some message => exact .inl ⟨message, rfl⟩
        | none => exact .inl ⟨message, hm⟩
      · exact .inr (List.append_ne_nil_of_right_ne_nil _ hne)

end

/-- Where a row tells of a failure, the run has one. -/
theorem failures_ne_nil {b : Branch} {v : Verdict} (hv : v.status = .failed) (hm : v ∈ b.rows) : b.failures ≠ [] := by
  unfold failures
  rcases noted_of_failed hv hm with hf | hne
  · obtain ⟨fault, hfault⟩ := Option.isSome_iff_exists.1 hf
    rw [hfault]
    simp
  · exact List.append_ne_nil_of_left_ne_nil hne _

end Branch

/-! ## How a run has gone -/

/-- The status that an invocation leaves. -/
def RunStatus.ending (suspends : Bool) (failures : List String) : RunStatus :=
  if suspends then .running else if failures.isEmpty then .success else .failed

/-- Whether the first of some failures can be told from none: each is a text, or there is only one and nothing waits. -/
def Tellable (suspends : Bool) (failures : List String) : Prop :=
  (∀ message ∈ failures, message ≠ "") ∨ suspends = false ∧ ∃ message, failures = [message]

namespace Run

/-- A message that is there stays. -/
theorem foldl_firstOf_of_ne {error : String} (h : error ≠ "") (messages : List String) :
    messages.foldl firstOf error = error := by
  induction messages with
  | nil => rfl
  | cons message rest ih =>
    rw [List.foldl_cons, firstOf, if_neg (by simpa using h)]
    exact ih

theorem foldl_firstOf {suspends : Bool} {failures : List String} (h : Tellable suspends failures) :
    failures.foldl firstOf "" = failures.head?.getD "" := by
  cases failures with
  | nil => rfl
  | cons message rest =>
    show rest.foldl firstOf message = message
    rcases h with h | ⟨-, _, h⟩
    · exact foldl_firstOf_of_ne (h message List.mem_cons_self) rest
    · rw [(List.cons.inj h).2]
      rfl

end Run

namespace Went

variable {failures : List String} {suspends : Bool} {rows : List Verdict} {p q : Progress}

/-- A run in which nothing had happened leaves the status that belongs to what went on in it. -/
theorem status (h : Went failures suspends rows p q) (hf : p.run.failed = false) (hs : p.run.suspended = false) :
    q.run.status = .ending suspends failures := by
  unfold Run.status RunStatus.ending
  rw [h.suspended, h.failed, hf, hs]
  cases suspends <;> cases failures <;> rfl

/-- It leaves the error that was noted first. -/
theorem error (h : Went failures suspends rows p q) (ht : Tellable suspends failures) (hf : p.run.failed = false)
    (he : p.run.firstError = "") (hs : p.run.suspended = false) : q.run.error = failures.head? := by
  unfold Run.error
  rw [h.suspended, h.failed, h.firstError, hf, he, hs, Run.foldl_firstOf ht]
  cases failures with
  | nil => cases suspends <;> rfl
  | cons message rest =>
    cases suspends with
    | false => rfl
    | true =>
      rcases ht with ht | ⟨hno, -⟩
      · have hne : message ≠ "" := ht message List.mem_cons_self
        simp [hne]
      · cases hno

end Went

/-! ## Runs from the trigger node -/

namespace Invocation

/-- The tree of a run that starts, if there is a trigger node. -/
def tree? (p : Progress) : Option Branch :=
  p.run.workflow.triggerNode?.map (Dispatch.tree · p)

/-- The failures of a run that starts, in the order in which they are noted. -/
def failures (p : Progress) : List String :=
  (tree? p).elim [(Fault.rejected .nothingToStart).message] Branch.failures

/-- Whether a node waits for a click in a run that starts. -/
def suspends (p : Progress) : Bool :=
  (tree? p).any Branch.suspends

/-- The rows that a run leaves that starts. -/
def rows (p : Progress) : List Verdict :=
  (tree? p).elim [] Branch.rows

theorem tellable (p : Progress) : Tellable (suspends p) (failures p) := by
  unfold suspends failures
  cases tree? p with
  | none => exact .inr ⟨rfl, _, rfl⟩
  | some b =>
    cases b with
    | skipped => exact .inl fun _ hm => absurd hm List.not_mem_nil
    | fell node stage fault => exact .inr ⟨rfl, fault.message, rfl⟩
    | grew node suspended behind =>
      refine .inl fun message hm => Branch.ne_of_mem_noted (b := .grew node suspended behind) ?_
      rw [Option.elim, Branch.failures, show (Branch.grew node suspended behind).fault? = none from rfl] at hm
      simpa using hm

theorem failures_ne_nil {p : Progress} {v : Verdict} (hv : v.status = .failed) (hm : v ∈ rows p) : failures p ≠ [] := by
  unfold rows at hm
  unfold failures
  cases ht : tree? p with
  | none => rw [ht] at hm; cases hm
  | some b => rw [ht] at hm; exact Branch.failures_ne_nil hv hm

/-- The trigger node is dispatched. -/
theorem go_fromTrigger {p : Progress} {node : Node} (h : p.run.workflow.triggerNode? = some node) :
    go fromTrigger p = go (dispatch node) p := by
  obtain ⟨w, r⟩ := p
  dsimp only at h
  unfold fromTrigger
  rw [go_bind_ok (go_run w r), h]

/-- What is settled of a run that went well. -/
theorem run_settle_ok (workflow : Workflow) {act : Running Unit} {p q : Progress} (h : go act p = (.ok (), q)) :
    Engine.run (settle workflow p.run act) p.world = (.ok q.run, q.world) := by
  unfold settle
  rw [Engine.run_bind_ok (Engine.run_onRun _ _ _), h]
  rfl

/-- What is settled of a run that a fault ended: one failure more. -/
theorem run_settle_error (workflow : Workflow) {act : Running Unit} {p q : Progress} {fault : Fault}
    (h : go act p = (.error fault, q)) :
    ∃ w, Engine.run (settle workflow p.run act) p.world = (.ok (q.run.recordFailure fault.message), w) ∧
      Went [fault.message] false [] q ⟨w, q.run.recordFailure fault.message⟩ := by
  obtain ⟨w, r⟩ := q
  let said := (Engine.run (Engine.logFault "executor"
    ("Workflow " ++ workflow.id ++ " execution failed: " ++ fault.message)) w).2
  have hlog : Quiet w said := hushed_logFault _ _ _
  have hnote : Went [fault.message] false [] ⟨said, r⟩ ⟨said, r.recordFailure fault.message⟩ :=
    .noteIn ⟨false, some fault.message, false⟩ said r
  refine ⟨said, ?_, (Went.of_quiet hlog).trans hnote⟩
  unfold settle
  rw [Engine.run_bind_ok (Engine.run_onRun _ _ _), h]
  rfl

/-- What is done to a run from its trigger node on. -/
theorem settle_went (workflow : Workflow) (p : Progress) :
    ∃ r w, Engine.run (settle workflow p.run fromTrigger) p.world = (.ok r, w) ∧
      Went (failures p) (suspends p) (rows p) p ⟨w, r⟩ := by
  unfold failures suspends rows tree?
  cases hn : p.run.workflow.triggerNode? with
  | none =>
    have hgo : go fromTrigger p = (.error (.rejected .nothingToStart), p) := by
      obtain ⟨w, r⟩ := p
      unfold fromTrigger
      rw [go_bind_ok (go_run w r), hn]
      rfl
    obtain ⟨w, hr, hwent⟩ := run_settle_error workflow hgo
    exact ⟨_, w, hr, hwent⟩
  | some node =>
    obtain ⟨hresult, -, hwent⟩ := Dispatch.tree_tells node p
    rw [← go_fromTrigger hn] at hresult hwent
    rcases hgo : go fromTrigger p with ⟨result, q⟩
    rw [hgo] at hresult hwent
    rw [Option.map_some, Option.elim, Option.any_some, Option.elim, Branch.failures]
    cases hf : (Dispatch.tree node p).fault? with
    | some fault =>
      rw [hf] at hresult
      obtain rfl : result = .error fault := hresult
      obtain ⟨w, hr, hfault⟩ := run_settle_error workflow hgo
      refine ⟨_, w, hr, ?_⟩
      simpa using hwent.trans hfault
    | none =>
      rw [hf] at hresult
      obtain rfl : result = .ok () := hresult
      refine ⟨_, _, run_settle_ok workflow hgo, ?_⟩
      simpa using hwent

/-! ## What is written in the end -/

/-- What is on record of an execution once an invocation has ended in which it may have come to wait, and by whose end it
has had some failures. -/
structure Concluded (suspends : Bool) (failures : List String) (x : Execution) (w : World) : Prop where
  record : HasRecord w.storage x.id x
  status : x.status = .ending suspends failures
  error : x.errorMessage = failures.head?
  bounded : Number.inRange x.durationMs = true

/-- What a run has come to is written, unless the store refuses it. -/
theorem finalize_done {w : World} {r : Run} {x : Execution} (hx : HasRecord w.storage r.execution x) (hs : w.Steady)
    (hh : w.Heard) (hf : (Store.Executions.place r.execution).Fits) (duration : Int) :
    ∃ w', Engine.run (finalize r duration) w = (.ok r.answer, w') ∧
      Wrote (Store.Executions.place r.execution) (x.ended r.status r.error duration w.clock.stamp).toValue w w' := by
  have hp := finalize_posted hx (.inr ⟨hs, hh⟩) duration
  rcases hr : Engine.run (finalize r duration) w with ⟨result, w'⟩
  rw [hr] at hp
  cases hp with
  | done hw => exact ⟨w', rfl, hw⟩
  | unheard hno _ => exact absurd trivial hno
  | lost hno _ => exact absurd ⟨hs, hf⟩ hno

/-- What a run has come to is on record, and the id is returned of an execution that has not failed. -/
theorem finalize_concluded {w : World} {r : Run} {x : Execution} {suspends : Bool} {failures : List String}
    (hx : HasRecord w.storage r.execution x) (hid : x.id = r.execution) (hs : w.Steady) (hh : w.Heard)
    (hf : (Store.Executions.place r.execution).Fits) (hstatus : r.status = .ending suspends failures)
    (herror : r.error = failures.head?) {duration : Int} (hd : Number.inRange duration = true) :
    ∃ y w', Engine.run (finalize r duration) w = (.ok (if y.status = .failed then none else some y.id), w') ∧
      y.id = r.execution ∧ Concluded suspends failures y w' ∧
      Wrote (Store.Executions.place r.execution) y.toValue w w' := by
  obtain ⟨w', hr, hw⟩ := finalize_done hx hs hh hf duration
  have hy : (x.ended r.status r.error duration w.clock.stamp).id = r.execution := hid
  refine ⟨x.ended r.status r.error duration w.clock.stamp, w', ?_, hid, ⟨?_, hstatus, herror, hd⟩, hw⟩
  · rw [hr, hy]
    rfl
  · rw [hy]
    exact hw.read_self

/-- An execution that starts, before its trigger node is dispatched: nothing but its record was written. -/
structure Opened (W : Workflow) (payload : Value) (w : World) (x : Execution) (u : World) : Prop where
  id : x.id = w.nextExecution
  opened : Engine.run (opening W payload) w = (.ok (.start x.id W (.start payload)), u)
  config : u.config = w.config
  files : ∀ place, place.path ≠ (Store.Executions.place x.id).path → u.storage.find? place = w.storage.find? place
  fluent : ∀ logs, HasLogs w.storage x.id logs → Fluent ⟨u, .start x.id W (.start payload)⟩ logs
  settled : ∃ r v, Engine.run (settle W (.start x.id W (.start payload)) fromTrigger) u = (.ok r, v) ∧
    r.execution = x.id ∧ HasRecord v.storage x.id x ∧ v.Steady ∧ v.Heard ∧
    Engine.run (execute W payload) w = Engine.run (finalize r (v.clock.since w.clock.reading).millis) v

/-- Nothing is refused to an execution whose record was written, if nothing was before. -/
theorem fluent_begun {w w' : World} {W : Workflow} {payload : Value} {x : Execution} {logs : List NodeLog} (ho : Orderly w)
    (hs : w.Steady) (hh : w.Heard) (hid : x.id = w.nextExecution)
    (hw : Wrote (Store.Executions.place w.nextExecution) x.toValue { w with issued := w.issued + 1 } w')
    (hl : HasLogs w.storage w.nextExecution logs) : Fluent ⟨w', .start x.id W (.start payload)⟩ logs where
  audible := ⟨hw.steady hs, hh.of_service hw.service, x, hid ▸ hw.read_self⟩
  fits := hid ▸ fits_nodeLogs hw.fits
  rows := hid ▸ (hw.read_ne (executions_ne_nodeLogs _ _).symm).trans hl
  counted := (ho.attempts_eq_nil hl).1
  dispatched := nofun

/-- An execution starts if its record can be written. -/
theorem execute_opened {w : World} (ho : Orderly w) (hs : w.Steady) (hh : w.Heard)
    (hf : (Store.Executions.place w.nextExecution).Fits) (W : Workflow) (payload : Value) :
    ∃ x u, Opened W payload w x u := by
  rcases Journal.startExecution_cases W.id (Context.start payload).triggerData w with ⟨session, w₁, hr, hw⟩ | ⟨hno, -⟩
  · have htracks := (startExecution_tracks W payload (Context.start payload).triggerData ho).2 _ (by rw [hr])
    rw [hr] at htracks
    generalize hx : Execution.begun w.nextExecution W.id (Context.start payload).triggerData session w.clock.stamp = x
      at hr hw htracks
    have hid : x.id = w.nextExecution := by rw [← hx]; rfl
    have hrecord : HasRecord w₁.storage x.id x := hid ▸ hw.read_self
    obtain ⟨u, hq, hopen⟩ := run_opening hr
    refine ⟨x, u, hid, hopen, hq.config.trans hw.config, fun place hp => ?_,
      fun logs hl => (fluent_begun ho hs hh hid hw (hid ▸ hl)).quiet hq, ?_⟩
    · rw [hq.storage]
      exact hw.find?_ne (hid ▸ hp)
    · obtain ⟨r, v, hlaunch, -, hexecution, hconfined⟩ := (stable_confined x.id w₁).launched hr ⟨htracks, rfl, .refl w₁⟩
      have hsettle := hlaunch
      rw [launch_eq, Engine.run_bind_ok hopen] at hsettle
      exact ⟨r, v, hsettle, hexecution, hconfined.hasRecord hrecord, hconfined.steady (hw.steady hs),
        (hh.of_service hw.service).of_service hconfined.service, run_execute hs hlaunch⟩
  · exact absurd ⟨hs, hh, hf⟩ hno

/-- An execution that starts is on record with what its tree comes to, and its rows are those of the tree. -/
theorem execute_ends {w : World} (ho : Orderly w) (hs : w.Steady) (hh : w.Heard)
    (hf : (Store.Executions.place w.nextExecution).Fits) (W : Workflow) (payload : Value) :
    ∃ r u, Engine.run (opening W payload) w = (.ok r, u) ∧ ∃ x w', x.id = w.nextExecution ∧
      Engine.run (execute W payload) w = (.ok (if x.status = .failed then none else some x.id), w') ∧
      Concluded (suspends ⟨u, r⟩) (failures ⟨u, r⟩) x w' ∧
      ∀ logs, HasLogs w.storage w.nextExecution logs →
        ∃ more, HasLogs w'.storage x.id (logs ++ more) ∧ more.map NodeLog.verdict = rows ⟨u, r⟩ := by
  obtain ⟨x, u, hid, hopen, -, -, hfluent, r, v, hsettle, hexecution, hrecord, hsteady, hheard, hrun⟩ :=
    execute_opened ho hs hh hf W payload
  obtain ⟨r', v', hsettled, hwent⟩ := settle_went W ⟨u, .start x.id W (.start payload)⟩
  obtain ⟨hr, rfl⟩ := Prod.mk.inj (hsettled.symm.trans hsettle)
  obtain rfl := Except.ok.inj hr
  obtain ⟨y, w', hfinal, hy, hconcluded, hend⟩ :=
    finalize_concluded (hexecution ▸ hrecord) hexecution.symm hsteady hheard (hexecution ▸ hid ▸ hf)
      (hwent.status rfl rfl) (hwent.error (tellable _) rfl rfl rfl)
      (Span.inRange_bounded (((v'.clock.since w.clock.reading).steps * 1000).tdiv Clock.stepRate))
  have hyx : y.id = x.id := hy.trans hexecution
  refine ⟨_, u, hopen, y, w', hyx.trans hid, hrun.trans hfinal, hconcluded, fun logs hl => ?_⟩
  obtain ⟨more, hmore, hverdicts⟩ := hwent.rows logs (hfluent logs (hid ▸ hl))
  refine ⟨more, ?_, hverdicts⟩
  rw [HasLogs, hend.read_ne (executions_ne_nodeLogs _ _).symm, hyx, ← hexecution]
  exact hmore.rows

end Invocation

/-- Of the failures of an execution that starts in whatever session, unless something is refused to it, its record keeps
the one that was noted first. The rows that it leaves are in the order in which its nodes were entered, so that the record
need not tell of the first row that has failed. -/
theorem first_noted_wins (config : Config) (root : String) (auditor : Option Auditor) (steps : List Session.Step)
    (W : Workflow) (payload : Value) :
    let w := (Session.run steps (.initial config root auditor)).2
    let w' := (run (Invocation.execute W payload) w).2
    w.Steady → w.Heard → (Store.Executions.place w.nextExecution).Fits →
    (∃ logs, HasLogs w.storage w.nextExecution logs) →
    ∃ r u, run (Invocation.opening W payload) w = (.ok r, u) ∧
      ∃ x logs more, x.id = w.nextExecution ∧ HasRecord w'.storage x.id x ∧
        HasLogs w'.storage x.id (logs ++ more) ∧ Counted (logs ++ more) ∧ attempts logs = [] ∧
        more.map NodeLog.verdict = Invocation.rows ⟨u, r⟩ ∧
        x.errorMessage = (Invocation.failures ⟨u, r⟩).head? ∧
        ((∃ row ∈ more, row.status = .failed) → x.errorMessage ≠ none) := by
  intro w w' hs hh hf ⟨logs, hl⟩
  have ho : Orderly w := orderly_run steps (orderly_initial config root auditor)
  obtain ⟨r, u, hopen, x, v, hid, hrun, hconcluded, hrows⟩ := Invocation.execute_ends ho hs hh hf W payload
  obtain ⟨more, hmore, hverdicts⟩ := hrows logs hl
  have hv : w' = v := congrArg Prod.snd hrun
  have ho' : Orderly w' := lasting_orderly.abiding.executed W payload w ho
  rw [← hv] at hmore hconcluded
  refine ⟨r, u, hopen, x, logs, more, hid, hconcluded.record, hmore, ?_, (ho.attempts_eq_nil hl).2, hverdicts,
    hconcluded.error, fun ⟨row, hrow, hfailed⟩ hnone => ?_⟩
  · rcases ho'.logs_cases x.id with ⟨logs', hl', hc, -⟩ | hno
    · exact hmore.unique hl' ▸ hc
    · exact absurd hmore (hno _)
  · have hm : row.verdict ∈ Invocation.rows ⟨u, r⟩ := hverdicts ▸ List.mem_map_of_mem hrow
    refine Invocation.failures_ne_nil hfailed hm (List.head?_eq_none_iff.1 ?_)
    rw [← hconcluded.error, hnone]

namespace Sample

/-- A node that fails beside one that leads to another that fails. -/
def crossing : Workflow :=
  { id := "cross", title := none, status := .published
    nodes := [node "start" "trigger" [], node "first" "action" [("tool_id", .str "absent")],
      node "turn" "condition" [("field", .str "trigger_data"), ("operator", .str "exists")],
      node "second" "action" [("tool_id", .str "missing")]]
    edges := [⟨some "start", some "first", none⟩, ⟨some "start", some "turn", none⟩,
      ⟨some "turn", some "second", some "true"⟩, ⟨some "turn", some "second", some "false"⟩] }

end Sample

/-- A node that fails beside one that leads to another that fails: the latter is noted first. -/
theorem first_noted_wins_sample :
    let w := (Session.run [] (.initial {} "" none)).2
    let w' := (run (Invocation.execute Sample.crossing .null) w).2
    w.Steady ∧ w.Heard ∧ (Store.Executions.place w.nextExecution).Fits ∧
      ∃ r u, run (Invocation.opening Sample.crossing .null) w = (.ok r, u) ∧
        Invocation.failures ⟨u, r⟩ =
          ["Node 'second' failed: Tool not found: missing", "Node 'first' failed: Tool not found: absent"] ∧
        ∃ x, x.id = w.nextExecution ∧ HasRecord w'.storage x.id x ∧
          x.errorMessage = (Invocation.failures ⟨u, r⟩).head? := by
  dsimp only
  have hsteady : (Session.run [] (.initial {} "" none)).2.Steady := fun p hp => by cases hp
  have hheard : (Session.run [] (.initial {} "" none)).2.Heard := fun a ha => by cases ha
  have hfits : (Store.Executions.place (Session.run [] (.initial {} "" none)).2.nextExecution).Fits := by decide +kernel
  obtain ⟨r, u, hopen, x, -, -, hid, hrecord, -, -, -, -, herror, -⟩ :=
    first_noted_wins {} "" none [] Sample.crossing .null hsteady hheard hfits ⟨[], rfl⟩
  have hfailures : (run (Invocation.opening Sample.crossing .null) (Session.run [] (.initial {} "" none)).2).1.toOption.map
      (fun r => Invocation.failures
        ⟨(run (Invocation.opening Sample.crossing .null) (Session.run [] (.initial {} "" none)).2).2, r⟩) =
      some ["Node 'second' failed: Tool not found: missing", "Node 'first' failed: Tool not found: absent"] := by
    decide +kernel
  rw [hopen] at hfailures
  simp only [Except.toOption, Option.map_some, Option.some.injEq] at hfailures
  exact ⟨hsteady, hheard, hfits, r, u, hopen, hfailures, x, hid, hrecord, herror⟩

/-- The node that fails first is not the one of which the record tells. -/
theorem not_first_in_time :
    let w := (Session.run [.execute Sample.crossing .null] (.initial {} "" none)).2
    ∃ x, HasRecord w.storage Sample.execution x ∧
      x.errorMessage = some "Node 'second' failed: Tool not found: missing" ∧
      ((w.storage.nodeLogs Sample.execution).filter (·.status == .failed)).map (fun row => (row.id, row.verdict)) =
        [(2, ⟨"first", .failed, some "Tool not found: absent"⟩), (4, ⟨"second", .failed, some "Tool not found: missing"⟩)] := by
  intro w
  have hw : Orderly w := orderly_run _ (orderly_initial {} "" none)
  have hrun : ((w.storage.execution? Sample.execution).map Execution.errorMessage,
      ((w.storage.nodeLogs Sample.execution).filter (·.status == .failed)).map (fun row => (row.id, row.verdict))) =
      (some (some "Node 'second' failed: Tool not found: missing"),
        [(2, ⟨"first", .failed, some "Tool not found: absent"⟩), (4, ⟨"second", .failed, some "Tool not found: missing"⟩)]) := by
    decide +kernel
  obtain ⟨hx, hrows⟩ := Prod.mk.inj hrun
  obtain ⟨x, hx, herror⟩ := Option.map_eq_some_iff.1 hx
  exact ⟨x, (hw.hasRecord_iff _ _).2 hx, herror, hrows⟩

end WorkGraph
