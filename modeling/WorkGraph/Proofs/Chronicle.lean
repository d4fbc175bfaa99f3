import WorkGraph.Proofs.Lifecycle
import WorkGraph.Proofs.Outcome

/-!
# What sessions leave on record

Every session without an audit service and without injected faults is a chain of invocations and of steps that work on no
execution (`Chronicle`). What is on record of an execution is what the reports of its invocations tell (`Accounted`,
`outcomes_told`): it runs as long as the last of them came to wait, and else it has failed if there was a failure in any,
the first of which is its error. A click that is interrupted before it is routed breaks that: its own error takes the place
of the first one (`not_kept_when_interrupted`).
-/

namespace WorkGraph

open Engine Running

/-! ## Chronicles -/

/-- Since some world there were invocations that came to these reports, one after the other, and between them nothing was
done for any execution. -/
inductive Chronicle (u : World) : List Report → World → Prop
  | start : Chronicle u [] u
  | untouched {reports : List Report} {w w' : World} : Chronicle u reports w → Touches none w w' → Chronicle u reports w'
  | executed {reports : List Report} {w : World} (W : Workflow) (payload : Value) : Chronicle u reports w →
      Chronicle u (reports ++ (Invocation.report W payload w).toList) (run (Invocation.execute W payload) w).2
  | continued {reports : List Report} {w : World} {mapping : ButtonMapping} {button data : Value} {workflow : Workflow}
      {x : Execution} {node : Node} {context : Context} (message : String) (start : Int) : Chronicle u reports w →
      Continuation.Resumable mapping button data workflow x node context w →
      Chronicle u (reports ++ [Continuation.report workflow x node button context (w.accepting x node button)])
        (run (Continuation.goOnOrFail message workflow x node button context start) (w.accepting x node button)).2

/-- The reports of an execution. -/
def Report.of (execution : String) (reports : List Report) : List Report :=
  reports.filter (·.execution == execution)

theorem Report.of_append (execution : String) (reports more : List Report) :
    of execution (reports ++ more) = of execution reports ++ of execution more :=
  List.filter_append _ _

theorem Report.of_append_self {r : Report} {execution : String} (h : r.execution = execution) (reports : List Report) :
    of execution (reports ++ [r]) = of execution reports ++ [r] := by
  simp [of, h]

theorem Report.of_append_ne {r : Report} {execution : String} (h : r.execution ≠ execution) (reports : List Report) :
    of execution (reports ++ [r]) = of execution reports := by
  simp [of, h]

/-- What is on record of an execution is what its reports tell. -/
structure Recorded (reports : List Report) (x : Execution) (w : World) : Prop where
  fits : (Store.Executions.place x.id).Fits
  bounded : Number.inRange x.durationMs = true
  texted : x.status = .running → x.errorMessage ≠ some ""
  reported : Report.of x.id reports ≠ []
  told : (x.status, x.errorMessage) = Report.told (Report.of x.id reports)
  clean : x.errorMessage = none → ∀ row ∈ w.storage.attempted x.id, row.status ≠ .failed

/-- In a world without an audit service and without injected faults, everything on record is what the reports tell. -/
structure Accounted (reports : List Report) (w : World) : Prop where
  unaudited : w.Unaudited
  steady : w.Steady
  logged : ∀ id, ∃ logs, HasLogs w.storage id logs
  issued : ∀ r ∈ reports, Issued w.issued r.execution
  recorded : ∀ x, HasRecord w.storage x.id x → Recorded reports x w

namespace Recorded

variable {reports : List Report} {x : Execution} {w w' : World}

theorem spared (h : Recorded reports x w) (hs : Spared x.id w w') : Recorded reports x w' :=
  { h with clean := hs.attempted ▸ h.clean }

/-- A report of another execution tells nothing of this one. -/
theorem append (h : Recorded reports x w) {r : Report} (hr : r.execution ≠ x.id) : Recorded (reports ++ [r]) x w := by
  have hsame := Report.of_append_ne hr reports
  exact { h with reported := hsame ▸ h.reported, told := hsame ▸ h.told }

end Recorded

namespace Accounted

variable {reports : List Report} {w w' : World}

theorem heard (h : Accounted reports w) : w.Heard :=
  h.unaudited.heard

theorem untouched (h : Accounted reports w) (ht : Touches none w w') : Accounted reports w' where
  unaudited := ht.unaudited h.unaudited
  steady := ht.steady h.steady
  logged id := by
    obtain ⟨logs, hl⟩ := h.logged id
    exact ht.logged id logs (by simp) hl
  issued r hr := (h.issued r hr).mono ht.issued
  recorded x hx :=
    have hx' := ht.kept x hx (by simp)
    (h.recorded x hx').spared (ht.spared x hx' (by simp))

/-- One invocation more: nothing was done for other executions, and the record of its own is as it tells. -/
theorem extend {r : Report} {earlier : List String} {logs : List NodeLog} {y : Execution} (h : Accounted reports w)
    (ho : Orderly w') (ht : Touches (some y.id) w w') (hr : r.execution = y.id)
    (hf : (Store.Executions.place y.id).Fits) (hh : r.Holds earlier logs y w')
    (hearlier : r.outcome earlier = r.outcome ((Report.of y.id reports).flatMap Report.failures))
    (hclean : y.errorMessage = none → ∀ row ∈ logs, row.isRouting = false → row.status ≠ .failed) :
    Accounted (reports ++ [r]) w' where
  unaudited := ht.unaudited h.unaudited
  steady := ht.steady h.steady
  logged id := by
    obtain ⟨more, hmore, -⟩ := hh.rows
    by_cases hp : (Store.NodeLogs.place id).path = (Store.NodeLogs.place y.id).path
    · exact ⟨_, (Storage.read_congr hp _).trans hmore⟩
    · obtain ⟨others, ho⟩ := h.logged id
      exact ht.logged id others (fun e he => Option.some.inj he ▸ hp) ho
  issued s hs := by
    rcases List.mem_append.1 hs with hs | hs
    · exact (h.issued s hs).mono ht.issued
    · rw [List.mem_singleton.1 hs, hr]
      exact ho.issued_of_hasRecord hh.record
  recorded x hx := by
    by_cases hid : x.id = y.id
    · obtain rfl : x = y := Execution.hasRecord_unique (hid ▸ hx) hh.record
      have hmine := Report.of_append_self hr reports
      refine ⟨hf, hh.bounded, hh.texted, by rw [hmine]; simp, ?_, fun hnone row hrow => ?_⟩
      · rw [hmine, Report.told_append, hh.told, hearlier]
      · obtain ⟨more, hmore, hrows⟩ := hh.rows
        rw [Storage.attempted, hmore.nodeLogs, List.mem_filter, List.mem_append] at hrow
        obtain ⟨hrow | hrow, hrouting⟩ := hrow
        · exact hclean hnone row hrow (by simpa using hrouting)
        · exact hrows hnone row hrow
    · have hx' := ht.kept x hx fun he => hid (Option.some.inj he).symm
      have hspared := ht.spared x hx' fun he => hid (Option.some.inj he).symm
      exact ((h.recorded x hx').spared hspared).append fun he => hid (he.symm.trans hr)

/-- Nothing was reported of an execution that starts. -/
theorem of_nextExecution (h : Accounted reports w) : Report.of w.nextExecution reports = [] := by
  refine List.filter_eq_nil_iff.2 fun r hr he => not_issued_nextExecution w ?_
  rw [← beq_iff_eq.1 he]
  exact h.issued r hr

/-- An execution that starts. -/
theorem executed (h : Accounted reports w) (ho : Orderly w) (W : Workflow) (payload : Value) :
    Accounted (reports ++ (Invocation.report W payload w).toList) (run (Invocation.execute W payload) w).2 := by
  by_cases hf : (Store.Executions.place w.nextExecution).Fits
  · obtain ⟨logs, hl⟩ := h.logged w.nextExecution
    obtain ⟨r, y, w', hreport, hexecution, hid, hrun, hholds⟩ :=
      Invocation.execute_holds ho h.steady h.heard hf hl W payload
    have ho' := lasting_orderly.abiding.executed W payload w ho
    have ht := Invocation.execute_touches ho (.inl h.unaudited) W payload
    rw [hreport, hrun]
    rw [hrun] at ho' ht
    refine h.extend ho' (hid ▸ ht) (hexecution.trans hid.symm) (hid ▸ hf) hholds ?_ fun _ row hrow hrouting => ?_
    · rw [hid, h.of_nextExecution]
      rfl
    · have hm := mem_attempts hrow hrouting
      rw [(ho.attempts_eq_nil hl).2] at hm
      exact absurd hm List.not_mem_nil
  · obtain ⟨hnone, ht⟩ := Invocation.execute_refused h.steady hf W payload
    rw [hnone, Option.toList_none, List.append_nil]
    exact h.untouched ht

section Continued

variable {mapping : ButtonMapping} {button data : Value} {workflow : Workflow} {x : Execution} {node : Node}
  {context : Context} (h : Accounted reports w) (hw : Forgetful w)
  (hr : Continuation.Resumable mapping button data workflow x node context w)

include h hw hr

/-- What comes of an execution that goes on. -/
theorem continued_ends (message : String) (start : Int) : ∃ result y w' logs,
    run (Continuation.goOnOrFail message workflow x node button context start) (w.accepting x node button) = (result, w') ∧
      HasLogs w.storage x.id logs ∧ y.id = x.id ∧
      (result = .ok y.answer ∨ y.answer = none ∧ ∃ failure, result = .error (.stalled failure)) ∧
      (Continuation.report workflow x node button context (w.accepting x node button)).Holds x.errorMessage.toList logs y w' := by
  have hx := h.recorded x (hw.orderly.hasRecord_of_ready hr.toReady)
  obtain ⟨logs, hl⟩ := h.logged x.id
  obtain ⟨result, y, w', hrun, hid, hresult, hholds⟩ := Continuation.goOnOrFail_ends hw h.steady h.heard hr hx.fits
    hx.bounded hl (hx.texted (beq_iff_eq.1 hr.running)) message start
  exact ⟨result, y, w', logs, hrun, hl, hid, hresult, hholds⟩

/-- An execution that goes on. -/
theorem continued (message : String) (start : Int) :
    Accounted (reports ++ [Continuation.report workflow x node button context (w.accepting x node button)])
      (run (Continuation.goOnOrFail message workflow x node button context start) (w.accepting x node button)).2 := by
  have hx := h.recorded x (hw.orderly.hasRecord_of_ready hr.toReady)
  obtain ⟨result, y, w', logs, hrun, hl, hid, -, hholds⟩ := h.continued_ends hw hr message start
  have ho' := lasting_orderly.abiding.continued message start hw.orderly hr
  have ht := Continuation.goOnOrFail_touches hw.orderly (.inl h.unaudited) message hr start
  rw [hrun] at ho' ht ⊢
  have hstatus : x.status = .running := beq_iff_eq.1 hr.running
  refine h.extend ho' (hid ▸ ht) (Continuation.execution_report.trans hid.symm) (hid ▸ hx.fits) hholds ?_ fun hnone row hrow hrouting => ?_
  · have herror := Report.error_of_running (hx.told.symm.trans (by rw [hstatus]))
    rw [hid, herror, Report.outcome_head?]
  · have hearlier := Report.earlier_eq_nil (hholds.told.symm.trans (by rw [hnone]))
    refine hx.clean (by simpa using hearlier) row ?_
    rw [Storage.attempted, hl.nodeLogs]
    exact List.mem_filter.2 ⟨hrow, by simp [hrouting]⟩

end Continued

end Accounted

/-! ## Sessions -/

/-- There were these reports in some world, and perhaps more since, and they account for what is on record. -/
def Reported (u : World) (earlier : List Report) (w : World) : Prop :=
  ∃ more, Chronicle u (earlier ++ more) w ∧ Accounted (earlier ++ more) w

section Sessions

variable {u w : World} {earlier : List Report}

theorem sparing_reported (u : World) (earlier : List Report) : Sparing Forgetful (Reported u earlier) where
  lasting := lasting_forgetful
  saved := forgetful_saveWorkflow
  closed := enduring_forgetful.closed
  orderly := Forgetful.orderly
  untouched := fun ⟨more, hc, h⟩ _ ht => ⟨more, .untouched hc ht, h.untouched ht⟩
  executed W payload w hw := fun ⟨more, hc, h⟩ => by
    refine ⟨more ++ (Invocation.report W payload w).toList, ?_⟩
    rw [← List.append_assoc]
    exact ⟨.executed W payload hc, h.executed hw.orderly W payload⟩
  continued {mapping} message {button data workflow x node context} start {w} hw := fun ⟨more, hc, h⟩ hr => by
    refine ⟨more ++ [Continuation.report workflow x node button context (w.accepting x node button)], ?_⟩
    rw [← List.append_assoc]
    exact ⟨.continued message start hc hr, h.continued hw hr message start⟩

/-- Whether a step injects no fault, and saves no workflow over files that are not for workflows. -/
def Session.Step.Fair (step : Session.Step) : Prop :=
  step.Straight ∧ step.isSound = true

theorem reported_run {steps : List Session.Step} (hs : ∀ step ∈ steps, step.Fair)
    (hw : Forgetful w ∧ Reported u earlier w) :
    let w' := (Session.run steps w).2
    Forgetful w' ∧ Reported u earlier w' := by
  induction steps generalizing w with
  | nil => exact hw
  | cons step rest ih =>
    obtain ⟨hstraight, hsound⟩ := hs step List.mem_cons_self
    exact ih (fun s hm => hs s (List.mem_cons_of_mem _ hm)) ((sparing_reported u earlier).perform hstraight hsound w hw)

theorem accounted_initial (config : Config) (root : String) : Accounted [] (.initial config root none) where
  unaudited := rfl
  steady _ hp := by cases hp
  logged _ := ⟨[], rfl⟩
  issued _ hr := by cases hr
  recorded _ hx := by cases hx

/-- What is returned of an execution that starts. -/
theorem Accounted.execute_answers {reports : List Report} (h : Accounted reports w) (ho : Orderly w)
    (hf : (Store.Executions.place w.nextExecution).Fits) (W : Workflow) (payload : Value) :
    ∃ y w', run (Invocation.execute W payload) w = (.ok y.answer, w') ∧ y.id = w.nextExecution ∧
      HasRecord w'.storage y.id y := by
  obtain ⟨logs, hl⟩ := h.logged w.nextExecution
  obtain ⟨r, y, w', -, -, hid, hrun, hholds⟩ := Invocation.execute_holds ho h.steady h.heard hf hl W payload
  exact ⟨y, w', hrun, hid, hholds.record⟩

/-- What is returned of a click that is admitted. -/
theorem click_answers (hw : Forgetful w ∧ Reported u earlier w) {message : String} {button data : Value}
    {mapping : ButtonMapping} {v v' : World} {a : Continuation.Admission}
    (hf : run (Store.Mappings.find? message) w = (.ok (some mapping), v))
    (ha : run (Continuation.admission mapping message button (data.orElse (.map []))) v = (.ok a, v')) :
    ∃ y w', run (click message button data) w = (.ok y.answer, w') ∧ y.id = a.execution.id ∧
      HasRecord w'.storage y.id y := by
  have hheedless := (sparing_reported u earlier).abiding.heedless
  have hq := Store.Mappings.hushed_find? message w
  rw [hf] at hq
  have hv := hheedless.quiet hw hq
  rcases hheedless.admission message button (data.orElse (.map [])) hv (Continuation.listed_of_find? hf hq) with
    ⟨fault, v', hr, -⟩ | ⟨b, t, hadmission, -, ⟨hforgetful, more, -, h⟩, hresumable⟩
  · rw [ha] at hr
    cases hr
  · obtain rfl := Except.ok.inj (congrArg Prod.fst (ha.symm.trans hadmission))
    obtain ⟨result, y, w', logs, hrun, -, hid, hresult, hholds⟩ := h.continued_ends hforgetful hresumable message a.start
    have hproceed : run (Continuation.proceed mapping message button (data.orElse (.map []))) v = (result, w') := by
      rw [Continuation.proceed_eq, run_bind_ok hadmission, hrun]
    unfold click
    rw [run_bind_ok hf]
    dsimp only
    rw [run_bind_ok (run_attempt _ _), hproceed]
    rcases hresult with rfl | ⟨hanswer, failure, rfl⟩
    · exact ⟨y, w', rfl, hid, hholds.record⟩
    · -- the click was interrupted, and is noted as one that led nowhere
      have hafter := h.continued hforgetful hresumable message a.start
      rw [hrun] at hafter
      have hmapping : mapping.executionId = y.id := (hforgetful.orderly.id_of_ready hresumable.toReady).2.symm.trans hid.symm
      obtain ⟨others, hothers, -⟩ := hholds.rows
      have haudible : Audible mapping.executionId w' := hmapping ▸ ⟨hafter.steady, hafter.heard, y, hholds.record⟩
      have hfits := fits_nodeLogs (hafter.recorded y hholds.record).fits
      obtain ⟨w'', hnoted, hwrote⟩ := Journal.routingFailed_wrote haudible (hmapping ▸ hfits) (hmapping ▸ hothers)
        mapping.nodeId failure.message
        (Entries.merge [("message_id", .str message), ("button_id", button)] failure.details)
      refine ⟨y, w'', ?_, hid, (hwrote.read_ne (executions_ne_nodeLogs _ _)).trans hholds.record⟩
      have hrefuse : run (Continuation.refuse mapping message button (.stalled failure)) w' = (.ok (), w'') := by
        unfold Continuation.refuse
        rw [run_bind_ok hnoted]
        rfl
      dsimp only
      rw [run_bind_ok hrefuse, hanswer]
      rfl

end Sessions

/-- In every session without an audit service and without injected faults, what is on record of an execution is what its
invocations tell, all of them: it runs as long as a node came to wait for a click in the last one, and else it has failed
if there was a failure in any, the first of which is its error; where it has none, no row tells of one. The error stays,
unless a click is interrupted before it is routed, and the id is returned of an execution that has not failed. -/
theorem outcomes_told (config : Config) (root : String) (before after : List Session.Step)
    (hs : ∀ step ∈ before ++ after, step.Fair) :
    let w := (Session.run before (.initial config root none)).2
    let w' := (Session.run after w).2
    (∃ reports more, Chronicle (.initial config root none) reports w ∧
      Chronicle (.initial config root none) (reports ++ more) w' ∧
      (∀ x, HasRecord w'.storage x.id x → Report.of x.id (reports ++ more) ≠ [] ∧
        (x.status, x.errorMessage) = Report.told (Report.of x.id (reports ++ more)) ∧
        (x.errorMessage = none → ∀ row ∈ w'.storage.attempted x.id, row.status ≠ .failed)) ∧
      ∀ x message, HasRecord w.storage x.id x → x.errorMessage = some message → ∃ y, HasRecord w'.storage x.id y ∧
        y.id = x.id ∧ (y.errorMessage = some message ∨ ∃ r ∈ Report.of x.id more, r.interrupted.isSome = true)) ∧
    (∀ W payload, (Store.Executions.place w'.nextExecution).Fits →
      ∃ y u, run (Invocation.execute W payload) w' = (.ok y.answer, u) ∧ y.id = w'.nextExecution ∧
        HasRecord u.storage y.id y) ∧
    ∀ {message : String} {button data : Value} {mapping : ButtonMapping} {v v' : World} {a : Continuation.Admission},
      run (Store.Mappings.find? message) w' = (.ok (some mapping), v) →
      run (Continuation.admission mapping message button (data.orElse (.map []))) v = (.ok a, v') →
      ∃ y u, run (click message button data) w' = (.ok y.answer, u) ∧ y.id = a.execution.id ∧ HasRecord u.storage y.id y := by
  intro w w'
  have hbefore : ∀ step ∈ before, step.Fair := fun step hm => hs step (List.mem_append_left _ hm)
  have hafter : ∀ step ∈ after, step.Fair := fun step hm => hs step (List.mem_append_right _ hm)
  have hinitial : Reported (.initial config root none) [] (.initial config root none) :=
    ⟨[], .start, accounted_initial config root⟩
  obtain ⟨hforgetful, reports, hc, h⟩ := reported_run hbefore ⟨forgetful_initial config root none, hinitial⟩
  rw [List.nil_append] at hc h
  have hreported : Reported (.initial config root none) reports w :=
    ⟨[], by rwa [List.append_nil], by rwa [List.append_nil]⟩
  obtain ⟨hforgetful', more, hc', h'⟩ := reported_run hafter ⟨hforgetful, hreported⟩
  refine ⟨⟨reports, more, hc, hc', fun x hx => ?_, fun x message hx herror => ?_⟩, fun W payload hf =>
    h'.execute_answers hforgetful'.orderly hf W payload, click_answers ⟨hforgetful', more, hc', h'⟩⟩
  · have hrecorded := h'.recorded x hx
    exact ⟨hrecorded.reported, hrecorded.told, hrecorded.clean⟩
  · have hon : Onward w w' := (living_run after (living_run before (living_initial config root)).1).2
      fun step hm => (hafter step hm).1
    obtain ⟨y, hy, hid⟩ := hon.kept x hx
    refine ⟨y, hy, hid, ?_⟩
    by_cases hstatus : x.status = .running
    · have htold := (h.recorded x hx).told
      rw [hstatus, herror] at htold
      have htold' := (h'.recorded y (hid ▸ hy)).told
      rw [hid, Report.of_append] at htold'
      exact (Report.told_kept htold.symm).imp_left (congrArg Prod.snd htold').trans
    · -- an execution that has ended stays as it is
      obtain rfl := Execution.hasRecord_unique hy ((hon.ended x hx hstatus).hasRecord hx)
      exact .inl herror

namespace Sample

/-- A node that fails beside a message that waits for a click, and behind that a node that fails as well. -/
def halfway (tool : Value) : Workflow :=
  { id := "flow", title := none, status := .published
    nodes := [node "start" "trigger" [], node "broken" "action" [("tool_id", .str "absent")],
      { message "ask" "yes" with config := [("tool_id", tool), ("inputs", .map [("buttons", .list [.map [("id", .str "yes")]])])] },
      node "end" "action" [("tool_id", .str "missing")]]
    edges := [⟨some "start", some "broken", none⟩, ⟨some "start", some "ask", none⟩, ⟨some "ask", some "end", some "yes"⟩] }

/-- The message waits, and then the workflow is saved with another tool for it. -/
def asking (tool : Value) : List Session.Step :=
  [.register .tool sender (some ⟨fun _ call => ⟨0, .ok (answer call)⟩, 0⟩), .execute (halfway (.str sender)) .null,
    .saveWorkflow (halfway tool)]

/-- A click on the message. -/
def clicking : List Session.Step :=
  [.click "m" (.str "yes") .null]

theorem fair_asking (tool : Value) : ∀ step ∈ asking tool ++ clicking, step.Fair := by
  intro step hm
  simp only [asking, clicking, List.cons_append, List.nil_append, List.mem_cons, List.not_mem_nil, or_false] at hm
  rcases hm with rfl | rfl | rfl | rfl
  · exact ⟨trivial, rfl⟩
  · exact ⟨trivial, rfl⟩
  · exact ⟨by show '/' ∉ "flow".toList; decide, rfl⟩
  · exact ⟨trivial, rfl⟩

/-- The status and the error of the first execution. -/
def outcome (w : World) : Option (RunStatus × Option String) :=
  (w.storage.execution? execution).map fun x => (x.status, x.errorMessage)

end Sample

/-- A node has failed when a click goes on, and another fails behind that: the first failure stays the error. -/
theorem outcomes_told_sample :
    let before := Sample.asking (.str Sample.sender)
    let w := (Session.run before (.initial {} "" none)).2
    let w' := (Session.run Sample.clicking w).2
    (∀ step ∈ before ++ Sample.clicking, step.Fair) ∧
      Sample.outcome w = some (.running, some "Node 'broken' failed: Tool not found: absent") ∧
      ∃ x reports, HasRecord w'.storage Sample.execution x ∧ Chronicle (.initial {} "" none) reports w' ∧
        Report.told (Report.of x.id reports) = (.failed, some "Node 'broken' failed: Tool not found: absent") := by
  dsimp only
  have hfair := Sample.fair_asking (.str Sample.sender)
  have h : (Sample.outcome (Session.run (Sample.asking (.str Sample.sender)) (.initial {} "" none)).2,
      ((Session.run Sample.clicking (Session.run (Sample.asking (.str Sample.sender))
        (.initial {} "" none)).2).2.storage.execution? Sample.execution).map fun x => (x.id, x.status, x.errorMessage)) =
      (some (.running, some "Node 'broken' failed: Tool not found: absent"),
        some (Sample.execution, .failed, some "Node 'broken' failed: Tool not found: absent")) := by
    decide +kernel
  obtain ⟨hwaits, hends⟩ := Prod.mk.inj h
  obtain ⟨x, hx, heq⟩ := Option.map_eq_some_iff.1 hends
  obtain ⟨hid, houtcome⟩ := Prod.mk.inj heq
  have hw' : Orderly (Session.run Sample.clicking (Session.run (Sample.asking (.str Sample.sender)) (.initial {} "" none)).2).2 :=
    orderly_run _ (orderly_run _ (orderly_initial {} "" none))
  have hrecord := (hw'.hasRecord_iff _ _).2 hx
  obtain ⟨⟨reports, more, -, hc, hrecorded, -⟩, -⟩ := outcomes_told {} "" _ _ hfair
  obtain ⟨-, htold, -⟩ := hrecorded x (hid ▸ hrecord)
  exact ⟨hfair, hwaits, x, reports ++ more, hrecord, hc, htold.symm.trans houtcome⟩

/-- A node has failed when a click is interrupted, and the record tells of the interruption alone. -/
theorem not_kept_when_interrupted :
    let w := (Session.run (Sample.asking (.list [.str Sample.sender])) (.initial {} "" none)).2
    Sample.outcome w = some (.running, some "Node 'broken' failed: Tool not found: absent") ∧
      Sample.outcome (Session.run Sample.clicking w).2 =
        some (.failed, some "Workflow continuation failed: unhashable type: 'list'") := by
  have h : (Sample.outcome (Session.run (Sample.asking (.list [.str Sample.sender])) (.initial {} "" none)).2,
      Sample.outcome (Session.run Sample.clicking
        (Session.run (Sample.asking (.list [.str Sample.sender])) (.initial {} "" none)).2).2) =
      (some (.running, some "Node 'broken' failed: Tool not found: absent"),
        some (.failed, some "Workflow continuation failed: unhashable type: 'list'")) := by
    decide +kernel
  exact Prod.mk.inj h

end WorkGraph
