import WorkGraph.Proofs.Chronicle
import WorkGraph.Proofs.Passages

/-!
# Sessions with two audit services

Whatever is done in a session, it comes to the same with one audit service and with another, or with none, as long as they
are sound and nothing fails in the storage: the same answers, the same calls, the same files but for the sessions on record
(`Attended`, `Attended.run`). No service is noticed therefore (`audit_inaudible`), unless it answers with what cannot be
taken apart (`not_always_inaudible`).
-/

namespace WorkGraph

open Engine

/-! ## Clicks that are admitted -/

namespace Continuation

/-- What is done for a click once its workflow and its execution are known, up to where the click is accepted. -/
def readied (mapping : ButtonMapping) (message : String) (button data : Value) (workflow : Workflow) (x : Execution) :
    Engine (Node × Context) :=
  match workflow.node? mapping.nodeId with
  | none => stall .nodeMissing x.id mapping.nodeId
  | some node => do
    warnOfButton mapping x button
    if !(← Store.Claims.claim message x.id) then
      stall (.alreadyClaimed message) x.id mapping.nodeId
    let context ← restoreOrRelease message x node button data
    Engine.log .info "continuation" "continuation_started"
      [("execution_id", .str x.id), ("node_id", .str node.id), ("button_id", button)]
    return (node, context)

/-- What goes on reads nothing of a session. -/
theorem goOnOrFail_inSession (message : String) (workflow : Workflow) (x : Execution) (session : Option String) (node : Node)
    (button : Value) (context : Context) (start : Int) :
    goOnOrFail message workflow (x.inSession session) node button context start =
      goOnOrFail message workflow x node button context start := by
  simp only [goOnOrFail, goOn, noteUnrouted, totalDuration, Execution.inSession]

theorem admission_eq (mapping : ButtonMapping) (message : String) (button data : Value) :
    admission mapping message button data = do
      let start ← Engine.reading
      let workflow ← workflowOf mapping
      let x ← executionOf mapping
      let ready ← readied mapping message button data workflow x
      return ⟨start, workflow, x, ready.1, ready.2⟩ := by
  unfold admission readied
  congr; funext start; congr; funext workflow; congr; funext x
  cases workflow.node? mapping.nodeId with
  | none => rfl
  | some node =>
    simp only [bind_assoc]
    congr; funext _; congr; funext claimed
    cases claimed <;> simp

end Continuation

theorem Bond.readied {odd : String → Prop} {R : World → World → Prop} (h : Bond odd R) (mapping : ButtonMapping)
    (message : String) (button data : Value) (workflow : Workflow) {x : Execution}
    (hl : ¬odd (Store.NodeLogs.place x.id).path) :
    Abreast R (Continuation.readied mapping message button data workflow x) := by
  unfold Continuation.readied
  split
  · exact abreast_throw _
  · refine abreast_bind (h.warnOfButton _ _ _) fun _ => abreast_bind (h.claim _ _) fun claimed => ?_
    refine abreast_ite (abreast_bind (abreast_throw _) fun _ => ?_) ?_ <;>
      exact abreast_bind (h.restoreOrRelease hl _ _ _ _) fun _ => abreast_bind h.log fun _ => abreast_pure _

theorem Bond.refuse {odd : String → Prop} {R : World → World → Prop} (h : Bond odd R) {mapping : ButtonMapping}
    (hl : ¬odd (Store.NodeLogs.place mapping.executionId).path) (message : String) (button : Value) (fault : Fault) :
    Abreast R (Continuation.refuse mapping message button fault) := by
  unfold Continuation.refuse
  split
  · exact abreast_bind (h.routingFailed hl _ _ _) fun _ => abreast_pure _
  · exact abreast_bind (h.logFault _ _) fun _ => abreast_bind (h.routingFailed hl _ _ _) fun _ => abreast_pure _

namespace Kindred

variable {a b : Option Auditor} {trail : List Notice} {w w' : World}

/-- The execution of a mapping, whose session is known on neither side. -/
theorem executionOf (h : Kindred a b trail w w') (mapping : ButtonMapping) :
    (∃ fault, run (Continuation.executionOf mapping) w = (.error fault, w) ∧
      run (Continuation.executionOf mapping) w' = (.error fault, w')) ∨
    ∃ x session, run (Continuation.executionOf mapping) w = (.ok x, w) ∧
      run (Continuation.executionOf mapping) w' = (.ok (x.inSession session), w') := by
  rcases h.record_cases mapping.executionId with hread | ⟨x, session, -, hx, hx'⟩
  · -- the same is read in both worlds, and nothing is changed
    have hboth : Abreast (fun u u' => u = w ∧ u' = w') (Continuation.executionOf mapping) := by
      refine abreast_bind (abreast_bind ?entering fun _ => abreast_bind ?read fun v =>
        abreast_ite (abreast_bind ?stamp fun _ => abreast_map _ (abreast_ofExcept _)) (abreast_pure _)) fun found => ?_
      case entering =>
        rintro _ _ ⟨rfl, rfl⟩
        exact ⟨.ok (), _, _, run_entering_steady h.steady _, run_entering_steady h.steady' _, rfl, rfl⟩
      case read =>
        rintro _ _ ⟨rfl, rfl⟩
        exact ⟨_, _, _, Store.run_readFile _ _ _, (Store.run_readFile _ _ _).trans (by rw [hread]), rfl, rfl⟩
      case stamp =>
        rintro _ _ ⟨rfl, rfl⟩
        exact ⟨_, _, _, run_stamp _, (run_stamp _).trans (by rw [h.clock]), rfl, rfl⟩
      cases found with
      | none => exact abreast_throw _
      | some x => exact abreast_ite (abreast_pure _) (abreast_throw _)
    obtain ⟨result, u, u', hr, hr', rfl, rfl⟩ := hboth w w' ⟨rfl, rfl⟩
    cases result with
    | error fault => exact .inl ⟨fault, hr, hr'⟩
    | ok x => exact .inr ⟨x, x.historySession, hr, hr'⟩
  · unfold Continuation.executionOf
    rw [run_bind_ok (Store.Executions.run_find? h.steady hx), run_bind_ok (Store.Executions.run_find? h.steady' hx')]
    dsimp only
    rw [show (x.inSession session).isRunning = x.isRunning from rfl]
    by_cases hrunning : x.isRunning = true
    · rw [if_pos hrunning, if_pos hrunning]
      exact .inr ⟨x, session, rfl, rfl⟩
    · rw [if_neg hrunning, if_neg hrunning]
      exact .inl ⟨_, rfl, rfl⟩

/-- What is done for a click before it is routed. -/
theorem admission (h : Kindred a b trail w w') (mapping : ButtonMapping) (message : String) (button data : Value) :
    (∃ fault u u', run (Continuation.admission mapping message button data) w = (.error fault, u) ∧
      run (Continuation.admission mapping message button data) w' = (.error fault, u') ∧ Kindred a b trail u u') ∨
    ∃ adm session u u', run (Continuation.admission mapping message button data) w = (.ok adm, u) ∧
      run (Continuation.admission mapping message button data) w' =
        (.ok { adm with execution := adm.execution.inSession session }, u') ∧ Kindred a b trail u u' := by
  have hbond := kindred_bond a b trail
  rw [Continuation.admission_eq, run_bind_ok (run_reading w), run_bind_ok (run_reading w'), h.clock]
  obtain ⟨workflow, v, v', hr, hr', hv⟩ := hbond.workflowOf mapping w w' h
  cases workflow with
  | error fault => exact .inl ⟨fault, v, v', run_bind_error hr, run_bind_error hr', hv⟩
  | ok workflow =>
    rw [run_bind_ok hr, run_bind_ok hr']
    rcases hv.executionOf mapping with ⟨fault, hx, hx'⟩ | ⟨x, session, hx, hx'⟩
    · exact .inl ⟨fault, v, v', run_bind_error hx, run_bind_error hx', hv⟩
    · obtain ⟨ready, u, u', hn, hn', hu⟩ := hbond.readied mapping message button data workflow
        (not_ofRecord_nodeLogs x.id) v v' hv
      have hn' : run (Continuation.readied mapping message button data workflow (x.inSession session)) v' = (ready, u') :=
        hn'
      rw [run_bind_ok hx, run_bind_ok hx']
      cases ready with
      | error fault => exact .inl ⟨fault, u, u', run_bind_error hn, run_bind_error hn', hu⟩
      | ok ready => exact .inr ⟨⟨_, workflow, x, _, _⟩, session, u, u', run_bind_ok hn, run_bind_ok hn', hu⟩

/-- A workflow is saved, over whatever file. -/
theorem saveWorkflow (W : Workflow) : Abreast (Kindred a b trail) (Store.Workflows.save W) := by
  have hbond := kindred_bond a b trail
  refine abreast_bind (hbond.entering _) fun _ => abreast_bind (abreast_ofExcept _) fun _ =>
    abreast_bind (fun w w' h => ?_) fun _ => abreast_pure _
  have hwrote {v : World} (hv : v.storage.obstacle? (Store.Workflows.place W.id) = none) : Wrote (Store.Workflows.place W.id)
      W.toValue v { v with storage := { v.storage with files := v.storage.files.set _ (.value W.toValue) } } :=
    ⟨_, by rw [Storage.write, hv], .refl _⟩
  have hsame := h.storage.obstacle? (Store.Workflows.place W.id)
  rw [Store.run_writeFile, Store.run_writeFile, Storage.write, Storage.write, hsame]
  cases hobstacle : w.storage.obstacle? (Store.Workflows.place W.id) with
  | some fault => exact ⟨_, w, w', rfl, rfl, h⟩
  | none =>
    exact ⟨_, _, _, rfl, rfl, { h with
      storage := h.storage.set (.same _)
      told := h.told.of_same rfl rfl rfl fun _ hx => Touches.recorded_saved (hwrote hobstacle) hx
      told' := h.told'.of_same rfl rfl rfl fun _ hx => Touches.recorded_saved (hwrote (hsame.trans hobstacle)) hx }⟩

end Kindred

/-! ## Steps -/

/-- Two worlds that differ in their audit services alone, what the services were told of, and the executions that this tells
of. -/
structure Attended (a b : Option Auditor) (passages : List Passage) (w w' : World) : Prop where
  forgetful : Forgetful w
  followed : Followed passages w
  kindred : Kindred a b (passages.flatMap Passage.notices) w w'

/-- The same, with passages behind earlier ones, each of another execution. -/
def Attending (a b : Option Auditor) (earlier : List Passage) (w w' : World) : Prop :=
  ∃ more, Attended a b (earlier ++ more) w w' ∧ (more.map Passage.execution).Nodup

namespace Attended

variable {a b : Option Auditor} {passages : List Passage} {w w' : World} {α : Type}

/-- Something was done for no execution. -/
theorem kept (h : Attended a b passages w w') {act : Engine α}
    (ha : Abreast (Kindred a b (passages.flatMap Passage.notices)) act) (hf : Keeps Forgetful act)
    (ht : Touches none w (run act w).2) :
    ∃ result u u', run act w = (result, u) ∧ run act w' = (result, u') ∧ Attended a b passages u u' := by
  obtain ⟨result, u, u', hr, hr', hu⟩ := ha w w' h.kindred
  have hforgetful := hf w h.forgetful
  rw [hr] at hforgetful ht
  exact ⟨result, u, u', hr, hr', hforgetful, h.followed.untouched ht, hu⟩

theorem hushed (h : Attended a b passages w w') {act : Engine α} (hq : Hushed act)
    (ha : Abreast (Kindred a b (passages.flatMap Passage.notices)) act) :
    ∃ result u u', run act w = (result, u) ∧ run act w' = (result, u') ∧ Attended a b passages u u' :=
  h.kept ha (lasting_forgetful.hushed hq) (.of_quiet (hq w))

/-- An execution that starts adds its passage. -/
theorem execute (h : Attended a b passages w w') (W : Workflow) (payload : Value) :
    ∃ p result u u', run (Invocation.execute W payload) w = (result, u) ∧
      run (Invocation.execute W payload) w' = (result, u') ∧ p.execution = w.nextExecution ∧
      Attended a b (passages ++ [p]) u u' := by
  have ho := h.forgetful.orderly
  have hforgetful := lasting_forgetful.abiding.executed W payload w h.forgetful
  obtain ⟨logs, hl⟩ := h.followed.logged w.nextExecution
  rcases h.kindred.execute ho hl W payload with
    ⟨hf, fault, u, u', hr, hr', hi, hu⟩ |
    ⟨hf, y, rows, now, result, u, u', hr, hr', hid, hworkflow, hy, hl', hclosed, hu⟩
  · have ht := (Invocation.execute_refused h.kindred.steady hf W payload).2
    rw [hr] at hforgetful ht
    refine ⟨⟨w.nextExecution, W.id, true, [], none⟩, _, u, u', hr, hr', rfl, hforgetful,
      h.followed.refused ht hi W.id, ?_⟩
    rw [List.flatMap_append]
    exact hu
  · obtain ⟨_, z, v, -, -, hz, hrun, hholds⟩ :=
      Invocation.execute_holds ho h.kindred.steady h.kindred.heard hf hl W payload
    obtain ⟨-, rfl⟩ := Prod.mk.inj (hr.symm.trans hrun)
    obtain rfl := Execution.hasRecord_unique (hid.trans hz.symm ▸ hy) hholds.record
    have ht := Invocation.execute_touches ho (.inr ⟨h.kindred.steady, h.kindred.heard⟩) W payload
    rw [hr] at hforgetful ht
    have hnone : Passage.of y.id passages = [] := hid ▸ h.followed.of_nextExecution
    refine ⟨⟨y.id, W.id, true, rows, some ⟨y.status, y.errorMessage, now⟩⟩, result, u, u', hr, hr', hid, hforgetful,
      h.followed.extend hforgetful.orderly (hid ▸ ht) rfl hworkflow.symm ⟨fun _ => hnone, fun _ => rfl⟩
        (fun q hq => by rw [hnone] at hq; cases hq) hclosed rfl (hid ▸ hf) hy hholds.bounded hholds.texted
        (hid ▸ hl) hl' ?_, ?_⟩
    · exact List.filter_eq_self.2 fun row hrow => (hclosed row hrow).isOfNode
    · rw [hworkflow] at hu
      rw [List.flatMap_append]
      simpa [Passage.notices, List.append_assoc] using hu

/-- An execution that goes on behind a click adds its passage. -/
theorem goOnOrFail {v' : World} {mapping : ButtonMapping} {button data : Value} {workflow : Workflow} {x : Execution}
    {node : Node} {context : Context} (hw : Forgetful w ∧ Followed passages w)
    (hk : Kindred a b (passages.flatMap Passage.notices) (w.accepting x node button) v')
    (hr : Continuation.Resumable mapping button data workflow x node context w) (message : String) (start : Int) :
    ∃ p result u u',
      run (Continuation.goOnOrFail message workflow x node button context start) (w.accepting x node button) = (result, u) ∧
      run (Continuation.goOnOrFail message workflow x node button context start) v' = (result, u') ∧
      Attended a b (passages ++ [p]) u u' := by
  have ho := hw.1.orderly
  obtain ⟨hf, hb, htexted, hoverheard⟩ := hw.2.recorded x (ho.hasRecord_of_ready hr.toReady)
  obtain ⟨logs, hl⟩ := hw.2.logged x.id
  obtain ⟨y, rows, extra, now, result, u, u', hrun, hrun', hid, hworkflow, hy, hl', hclosed, hextra, hu⟩ :=
    hk.goOnOrFail hw.1 hr hf hb hl message start
  have hforgetful := lasting_forgetful.abiding.continued message start hw.1 hr
  have ht := Continuation.goOnOrFail_touches ho (.inr ⟨hk.steady, hk.heard⟩) message hr start
  obtain ⟨_, z, v, hrun₂, hz, -, hholds⟩ := Continuation.goOnOrFail_ends hw.1 hk.steady hk.heard hr hf hb hl
    (htexted (beq_iff_eq.1 hr.running)) message start
  obtain ⟨-, rfl⟩ := Prod.mk.inj (hrun.symm.trans hrun₂)
  obtain rfl := Execution.hasRecord_unique (hid.trans hz.symm ▸ hy) hholds.record
  rw [hrun] at hforgetful ht
  refine ⟨⟨y.id, y.workflowId, false, rows, some ⟨y.status, y.errorMessage, now⟩⟩, result, u, u', hrun, hrun',
    hforgetful, hw.2.extend hforgetful.orderly (hid ▸ ht) rfl rfl
      ⟨fun hno => (Bool.false_ne_true hno).elim, fun hno => ?_⟩ (fun q hq => ?_) hclosed rfl (hid ▸ hf) hy hholds.bounded hholds.texted (hid ▸ hl) hl' ?_, ?_⟩
  · exact absurd (hid ▸ hno) hoverheard.ne_nil
  · rw [hid] at hq
    exact ⟨(hoverheard.workflow q hq).trans hworkflow.symm, hoverheard.ended q hq⟩
  · rw [List.filter_append, List.filter_eq_self.2 fun row hrow => (hclosed row hrow).isOfNode,
      List.filter_eq_nil_iff.2 fun row hrow => by simp [hextra row hrow], List.append_nil]
  · rw [List.flatMap_append]
    simpa [Passage.notices] using hu

/-- A click on a message with a mapping. -/
theorem proceed (h : Attended a b passages w w') {mapping : ButtonMapping} (hm : Continuation.Listed mapping w)
    (message : String) (button data : Value) :
    ∃ more result u u', run (Continuation.proceed mapping message button data) w = (result, u) ∧
      run (Continuation.proceed mapping message button data) w' = (result, u') ∧ more.length ≤ 1 ∧
      Attended a b (passages ++ more) u u' := by
  have hheedless : Heedless fun v => Forgetful v ∧ Followed passages v :=
    { quiet := fun hw hq => ⟨hw.1.quiet hq, hw.2.untouched (.of_quiet hq)⟩
      claimed := fun {message _ _ _ _} hw hc => ⟨lasting_forgetful.claimed hw.1 hc, hw.2.untouched
        (.of_wrote hc (fun _ => Apart.claims_ne message (by decide) _ _) (claims_ne_nodeLogs message))⟩
      released := fun message w hw =>
        ⟨lasting_forgetful.released message hw.1, hw.2.untouched (.of_released message w)⟩ }
  rw [Continuation.proceed_eq]
  rcases hheedless.admission message button data ⟨h.forgetful, h.followed⟩ hm with
    ⟨fault, u, hr, hu⟩ | ⟨adm, u, hr, -, hu, hresumable⟩
  · rcases h.kindred.admission mapping message button data with
      ⟨fault', v, v', hv, hv', hk⟩ | ⟨adm, session, v, v', hv, -, -⟩
    · obtain ⟨hfault, rfl⟩ := Prod.mk.inj (hr.symm.trans hv)
      obtain rfl := Except.error.inj hfault
      exact ⟨[], _, u, v', run_bind_error hv, run_bind_error hv', Nat.zero_le _, hu.1, by simpa using hu.2, by simpa using hk⟩
    · exact absurd (Prod.mk.inj (hr.symm.trans hv)).1 nofun
  · rcases h.kindred.admission mapping message button data with
      ⟨fault', v, v', hv, -, -⟩ | ⟨adm', session, v, v', hv, hv', hk⟩
    · exact absurd (Prod.mk.inj (hr.symm.trans hv)).1 nofun
    · obtain ⟨hadm, rfl⟩ := Prod.mk.inj (hr.symm.trans hv)
      obtain rfl := Except.ok.inj hadm
      obtain ⟨p, result, t, t', ht, ht', hp⟩ := goOnOrFail hu hk hresumable message adm.start
      have hsame : run (Continuation.admission mapping message button data >>= fun b => Continuation.goOnOrFail message
          b.workflow b.execution b.node button b.context b.start) w' = (result, t') := by
        rw [run_bind_ok hv', Continuation.goOnOrFail_inSession, ht']
      exact ⟨[p], result, t, t', by rw [run_bind_ok hr]; exact ht, hsame, Nat.le_refl _, hp⟩

/-- A click. -/
theorem click (h : Attended a b passages w w') (message : String) (button data : Value) :
    ∃ more result u u', run (WorkGraph.click message button data) w = (result, u) ∧
      run (WorkGraph.click message button data) w' = (result, u') ∧ more.length ≤ 1 ∧
      Attended a b (passages ++ more) u u' := by
  have hbond (passages : List Passage) := kindred_bond a b (passages.flatMap Passage.notices)
  have hnone {v v' : World} (hv : Attended a b passages v v') : Attended a b (passages ++ []) v v' := by
    rwa [List.append_nil]
  unfold WorkGraph.click
  obtain ⟨found, v, v', hr, hr', hv⟩ :=
    h.hushed (Store.Mappings.hushed_find? message) ((hbond passages).findMapping message)
  have hq := Store.Mappings.hushed_find? message w
  rw [hr] at hq
  cases found with
  | error fault => exact ⟨[], _, v, v', run_bind_error hr, run_bind_error hr', Nat.zero_le _, hnone hv⟩
  | ok found =>
    rw [run_bind_ok hr, run_bind_ok hr']
    cases found with
    | none =>
      obtain ⟨result, u, u', hl, hl', hu⟩ := hv.hushed
        (hushed_bind (hushed_log (show "continuation_mapping_not_found" ≠ _ by decide)) fun _ => hushed_pure none)
        (abreast_bind (hbond passages).log fun _ => abreast_pure none)
      exact ⟨[], result, u, u', hl, hl', Nat.zero_le _, hnone hu⟩
    | some mapping =>
      obtain ⟨more, result, u, u', hp, hp', hlength, hu⟩ :=
        hv.proceed (Continuation.listed_of_find? hr hq) message button (data.orElse (.map []))
      dsimp only
      rw [run_bind_ok (run_attempt _ v), run_bind_ok (run_attempt _ v'), hp, hp']
      cases result with
      | ok answer => exact ⟨more, _, u, u', rfl, rfl, hlength, hu⟩
      | error fault =>
        obtain ⟨result, t, t', ht, ht', htold⟩ := hu.kept
          ((hbond (passages ++ more)).refuse (not_ofRecord_nodeLogs mapping.executionId) message button fault)
          (lasting_forgetful.abiding.refuse mapping message button fault)
          (.of_refused hu.forgetful.orderly mapping message button fault)
        cases result with
        | ok _ => exact ⟨more, _, t, t', run_bind_ok ht, run_bind_ok ht', hlength, htold⟩
        | error fault => exact ⟨more, _, t, t', run_bind_error ht, run_bind_error ht', hlength, htold⟩

end Attended

namespace Attending

variable {a b : Option Auditor} {earlier : List Passage} {w w' : World} {α : Type}

theorem hushed {act : Engine α} (hq : Hushed act)
    (ha : ∀ passages : List Passage, Abreast (Kindred a b (passages.flatMap Passage.notices)) act) :
    Abreast (Attending a b earlier) act := by
  rintro w w' ⟨more, h, hn⟩
  obtain ⟨result, u, u', hr, hr', hu⟩ := h.hushed hq (ha _)
  exact ⟨result, u, u', hr, hr', more, hu, hn⟩

theorem execute (W : Workflow) (payload : Value) : Abreast (Attending a b earlier) (Invocation.execute W payload) := by
  rintro w w' ⟨more, h, hn⟩
  obtain ⟨p, result, u, u', hr, hr', hp, hu⟩ := h.execute W payload
  refine ⟨result, u, u', hr, hr', more ++ [p], by rwa [← List.append_assoc], ?_⟩
  rw [List.map_append, List.nodup_append]
  refine ⟨hn, by simp, fun id hm other ho he => not_issued_nextExecution w ?_⟩
  obtain ⟨q, hq, rfl⟩ := List.mem_map.1 hm
  have hissued := h.followed.issued q (List.mem_append_right _ hq)
  have hother : other = p.execution := by simpa using ho
  rwa [he, hother, hp] at hissued

end Attending

/-- Whether a step injects no fault, saves no workflow over files that are not for workflows, and leaves the connection to
the audit service open. -/
def Session.Step.Open (step : Session.Step) : Prop :=
  step.Fair ∧ step ≠ .closeAudit

namespace Attended

variable {a b : Option Auditor} {passages : List Passage} {w w' : World}

/-- A step comes to the same in both worlds, and executions go on in it once at most. -/
theorem perform (h : Attended a b passages w w') {step : Session.Step} (hs : step.Open) :
    ∃ more answer u u', run (Session.perform step) w = (answer, u) ∧ run (Session.perform step) w' = (answer, u') ∧
      Attended a b (passages ++ more) u u' ∧ (more.map Passage.execution).Nodup := by
  have hbond (passages : List Passage) := kindred_bond a b (passages.flatMap Passage.notices)
  have hnone {v v' : World} (hv : Attended a b passages v v') : Attended a b (passages ++ []) v v' := by
    rwa [List.append_nil]
  -- what is done for no execution adds no passage
  have hkept {α : Type} {act : Engine α} (f : α → Session.Answer)
      (ha : Abreast (Kindred a b (passages.flatMap Passage.notices)) act) (hf : Keeps Forgetful act)
      (ht : Touches none w (run act w).2) : ∃ more answer u u', run (f <$> act) w = (answer, u) ∧
        run (f <$> act) w' = (answer, u') ∧ Attended a b (passages ++ more) u u' ∧ (more.map Passage.execution).Nodup := by
    obtain ⟨answer, u, u', hr, hr', hu⟩ := h.kept (abreast_map f ha) (keeps_map f hf) (by rwa [run_map_snd])
    exact ⟨[], answer, u, u', hr, hr', hnone hu, .nil⟩
  have hmany {α : Type} {act : Engine α} (f : α → Session.Answer) (ha : Abreast (Attending a b passages) act) :
      ∃ more answer u u', run (f <$> act) w = (answer, u) ∧ run (f <$> act) w' = (answer, u') ∧
        Attended a b (passages ++ more) u u' ∧ (more.map Passage.execution).Nodup := by
    obtain ⟨answer, u, u', hr, hr', more, hu, hn⟩ := abreast_map f ha w w' ⟨[], hnone h, .nil⟩
    exact ⟨more, answer, u, u', hr, hr', hu, hn⟩
  have hidle (ha : Abreast (Kindred a b (passages.flatMap Passage.notices)) (Session.perform step))
      (hmild : step.isMild = true) (hi : Idle w (run (Session.perform step) w).2) :
      ∃ more answer u u', run (Session.perform step) w = (answer, u) ∧ run (Session.perform step) w' = (answer, u') ∧
        Attended a b (passages ++ more) u u' ∧ (more.map Passage.execution).Nodup := by
    obtain ⟨answer, u, u', hr, hr', hu⟩ := h.kept ha (lasting_forgetful.perform hmild) (.of_idle hi)
    exact ⟨[], answer, u, u', hr, hr', hnone hu, .nil⟩
  obtain ⟨⟨hstraight, hsound⟩, hopen⟩ := hs
  cases step with
  | execute W payload => exact hmany _ (Attending.execute W payload)
  | executeStored id payload =>
    exact hmany _ (Bond.executeStored hbond Attending.hushed Attending.execute id payload)
  | trigger trigger payload => exact hmany _ (Bond.fire hbond Attending.hushed Attending.execute trigger payload)
  | click message button data =>
    obtain ⟨more, result, u, u', hr, hr', hlength, hu⟩ := h.click message button data
    have hn : (more.map Passage.execution).Nodup := by
      match more, hlength with
      | [], _ => exact .nil
      | [p], _ => exact List.pairwise_singleton _ _
    cases result with
    | ok answer => exact ⟨more, _, u, u', run_bind_ok hr, run_bind_ok hr', hu, hn⟩
    | error fault => exact ⟨more, _, u, u', run_bind_error hr, run_bind_error hr', hu, hn⟩
  | saveWorkflow W =>
    refine hkept _ (Kindred.saveWorkflow W) (forgetful_saveWorkflow W) ?_
    rcases Store.Workflows.save_cases W w with ⟨u, hr, hw⟩ | ⟨fault, u, hr, hq⟩ <;> rw [hr]
    · exact .of_saved hstraight hw
    · exact .of_quiet hq
  | setWorkflowStatus id status =>
    exact hkept _ ((hbond passages).setWorkflowStatus Kindred.saveWorkflow id status)
      (enduring_forgetful.setStatus id status) (.of_setStatus h.forgetful.orderly id status)
  | register role name collaborator =>
    refine hidle (abreast_bind ((hbond passages).change role (·.set name collaborator)) fun _ => abreast_pure _) rfl ?_
    cases role <;> exact ⟨rfl, rfl, rfl, id, rfl, rfl, rfl⟩
  | unregister role name =>
    refine hidle (abreast_bind ((hbond passages).change role (·.erase name)) fun _ => abreast_pure _) rfl ?_
    cases role <;> exact ⟨rfl, rfl, rfl, id, rfl, rfl, rfl⟩
  | advance ticks =>
    exact hidle (abreast_bind ((hbond passages).advance ticks) fun _ => abreast_pure _) rfl
      ⟨rfl, rfl, rfl, id, rfl, rfl, rfl⟩
  | inject failpoint => cases hsound
  | forget =>
    refine hidle (abreast_bind (abreast_modify fun w w' h => ?_) fun _ => abreast_pure _) rfl
      ⟨rfl, rfl, rfl, id, rfl, rfl, rfl⟩
    exact { h with told := h.told.forgotten, told' := h.told'.forgotten }
  | closeAudit => exact absurd rfl hopen

/-- By induction on the steps: each of them adds passages of its own, and after any of them there are two such worlds
again. -/
theorem run (h : Attended a b passages w w') {steps : List Session.Step} (hs : ∀ step ∈ steps, step.Open) :
    ∃ stages : List (List Passage), stages.length = steps.length ∧
      (∀ stage ∈ stages, (stage.map Passage.execution).Nodup) ∧
      ∀ i, (Session.run (steps.take i) w').1 = (Session.run (steps.take i) w).1 ∧
        Attended a b (passages ++ (stages.take i).flatten) (Session.run (steps.take i) w).2
          (Session.run (steps.take i) w').2 := by
  induction steps generalizing passages w w' with
  | nil => exact ⟨[], rfl, nofun, fun i => ⟨by rw [List.take_nil]; rfl, by simpa [Session.run] using h⟩⟩
  | cons step rest ih =>
    obtain ⟨more, answer, v, v', hr, hr', hv, hn⟩ := h.perform (hs step List.mem_cons_self)
    obtain ⟨stages, hlength, hall, hat⟩ := ih hv fun s hm => hs s (List.mem_cons_of_mem _ hm)
    refine ⟨more :: stages, congrArg (· + 1) hlength, List.forall_mem_cons.2 ⟨hn, hall⟩, fun i => ?_⟩
    cases i with
    | zero => exact ⟨rfl, by simpa [Session.run] using h⟩
    | succ i =>
      obtain ⟨hanswers, hattended⟩ := hat i
      have hrun {w v : World} (hr : Engine.run (Session.perform step) w = (answer, v)) :
          Session.run ((step :: rest).take (i + 1)) w =
            (answer :: (Session.run (rest.take i) v).1, (Session.run (rest.take i) v).2) := by
        rw [List.take_succ_cons, Session.run, hr]
      rw [hrun hr, hrun hr', hanswers]
      refine ⟨rfl, ?_⟩
      rwa [List.take_succ_cons, List.flatten_cons, ← List.append_assoc]

/-- In the beginning nothing was told. -/
theorem initial (config : Config) (root : String) (ha : ∀ c, a = some c → c.Sound) (hb : ∀ c, b = some c → c.Sound) :
    Attended a b [] (.initial config root a) (.initial config root b) := by
  have htells {a : Option Auditor} (ha : ∀ c, a = some c → c.Sound) : Told a [] (.initial config root a) :=
    ⟨⟨by cases a <;> rfl, rfl, ha, fun hnone => by rw [hnone]; rfl⟩, nofun, nofun⟩
  exact
    { forgetful := forgetful_initial config root a
      followed := ⟨fun _ => ⟨[], rfl⟩, nofun, nofun, fun front p back hsplit => by simp at hsplit,
        fun _ _ _ => rfl, nofun⟩
      kindred :=
        ⟨⟨rfl, rfl, rfl, rfl, rfl, rfl, ⟨rfl, rfl, fun _ => .same _⟩, nofun, nofun⟩, htells ha, htells hb⟩ }

end Attended

/-! ## No service is noticed -/

namespace Kindred

variable {a b : Option Auditor} {trail : List Notice} {w w' : World}

/-- What is on record is the same but for the session. -/
theorem execution?_eq (h : Kindred a b trail w w') (id : String) :
    (w'.storage.execution? id).map (·.inSession none) = (w.storage.execution? id).map (·.inSession none) := by
  unfold Storage.execution?
  rcases h.record_cases id with hsame | ⟨x, session, -, hx, hx'⟩
  · rw [hsame]
  · rw [show w.storage.read (Store.Executions.place id) .null = .ok x.toValue from hx,
      show w'.storage.read (Store.Executions.place id) .null = .ok (x.inSession session).toValue from hx']
    dsimp only
    rw [Execution.load_toValue, Execution.load_toValue]
    rfl

theorem nodeLogs_eq (h : Kindred a b trail w w') (id : String) : w'.storage.nodeLogs id = w.storage.nodeLogs id := by
  unfold Storage.nodeLogs Storage.read
  rw [h.find?_eq (not_ofRecord_nodeLogs id)]

end Kindred

/-- A session with a sound audit service gives the same answers as without one, calls the same tools and agents, and leaves
the same files behind, in which the executions and the rows of their nodes are the same but for the sessions. -/
theorem audit_inaudible (config : Config) (root : String) {auditor : Auditor} (ha : auditor.Sound) {steps : List Session.Step}
    (hs : ∀ step ∈ steps, step.Open) :
    let unheard := Session.run steps (.initial config root none)
    let heard := Session.run steps (.initial config root (some auditor))
    heard.1 = unheard.1 ∧ heard.2.calls = unheard.2.calls ∧
      heard.2.storage.files.keys = unheard.2.storage.files.keys ∧
      (∀ path, ¬OfRecord path → heard.2.storage.files.get? path = unheard.2.storage.files.get? path) ∧
      ∀ id, (heard.2.storage.execution? id).map (·.inSession none) = (unheard.2.storage.execution? id).map (·.inSession none) ∧
        heard.2.storage.nodeLogs id = unheard.2.storage.nodeLogs id := by
  intro unheard heard
  obtain ⟨_, -, -, hat⟩ :=
    (Attended.initial config root nofun fun _ hc => Option.some.inj hc ▸ ha : Attended none (some auditor) _ _ _).run hs
  obtain ⟨hanswers, -, -, h⟩ := hat steps.length
  rw [List.take_length] at hanswers h
  exact ⟨hanswers, h.calls, h.storage.keys, fun path hp => (h.storage.files path).eq_of_not hp,
    fun id => ⟨h.execution?_eq id, h.nodeLogs_eq id⟩⟩

namespace Sample

/-- An audit service that gives the same answer to every request. -/
def service (answer : Value) : Auditor :=
  ⟨"http://history", fun _ => .reply 200 (.value answer), 0, true, false⟩

/-- The answer that names a session. -/
def named : Value :=
  .map [("content", .list [.map [("text", .str "\x7b\"success\": true, \"session_id\": \"s\"\x7d")]])]

theorem sound_named : (service named).Sound where
  opened := rfl
  answers n body h := by
    obtain rfl : named = body := Option.some.inj h
    exact ⟨.map [("success", .bool true), ("session_id", .str "s")], some "s", rfl, rfl⟩

theorem open_asking (tool : Value) : ∀ step ∈ asking tool ++ clicking, step.Open := by
  intro step hm
  simp only [asking, clicking, List.cons_append, List.nil_append, List.mem_cons, List.not_mem_nil, or_false] at hm
  rcases hm with rfl | rfl | rfl | rfl
  · exact ⟨⟨trivial, rfl⟩, fun h => by cases h⟩
  · exact ⟨⟨trivial, rfl⟩, fun h => by cases h⟩
  · exact ⟨⟨by show '/' ∉ "flow".toList; decide, rfl⟩, fun h => by cases h⟩
  · exact ⟨⟨trivial, rfl⟩, fun h => by cases h⟩

/-- A workflow with nothing but a trigger. -/
def single : Workflow :=
  { id := "flow", title := none, status := .published, nodes := [node "start" "trigger" []], edges := [] }

end Sample

/-- A click goes on in an execution of which a service has heard. -/
theorem audit_inaudible_sample :
    let before := Sample.asking (.str Sample.sender)
    let unheard := Session.run (before ++ Sample.clicking) (.initial {} "" none)
    let heard := Session.run (before ++ Sample.clicking) (.initial {} "" (some (Sample.service Sample.named)))
    (Session.run before (.initial {} "" (some (Sample.service Sample.named)))).2.requests.length = 8 ∧
      heard.1 = unheard.1 ∧ (heard.2.storage.execution? Sample.execution).map (·.inSession none) =
        (unheard.2.storage.execution? Sample.execution).map (·.inSession none) := by
  have hlength : (Session.run (Sample.asking (.str Sample.sender))
      (.initial {} "" (some (Sample.service Sample.named)))).2.requests.length = 8 := by decide +kernel
  have hsame := audit_inaudible {} "" Sample.sound_named (Sample.open_asking (.str Sample.sender))
  exact ⟨hlength, hsame.1, (hsame.2.2.2.2 Sample.execution).1⟩

/-- An answer of which the content is a number makes an execution fail before it is on record. -/
theorem not_always_inaudible :
    let unheard := Session.run [.execute Sample.single .null] (.initial {} "" none)
    let heard := Session.run [.execute Sample.single .null]
      (.initial {} "" (some (Sample.service (.map [("content", .int 5)]))))
    (unheard.1.map Except.isOk, Sample.outcome unheard.2) = ([true], some (.success, none)) ∧
      (heard.1.map Except.isOk, Sample.outcome heard.2) = ([false], none) := by
  decide +kernel

end WorkGraph
