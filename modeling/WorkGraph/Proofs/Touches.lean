import WorkGraph.Proofs.Records

/-!
# Which execution a step works on

Nothing is done for most executions by what happens in a session; clicks that lead nowhere may be noted (`Spared`).
Where no report can fail an invocation works on one execution (`Invocation.execute_touches`,
`Continuation.goOnOrFail_touches`), and whatever else happens works on none, as long as no workflow is saved over files
that are not for workflows. What goes by invocations alone (`Sparing`) is therefore kept by every step of a session that
injects no fault: `Sparing.perform`.
-/

namespace WorkGraph

open Engine

/-! ## What is spared -/

/-- The rows of the nodes of an execution. -/
def Storage.attempted (s : Storage) (execution : String) : List NodeLog :=
  (s.nodeLogs execution).filter (!·.isRouting)

/-- Whether a row was opened for a node. What a node sees is not null, and there is nothing that an unrouted click saw. -/
def NodeLog.isOfNode (row : NodeLog) : Bool :=
  !(row.isRouting && row.inputData.isNull)

/-- The rows of an execution that were opened for nodes, of whatever type. -/
def Storage.nodeRows (s : Storage) (execution : String) : List NodeLog :=
  (s.nodeLogs execution).filter NodeLog.isOfNode

/-- Nothing has been done for an execution; clicks that led nowhere may have been noted. -/
structure Spared (execution : String) (w w' : World) : Prop where
  record : w'.storage.read (Store.Executions.place execution) .null =
    w.storage.read (Store.Executions.place execution) .null
  attempted : w'.storage.attempted execution = w.storage.attempted execution
  calls : w'.callsFor execution = w.callsFor execution

namespace Spared

variable {execution : String} {u w w' : World}

theorem trans (h : Spared execution u w) (k : Spared execution w w') : Spared execution u w' where
  record := k.record.trans h.record
  attempted := k.attempted.trans h.attempted
  calls := k.calls.trans h.calls

theorem attempted_congr {s t : Storage} (h : t.read (Store.NodeLogs.place execution) (.list []) =
    s.read (Store.NodeLogs.place execution) (.list [])) : t.attempted execution = s.attempted execution := by
  unfold Storage.attempted Storage.nodeLogs
  rw [h]

theorem hasRecord (h : Spared execution w w') {x : Execution} (hx : HasRecord w.storage execution x) :
    HasRecord w'.storage execution x :=
  h.record.trans hx

end Spared

/-- A file without a list holds no rows. -/
theorem Storage.nodeLogs_eq_nil {s : Storage} {execution : String} {v : Value}
    (h : s.read (Store.NodeLogs.place execution) (.list []) = .ok v) (hv : ∀ rows, v ≠ .list rows) :
    s.nodeLogs execution = [] := by
  unfold nodeLogs
  rw [h]
  cases v with
  | list rows => exact absurd rfl (hv rows)
  | null | bool | num | str | map => rfl

theorem Storage.nodeRows_congr {s t : Storage} {execution : String}
    (h : t.read (Store.NodeLogs.place execution) (.list []) = s.read (Store.NodeLogs.place execution) (.list [])) :
    t.nodeRows execution = s.nodeRows execution := by
  unfold nodeRows nodeLogs
  rw [h]

/-! ## What is touched -/

/-- The executions on record are spared, except perhaps one. Nothing else is on record then, and logs are logs. -/
structure Touches (working : Option String) (w w' : World) : Prop where
  steady : w.Steady → w'.Steady
  unaudited : w.Unaudited → w'.Unaudited
  issued : w.issued ≤ w'.issued
  spared : ∀ x, HasRecord w.storage x.id x → x.id ∉ working → Spared x.id w w'
  kept : ∀ x, HasRecord w'.storage x.id x → x.id ∉ working → HasRecord w.storage x.id x
  logged : ∀ id logs, (∀ e ∈ working, (Store.NodeLogs.place id).path ≠ (Store.NodeLogs.place e).path) →
    HasLogs w.storage id logs → ∃ logs', HasLogs w'.storage id logs'
  nodeRows : ∀ id, (∀ e ∈ working, (Store.NodeLogs.place id).path ≠ (Store.NodeLogs.place e).path) →
    w'.storage.nodeRows id = w.storage.nodeRows id

namespace Touches

variable {working : Option String} {execution : String} {u w w' : World} {place : Location} {v : Value}

theorem trans (h : Touches working u w) (k : Touches working w w') : Touches working u w' where
  steady := k.steady ∘ h.steady
  unaudited := k.unaudited ∘ h.unaudited
  issued := Nat.le_trans h.issued k.issued
  spared x hx hno := (h.spared x hx hno).trans (k.spared x ((h.spared x hx hno).hasRecord hx) hno)
  kept x hx hno := h.kept x (k.kept x hx hno) hno
  logged id logs hno hl := by
    obtain ⟨logs', hl'⟩ := h.logged id logs hno hl
    exact k.logged id logs' hno hl'
  nodeRows id hno := (k.nodeRows id hno).trans (h.nodeRows id hno)

/-- What works on no execution works on one at the most. -/
theorem some (h : Touches none w w') (execution : String) : Touches (some execution) w w' where
  steady := h.steady
  unaudited := h.unaudited
  issued := h.issued
  spared x hx _ := h.spared x hx (by simp)
  kept x hx _ := h.kept x hx (by simp)
  logged id logs _ hl := h.logged id logs (by simp) hl
  nodeRows id _ := h.nodeRows id (by simp)

/-- What leaves the files of every execution as they are works on none. -/
theorem of_reads (hs : w.Steady → w'.Steady) (hu : w.Unaudited → w'.Unaudited) (hi : w.issued ≤ w'.issued)
    (hx : ∀ id, w'.storage.read (Store.Executions.place id) .null = w.storage.read (Store.Executions.place id) .null)
    (hl : ∀ id, w'.storage.read (Store.NodeLogs.place id) (.list []) = w.storage.read (Store.NodeLogs.place id) (.list []))
    (hc : w'.calls = w.calls) : Touches none w w' where
  steady := hs
  unaudited := hu
  issued := hi
  spared x _ _ := ⟨hx x.id, Spared.attempted_congr (hl x.id), by rw [World.callsFor, hc, World.callsFor]⟩
  kept x h _ := (hx x.id).symm.trans h
  logged id logs _ h := ⟨logs, (hl id).trans h⟩
  nodeRows id _ := Storage.nodeRows_congr (hl id)

theorem of_idle (h : Idle w w') : Touches none w w' :=
  of_reads h.steady (·.of_service h.auditor) (Nat.le_of_eq h.issued.symm) (fun _ => by rw [h.storage])
    (fun _ => by rw [h.storage]) h.calls

theorem of_quiet (h : Quiet w w') : Touches none w w' :=
  of_idle h.idle

/-- A file was written that is none of an execution. -/
theorem of_wrote (hw : Wrote place v w w') (hx : ∀ id, (Store.Executions.place id).path ≠ place.path)
    (hl : ∀ id, (Store.NodeLogs.place id).path ≠ place.path) : Touches none w w' :=
  of_reads hw.steady (·.wrote hw) (Nat.le_of_eq hw.issued.symm) (fun _ => hw.read_ne (hx _)) (fun _ => hw.read_ne (hl _)) hw.calls

/-- An id was given out. -/
theorem of_counted (w : World) : Touches none w { w with issued := w.issued + 1 } :=
  of_reads id id (Nat.le_succ _) (fun _ => rfl) (fun _ => rfl) rfl

/-- A message was given up. -/
theorem of_released (message : String) (w : World) :
    Touches none w { w with storage := w.storage.remove (Store.Claims.place message) } :=
  of_reads id id (Nat.le_refl _) (fun _ => Storage.read_remove_ne (Apart.claims_ne message (by decide) _ _))
    (fun _ => Storage.read_remove_ne (claims_ne_nodeLogs message _)) rfl

section Chain

variable {k : Nat} (h : Orderly u) (ht : Touches (.some execution) u w) (hi : Issued k execution)

include h ht hi

/-- The record of the execution was written. -/
theorem recorded {x : Execution} (hx : x.id = execution) (hw : Wrote (Store.Executions.place execution) x.toValue w w') :
    Touches (.some execution) u w' := by
  refine ht.trans ⟨hw.steady, (·.wrote hw), Nat.le_of_eq hw.issued.symm, fun y hy hno => ⟨hw.read_ne ?_,
    Spared.attempted_congr (hw.read_ne (executions_ne_nodeLogs _ _).symm),
    by rw [World.callsFor, hw.calls, World.callsFor]⟩, fun y hy hno => ?_,
    fun id logs _ hl => ⟨logs, (hw.read_ne (executions_ne_nodeLogs _ _).symm).trans hl⟩,
    fun id _ => Storage.nodeRows_congr (hw.read_ne (executions_ne_nodeLogs _ _).symm)⟩
  · exact (h.issued_of_hasRecord (ht.kept y hy hno)).path_ne hi (fun he => hno (he ▸ rfl)) _ _
  · by_cases hp : (Store.Executions.place y.id).path = (Store.Executions.place execution).path
    · rw [HasRecord, Storage.read_congr hp] at hy
      obtain rfl := Execution.hasRecord_unique hy hw.read_self
      exact absurd (congrArg Option.some hx.symm) hno
    · exact (hw.read_ne hp).symm.trans hy

/-- What was done is confined to the execution. -/
theorem confined (hc : Confined execution w w') : Touches (.some execution) u w' := by
  refine ht.trans ⟨hc.steady, hc.unaudited, Nat.le_of_eq hc.issued.symm, fun x hx hno => ?_,
    fun x hx _ => (hc.record x.id).symm.trans hx, fun id logs hno hl => ⟨logs, (hc.rows id (hno execution rfl)).trans hl⟩,
    fun id hno => Storage.nodeRows_congr (hc.rows id (hno execution rfl))⟩
  have hne : x.id ≠ execution := fun he => hno (he ▸ rfl)
  have hissued := h.issued_of_hasRecord (ht.kept x hx hno)
  exact ⟨hc.record x.id, Spared.attempted_congr (hc.rows x.id (hissued.path_ne hi hne _ _)), hc.calls x.id hne⟩

end Chain

/-- A click that led nowhere was noted, for whatever execution. -/
theorem of_routed (h : Orderly w) (execution node message : String) (details : Entries Value) :
    Touches none w (run (Journal.routingFailed execution node message details) w).2 := by
  rcases h.logs_cases execution with ⟨logs, hl, -⟩ | hno
  · have hp := Journal.routingFailed_posted hl node message details
    generalize hrow : NodeLog.unrouted _ _ _ _ _ _ = row at hp
    have hrouting : row.isRouting = true := by rw [← hrow]; exact NodeLog.isRouting_unrouted _ _ _ _ _ _
    have hinput : row.inputData = .null := by rw [← hrow]; rfl
    dsimp only at hp
    have hwrote {w' : World} (hw : Wrote (Store.NodeLogs.place execution) (.list ((logs ++ [row]).map NodeLog.toValue)) w w') :
        Touches none w w' := by
      -- the rows of a place are those of the execution, with one more that is none of a node, or else they are the same
      have hrows (id : String) : w'.storage.read (Store.NodeLogs.place id) (.list []) =
            w.storage.read (Store.NodeLogs.place id) (.list []) ∨
          HasLogs w.storage id logs ∧ HasLogs w'.storage id (logs ++ [row]) := by
        by_cases hpath : (Store.NodeLogs.place id).path = (Store.NodeLogs.place execution).path
        · refine .inr ⟨?_, ?_⟩ <;> rw [HasLogs, Storage.read_congr hpath]
          · exact hl
          · exact hw.hasLogs
        · exact .inl (hw.read_ne hpath)
      refine ⟨hw.steady, (·.wrote hw), Nat.le_of_eq hw.issued.symm, fun x _ _ => ⟨hw.read_ne (executions_ne_nodeLogs _ _), ?_,
        by rw [World.callsFor, hw.calls, World.callsFor]⟩, fun x hx _ => (hw.read_ne (executions_ne_nodeLogs _ _)).symm.trans hx,
        fun id others _ ho => ?_, fun id _ => ?_⟩
      · rcases hrows x.id with hsame | ⟨hbefore, hafter⟩
        · exact Spared.attempted_congr hsame
        · rw [Storage.attempted, hafter.nodeLogs, Storage.attempted, hbefore.nodeLogs, List.filter_append]
          simp [hrouting]
      · rcases hrows id with hsame | ⟨-, hafter⟩
        · exact ⟨others, hsame.trans ho⟩
        · exact ⟨_, hafter⟩
      · rcases hrows id with hsame | ⟨hbefore, hafter⟩
        · exact Storage.nodeRows_congr hsame
        · rw [Storage.nodeRows, hafter.nodeLogs, Storage.nodeRows, hbefore.nodeLogs, List.filter_append]
          simp [NodeLog.isOfNode, hrouting, hinput, Value.isNull]
    exact hp.keeps (I := Touches none w) hwrote of_quiet
  · obtain ⟨fault, w', hr, hq⟩ := Journal.routingFailed_barred hno node message details
    rw [hr]
    exact of_quiet hq

/-! ## Workflows that are saved -/

section Saved

variable {id : String} {V W : Workflow}

/-- No workflow that is saved makes a record. -/
theorem recorded_saved (hw : Wrote (Store.Workflows.place W.id) W.toValue w w') {x : Execution}
    (hx : HasRecord w'.storage x.id x) : HasRecord w.storage x.id x := by
  by_cases hp : (Store.Executions.place x.id).path = (Store.Workflows.place W.id).path
  · rw [HasRecord, Storage.read_congr hp] at hx
    have hv : x.toValue = W.toValue := Except.ok.inj (hx.symm.trans hw.read_self)
    exact absurd (hv ▸ Execution.load_toValue "" x) (Execution.load_ne_of_missing rfl x)
  · exact (hw.read_ne hp).symm.trans hx

/-- A workflow whose id has no slash was saved. -/
theorem of_saved (hid : '/' ∉ W.id.toList) (hw : Wrote (Store.Workflows.place W.id) W.toValue w w') :
    Touches none w w' :=
  of_wrote hw (fun _ => Location.ofWorkflow_ne_ofRecord hid (by decide) _ _)
    (fun _ => Location.ofWorkflow_ne_ofRecord hid (by decide) _ _)

/-- A workflow was saved in the place where one was found. -/
theorem of_restated {document : Document} (h : Orderly w) (hd : w.storage.find? (Store.Workflows.place id) = .some document)
    (hV : Store.Workflows.decode document = .ok V)
    (hp : (Store.Workflows.place W.id).path = (Store.Workflows.place id).path)
    (hw : Wrote (Store.Workflows.place W.id) W.toValue w w') : Touches none w w' := by
  obtain ⟨v, rfl, -⟩ := h.files _ _ hd
  replace hV : Workflow.load v = .ok V := hV
  have hread {place : Location} {default : Value} (hpath : place.path = (Store.Workflows.place W.id).path) :
      w.storage.read place default = .ok v := by
    rw [Storage.read_congr (hpath.trans hp), Storage.read, hd]
    rfl
  have hrows (id : String) : w'.storage.nodeLogs id = w.storage.nodeLogs id := by
    by_cases hpath : (Store.NodeLogs.place id).path = (Store.Workflows.place W.id).path
    · have hread' : w'.storage.read (Store.NodeLogs.place id) (.list []) = .ok W.toValue := by
        rw [Storage.read_congr hpath]
        exact hw.read_self
      rw [Storage.nodeLogs_eq_nil hread' (fun rows hrows => by cases hrows),
        Storage.nodeLogs_eq_nil (hread hpath) (fun rows hrows => Workflow.load_list_ne rows V (hrows ▸ hV))]
    · unfold Storage.nodeLogs
      rw [hw.read_ne hpath]
  refine ⟨hw.steady, (·.wrote hw), Nat.le_of_eq hw.issued.symm, fun x hx _ => ⟨hw.read_ne fun hpath => ?_, ?_,
    by rw [World.callsFor, hw.calls, World.callsFor]⟩, fun x hx _ => recorded_saved hw hx, fun other logs _ hl => ?_,
    fun id _ => ?_⟩
  · exact Workflow.load_execution_ne x V (Except.ok.inj (hx.symm.trans (hread hpath)) ▸ hV)
  · rw [Storage.attempted, hrows, Storage.attempted]
  · refine ⟨logs, (hw.read_ne fun hpath => ?_).trans hl⟩
    exact Workflow.load_list_ne _ V (Except.ok.inj (hl.symm.trans (hread hpath)) ▸ hV)
  · rw [Storage.nodeRows, hrows, Storage.nodeRows]

/-- A workflow that is there gets another status. -/
theorem of_setStatus (h : Orderly w) (id : String) (status : WorkflowStatus) :
    Touches none w (run (Store.Workflows.setStatus id status) w).2 := by
  unfold Store.Workflows.setStatus
  have hq := hushed_entering .setWorkflowStatus w
  rcases hr : run (Engine.entering .setWorkflowStatus) w with ⟨fault | _, u⟩ <;> rw [hr] at hq
  · rw [run_bind_error hr]
    exact .of_quiet hq
  rw [run_bind_ok hr]
  have hq' := Store.Workflows.hushed_find? id u
  rcases hf : run (Store.Workflows.find? id) u with ⟨fault | found, v⟩ <;> rw [hf] at hq'
  · rw [run_bind_error hf]
    exact .of_quiet (hq.trans hq')
  rw [run_bind_ok hf]
  have hv : Orderly v := h.idle (hq.trans hq').idle
  cases found with
  | none => exact .of_quiet (hq.trans hq')
  | some V =>
    obtain ⟨document, hd, hV⟩ := Store.Workflows.eq_some_of_find? hf
    rw [← hq'.storage] at hd
    have hp : (Store.Workflows.place V.id).path = (Store.Workflows.place id).path := hv.path_of_found hd hV
    dsimp only
    rw [run_map_snd]
    rcases Store.Workflows.save_cases { V with status } v with ⟨v', hr, hw⟩ | ⟨fault, v', hr, hq''⟩ <;> rw [hr]
    · exact (Touches.of_quiet (hq.trans hq')).trans (.of_restated (W := { V with status }) hv hd hV hp hw)
    · exact .of_quiet ((hq.trans hq').trans hq'')

end Saved

/-- A click was refused. -/
theorem of_refused (h : Orderly w) (mapping : ButtonMapping) (message : String) (button : Value) (fault : Fault) :
    Touches none w (run (Continuation.refuse mapping message button fault) w).2 := by
  have hnoted {v : World} (hv : Orderly v) (text : String) (details : Entries Value) :
      Touches none v (run (do
        let _ ← Journal.routingFailed mapping.executionId mapping.nodeId text details
        return ()) v).2 := by
    rw [← map_eq_pure_bind, run_map_snd]
    exact .of_routed hv _ _ _ _
  unfold Continuation.refuse
  split
  · exact hnoted h _ _
  · have hq := hushed_logFault "continuation" ("Button click routing failed: " ++ fault.message) w
    exact (Touches.of_quiet hq).trans (hnoted (h.idle hq.idle) _ _)

end Touches

/-! ## Invocations -/

/-- An execution that starts was not there, and nothing is done for another. -/
theorem Invocation.execute_touches {w : World} (h : Orderly w) (hu : w.Assured) (W : Workflow) (payload : Value) :
    Touches (some w.nextExecution) w (run (execute W payload) w).2 := by
  rcases execute_cases h hu W payload with
    ⟨fault, u, hr, hs, ha, hi, hst, hc⟩ | ⟨w₀, session, w₁, u, r, duration, hq, hw, -, -, hconfined, hend⟩
  · rw [hr]
    exact (Touches.of_reads hs (·.of_service ha) hi (fun _ => by rw [hst]) (fun _ => by rw [hst]) hc).some _
  · rw [← hq.nextExecution]
    have hissued : Issued (w₀.issued + 1) w₀.nextExecution := issued_nextExecution w₀
    have hup : Touches none w { w₀ with issued := w₀.issued + 1 } := (Touches.of_quiet hq).trans (.of_counted w₀)
    have hbegun := (hup.some w₀.nextExecution).recorded h hissued rfl hw
    have hran := hbegun.confined h hissued hconfined
    rcases hrun : run (execute W payload) w with ⟨result, v⟩
    rw [hrun] at hend
    cases hend with
    | done hw => exact hran.recorded h hissued (x := Execution.ended ..) rfl hw
    | unheard hno _ => exact absurd trivial hno
    | lost _ hq => exact hran.trans ((Touches.of_quiet hq).some _)

/-- Nothing is done for another execution than the one that goes on. -/
theorem Continuation.goOnOrFail_touches {mapping : ButtonMapping} {button data : Value} {workflow : Workflow}
    {x : Execution} {node : Node} {context : Context} {w : World} (h : Orderly w) (hu : w.Assured) (message : String)
    (hr : Resumable mapping button data workflow x node context w) (start : Int) :
    Touches (some x.id) w
      (run (goOnOrFail message workflow x node button context start) (w.accepting x node button)).2 := by
  have hissued := h.issued_of_hasRecord (h.hasRecord_of_ready hr.toReady)
  obtain ⟨u, hconfined, result, v, hrun, hend⟩ := goOnOrFail_cases h hu message hr start
  have haccepted : Touches none w (w.accepting x node button) :=
    .of_reads id id (Nat.le_refl _) (fun _ => rfl) (fun _ => rfl) (World.calls_accepting w x node button)
  have hran := (haccepted.some x.id).confined h hissued hconfined
  rw [hrun]
  rcases hend with ⟨status, error, duration, hw⟩ | rfl
  · exact hran.recorded h hissued (x := x.ended ..) rfl hw
  · exact hran

/-! ## Steps -/

/-- A property of the world that goes by what is done for executions, in worlds that have a property which every step
keeps. -/
structure Sparing (B I : World → Prop) : Prop where
  lasting : Lasting B
  saved : ∀ W, Keeps B (Store.Workflows.save W)
  closed : Keeps B Audit.close
  orderly : ∀ {w : World}, B w → Orderly w
  untouched : ∀ {w w' : World}, I w → B w' → Touches none w w' → I w'
  executed : ∀ (workflow : Workflow) (payload : Value) {w : World}, B w → I w →
    I (run (Invocation.execute workflow payload) w).2
  continued : ∀ {mapping : ButtonMapping} (message : String) {button data : Value} {workflow : Workflow} {x : Execution}
    {node : Node} {context : Context} (start : Int) {w : World}, B w → I w →
    Continuation.Resumable mapping button data workflow x node context w →
    I (run (Continuation.goOnOrFail message workflow x node button context start) (w.accepting x node button)).2

/-- Whether a step saves no workflow whose id has a slash. -/
def Session.Step.Straight : Session.Step → Prop
  | .saveWorkflow W => '/' ∉ W.id.toList
  | _ => True

/-- Whether a step injects no fault. -/
def Session.Step.isSound : Session.Step → Bool
  | .inject _ => false
  | _ => true

namespace Sparing

variable {B I : World → Prop} (h : Sparing B I)

include h

theorem abiding : Abiding fun w => B w ∧ I w where
  idle hw hi := ⟨h.lasting.idle hw.1 hi, h.untouched hw.2 (h.lasting.idle hw.1 hi) (.of_idle hi)⟩
  claimed {message _ _ _ _} hw hc := ⟨h.lasting.claimed hw.1 hc, h.untouched hw.2 (h.lasting.claimed hw.1 hc)
    (.of_wrote hc (fun _ => Apart.claims_ne message (by decide) _ _) (claims_ne_nodeLogs message))⟩
  released message w hw := ⟨h.lasting.released message hw.1,
    h.untouched hw.2 (h.lasting.released message hw.1) (.of_released message w)⟩
  executed W payload w hw := ⟨h.lasting.abiding.executed W payload w hw.1, h.executed W payload hw.1 hw.2⟩
  continued message _ _ _ _ _ _ start _ hw hr :=
    ⟨h.lasting.abiding.continued message start hw.1 hr, h.continued message start hw.1 hw.2 hr⟩
  routed execution node message details w hw :=
    have hb := h.lasting.routed execution node message details w hw.1
    ⟨hb, h.untouched hw.2 hb (.of_routed (h.orderly hw.1) _ _ _ _)⟩

/-- A workflow is saved, over what it may. -/
theorem saveWorkflow (W : Workflow) {w : World} (hw : B w ∧ I w)
    (hsaved : ∀ w', Wrote (Store.Workflows.place W.id) W.toValue w w' → Touches none w w') :
    B (run (Store.Workflows.save W) w).2 ∧ I (run (Store.Workflows.save W) w).2 := by
  have hb := h.saved W w hw.1
  refine ⟨hb, h.untouched hw.2 hb ?_⟩
  rcases Store.Workflows.save_cases W w with ⟨w', hr, hs⟩ | ⟨fault, w', hr, hq⟩ <;> rw [hr]
  · exact hsaved w' hs
  · exact .of_quiet hq

/-- A workflow that is there gets another status. -/
theorem setStatus (id : String) (status : WorkflowStatus) :
    Keeps (fun w => B w ∧ I w) (Store.Workflows.setStatus id status) := by
  intro w hw
  have hb : Keeps B (Store.Workflows.setStatus id status) := by
    refine keeps_bind (h.lasting.hushed (hushed_entering _)) fun _ =>
      keeps_bind (h.lasting.hushed (Store.Workflows.hushed_find? id)) fun found => ?_
    cases found with
    | none => exact h.lasting.hushed (hushed_pure _)
    | some V => exact keeps_map some (h.saved _)
  exact ⟨hb w hw.1, h.untouched hw.2 (hb w hw.1) (.of_setStatus (h.orderly hw.1) id status)⟩

/-- What goes by what is done for executions, every step keeps that injects no fault and saves no workflow over other
files. -/
theorem perform {step : Session.Step} (hs : step.Straight) (hi : step.isSound = true) :
    Keeps (fun w => B w ∧ I w) (Session.perform step) := by
  cases step with
  | saveWorkflow W => exact keeps_map _ fun w hw => h.saveWorkflow W hw fun _ hc => .of_saved hs hc
  | setWorkflowStatus id status => exact keeps_map _ (h.setStatus id status)
  | inject failpoint => cases hi
  | closeAudit =>
    intro w hw
    refine ⟨h.closed w hw.1, h.untouched hw.2 (h.closed w hw.1) (.of_reads id (fun hu => ?_) (Nat.le_refl _)
      (fun _ => rfl) (fun _ => rfl) rfl)⟩
    exact congrArg (Option.map _) hu
  | execute | executeStored | trigger | click | register | unregister | advance | forget => exact h.abiding.perform rfl

end Sparing

end WorkGraph
