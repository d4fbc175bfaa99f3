import WorkGraph.Proofs.Notices
import WorkGraph.Proofs.Records

/-!
# Two audit services

Worlds with different audit services may differ in nothing but the sessions on record, and in what their services were told
(`Akin`), and where these were told of the same, nodes do the same in both (`Kindred`, `kindred_bond`). So does the journal:
it opens a record and writes to it, opens and closes rows, and tells both services of that.
-/

namespace WorkGraph

open Engine

/-! ## Records under a veil -/

/-- The same record with another session. -/
def Execution.inSession (x : Execution) (session : Option String) : Execution :=
  { x with historySession := session }

/-- No workflow is read from a record, and none of its sessions tells why. -/
theorem Workflow.load_inSession (x : Execution) (session : Option String) :
    load (x.inSession session).toValue = load x.toValue := rfl

/-- Whether a path is that of a record. -/
def OfRecord (path : String) : Prop :=
  ∃ id, path = (Store.Executions.place id).path

/-- What a file may hold on both sides: the same, or records that differ in their session. -/
inductive Veiled (path : String) : Option Document → Option Document → Prop
  | same (document : Option Document) : Veiled path document document
  | record (x : Execution) (session : Option String) : path = (Store.Executions.place x.id).path →
      Veiled path (some (.value x.toValue)) (some (.value (x.inSession session).toValue))

namespace Veiled

variable {path : String} {document document' : Option Document}

theorem eq_of_not (h : Veiled path document document') (hp : ¬OfRecord path) : document' = document := by
  cases h with
  | same => rfl
  | record x session hx => exact absurd ⟨x.id, hx⟩ hp

theorem decoded (h : Veiled path document document') :
    document'.map Store.Workflows.decode = document.map Store.Workflows.decode := by
  cases h with
  | same => rfl
  | record x session => exact congrArg some (Workflow.load_inSession x session)

end Veiled

/-! ## Kindred worlds -/

/-- Two worlds that differ in nothing but the sessions on record, and in what audit services were told. -/
structure Akin (w w' : World) : Prop where
  config : w'.config = w.config
  clock : w'.clock = w.clock
  issued : w'.issued = w.issued
  tools : w'.tools = w.tools
  agents : w'.agents = w.agents
  calls : w'.calls = w.calls
  storage : w.storage.Differ Veiled w'.storage
  steady : w.Steady
  steady' : w'.Steady

namespace Akin

variable {w w' u u' : World} {x : Execution} {id : String}

theorem find?_eq (h : Akin w w') {place : Location} (hp : ¬OfRecord place.path) :
    w'.storage.find? place = w.storage.find? place :=
  (h.storage.files place.path).eq_of_not hp

theorem nextExecution (h : Akin w w') : w'.nextExecution = w.nextExecution := by
  unfold World.nextExecution
  rw [h.clock, h.issued]

theorem quiet (h : Akin w w') (hq : Quiet w u) (hq' : Quiet w' u') : Akin u u' where
  config := hq'.config.trans (h.config.trans hq.config.symm)
  clock := hq'.clock.trans (h.clock.trans hq.clock.symm)
  issued := hq'.issued.trans (h.issued.trans hq.issued.symm)
  tools := hq'.tools.trans (h.tools.trans hq.tools.symm)
  agents := hq'.agents.trans (h.agents.trans hq.agents.symm)
  calls := hq'.calls.trans (h.calls.trans hq.calls.symm)
  storage := by
    rw [hq.storage, hq'.storage]
    exact h.storage
  steady := hq.steady h.steady
  steady' := hq'.steady h.steady'

/-- An id was given out. -/
theorem counted (h : Akin w w') : Akin { w with issued := w.issued + 1 } { w' with issued := w'.issued + 1 } :=
  { h with issued := congrArg (· + 1) h.issued }

/-- What a record is on the first side and on the second. -/
theorem record_cases (h : Akin w w') (id : String) :
    w'.storage.read (Store.Executions.place id) .null = w.storage.read (Store.Executions.place id) .null ∨
      ∃ x session, (Store.Executions.place id).path = (Store.Executions.place x.id).path ∧ HasRecord w.storage id x ∧
        HasRecord w'.storage id (x.inSession session) := by
  have hveiled := h.storage.files (Store.Executions.place id).path
  unfold HasRecord Storage.read Storage.find?
  generalize w.storage.files.get? (Store.Executions.place id).path = document at hveiled ⊢
  generalize w'.storage.files.get? (Store.Executions.place id).path = document' at hveiled ⊢
  cases hveiled with
  | same => exact .inl rfl
  | record x session hp => exact .inr ⟨x, session, hp, rfl, rfl⟩

/-- The record of an execution has a record for its other side. -/
theorem hasRecord (h : Akin w w') (hx : HasRecord w.storage id x) :
    ∃ session, HasRecord w'.storage id (x.inSession session) := by
  rcases h.record_cases id with hsame | ⟨y, session, -, hy, hy'⟩
  · exact ⟨x.historySession, hsame.trans hx⟩
  · obtain rfl := Execution.hasRecord_unique hy hx
    exact ⟨session, hy'⟩

theorem of_hasRecord (h : Akin w w') (hx : HasRecord w'.storage id x) :
    ∃ session, HasRecord w.storage id (x.inSession session) := by
  rcases h.record_cases id with hsame | ⟨y, session, -, hy, hy'⟩
  · exact ⟨x.historySession, hsame.symm.trans hx⟩
  · obtain rfl := Execution.hasRecord_unique hy' hx
    exact ⟨y.historySession, hy⟩

/-- A record was written, with whatever sessions. -/
theorem wrote (h : Akin w w') (x : Execution) (session : Option String)
    (hw : Wrote (Store.Executions.place x.id) x.toValue w u)
    (hw' : Wrote (Store.Executions.place x.id) (x.inSession session).toValue w' u') : Akin u u' := by
  obtain ⟨s, hs, hq⟩ := hw
  obtain ⟨s', hs', hq'⟩ := hw'
  have hf := Storage.fits_of_write hs
  rw [Storage.write_of_fits hf] at hs hs'
  obtain rfl := Except.ok.inj hs
  obtain rfl := Except.ok.inj hs'
  have hset : Akin { w with storage := { w.storage with files := w.storage.files.set _ _ } }
      { w' with storage := { w'.storage with files := w'.storage.files.set _ _ } } :=
    { h with storage := h.storage.set (.record x session rfl) }
  exact hset.quiet hq hq'

end Akin

/-- Two such worlds whose services were told of the same. -/
structure Kindred (a b : Option Auditor) (trail : List Notice) (w w' : World) : Prop extends Akin w w' where
  told : Told a trail w
  told' : Told b trail w'

namespace Kindred

variable {a b : Option Auditor} {trail trail' : List Notice} {w w' u u' : World}

theorem heard (h : Kindred a b trail w w') : w.Heard :=
  h.told.linked.heard

/-- Something was said to others than the services. -/
theorem said (h : Kindred a b trail w w') {effect : Effect} (he : effect.request? = none) :
    Kindred a b trail { w with trace := w.trace ++ [effect] } { w' with trace := w'.trace ++ [effect] } :=
  { h with
    calls := by
      have hcalls := h.calls
      unfold World.calls at hcalls ⊢
      rw [List.filterMap_append, List.filterMap_append, hcalls]
    told := h.told.said he
    told' := h.told'.said he }

/-- Files were changed that are no records. -/
theorem refiled (h : Kindred a b trail w w') {s s' : Storage} (hd : s.Differ Veiled s')
    (hs : ∀ id, s.read (Store.Executions.place id) .null = w.storage.read (Store.Executions.place id) .null)
    (hs' : ∀ id, s'.read (Store.Executions.place id) .null = w'.storage.read (Store.Executions.place id) .null) :
    Kindred a b trail { w with storage := s } { w' with storage := s' } :=
  { h with
    storage := hd
    told := h.told.of_same rfl rfl rfl fun x hx => (hs x.id).symm.trans hx
    told' := h.told'.of_same rfl rfl rfl fun x hx => (hs' x.id).symm.trans hx }

end Kindred

/-- What nodes do, they do in both. -/
theorem kindred_bond (a b : Option Auditor) (trail : List Notice) : Bond OfRecord (Kindred a b trail) where
  config h := h.config
  clock h := h.clock
  registry h role := by
    cases role
    · exact h.tools
    · exact h.agents
  root h := h.storage.root
  keys h := h.storage.keys
  find? h hp := h.find?_eq hp
  decoded h id := (h.storage.files _).decoded
  said he h := h.said he
  ticked ticks h :=
    { h with
      clock := congrArg (·.advance ticks) h.clock
      told := h.told.of_same rfl rfl rfl fun _ hx => hx
      told' := h.told'.of_same rfl rfl rfl fun _ hx => hx }
  registered role registry h := by
    cases role
    · exact { h with
        tools := rfl
        told := h.told.of_same rfl rfl rfl fun _ hx => hx
        told' := h.told'.of_same rfl rfl rfl fun _ hx => hx }
    · exact { h with
        agents := rfl
        told := h.told.of_same rfl rfl rfl fun _ hx => hx
        told' := h.told'.of_same rfl rfl rfl fun _ hx => hx }
  entering operation w w' h := ⟨.ok (), w, w', run_entering_steady h.steady _, run_entering_steady h.steady' _, h⟩
  written {w w' place} v hp h := by
    have hread (s : Storage) (id : String) :
        ({ s with files := s.files.set place.path (.value v) } : Storage).read (Store.Executions.place id) .null =
          s.read (Store.Executions.place id) .null := by
      unfold Storage.read Storage.find?
      rw [Entries.get?_set_ne _ _ fun he => hp ⟨id, he.symm⟩]
    exact h.refiled (h.storage.set (.same _)) (hread _) (hread _)
  removed {w w' place} hp h :=
    h.refiled (h.storage.remove (.same _)) (fun id => Storage.read_remove_ne fun he => hp ⟨id, he.symm⟩)
      (fun id => Storage.read_remove_ne fun he => hp ⟨id, he.symm⟩)
  mappings message := fun ⟨id, hp⟩ => executions_ne_mappings id message hp.symm
  claims message := fun ⟨id, hp⟩ => Apart.claims_ne message (by decide) id ".json" hp.symm
  workflows name := fun ⟨id, hp⟩ => by
    have hp := congrArg String.toList hp
    rw [Store.Executions.place, Location.path_ofRecord] at hp
    simp [Folder.name, String.toList_append] at hp

theorem not_ofRecord_nodeLogs (execution : String) : ¬OfRecord (Store.NodeLogs.place execution).path :=
  fun ⟨id, hp⟩ => executions_ne_nodeLogs id execution hp.symm

/-! ## Rows that are told -/

namespace Kindred

variable {a b : Option Auditor} {trail : List Notice} {w w' : World} {x : Execution} {logs : List NodeLog} {log : NodeLog}

/-- Both services are told the same of an execution on record. -/
theorem report (h : Kindred a b trail w w') (hx : HasRecord w.storage x.id x) (report : Value → Engine Unit)
    (content : String) (metadata : Entries Value)
    (hreport : ∀ session, report session = Audit.append session content metadata) :
    ∃ u u', run (Journal.audited do report (← Journal.sessionFor x.id)) w = (.ok (), u) ∧
      run (Journal.audited do report (← Journal.sessionFor x.id)) w' = (.ok (), u') ∧ Quiet w u ∧
      Kindred a b (trail ++ [.message x.id content (Notice.stamped metadata w.clock.stamp)]) u u' := by
  obtain ⟨session, hx'⟩ := h.hasRecord hx
  obtain ⟨u, hr, hq, ht⟩ := Journal.run_report h.told h.steady hx report content metadata hreport
  obtain ⟨u', hr', hq', ht'⟩ :=
    Journal.run_report h.told' h.steady' (x := x.inSession session) hx' report content metadata hreport
  rw [h.clock] at ht'
  exact ⟨u, u', hr, hr', hq, h.toAkin.quiet hq hq', ht, ht'⟩

/-- What is written in one world is written in both, where nothing keeps it from being so. -/
theorem done {α : Type} {act : Engine α} {place : Location} {v : Value} {r : α} (h : Kindred a b trail w w')
    (ha : Abreast (Kindred a b trail) act) (hp : Posted place v r True w (run act w)) (hf : place.Fits) :
    ∃ u u', run act w = (.ok r, u) ∧ run act w' = (.ok r, u') ∧ Wrote place v w u ∧ Kindred a b trail u u' := by
  obtain ⟨result, u, u', hr, hr', hu⟩ := ha w w' h
  rw [hr] at hp
  cases hp with
  | done hw => exact ⟨u, u', hr, hr', hw, hu⟩
  | unheard hno _ => exact absurd trivial hno
  | lost hno _ => exact absurd ⟨h.steady, hf⟩ hno

section Rows

variable (h : Kindred a b trail w w') (hx : HasRecord w.storage x.id x) (hf : (Store.NodeLogs.place x.id).Fits)

include h hx hf

/-- Both services are told of a node that starts. -/
theorem startNode (hl : HasLogs w.storage x.id logs) {node : Node} (ht : node.Titled) (input : Value) :
    let log := NodeLog.opened x.id (logs.length + 1) node input w.clock.stamp
    ∃ u u', run (Journal.startNode x.id node input) w = (.ok log, u) ∧
      run (Journal.startNode x.id node input) w' = (.ok log, u') ∧
      Wrote (Store.NodeLogs.place x.id) (.list ((logs ++ [log]).map NodeLog.toValue)) w u ∧
      Kindred a b (trail ++ [log.started]) u u' := by
  intro log
  obtain ⟨v, v', hr, hr', hw, hv⟩ := h.done ((kindred_bond a b trail).appendLog (not_ofRecord_nodeLogs x.id) _)
    (Store.NodeLogs.append_posted hl rfl rfl (NodeLog.load_opening ht input)) hf
  have hrecord : HasRecord v.storage x.id x := (hw.read_ne (executions_ne_nodeLogs _ _)).trans hx
  obtain ⟨u, u', hs, hs', hq, hu⟩ := hv.report hrecord
    (fun session => Audit.nodeStarted session (.str node.id) (.str node.type)) _ _ fun _ => rfl
  refine ⟨u, u', ?_, ?_, hw.after hq, ?_⟩
  · exact (run_bind_ok hr).trans (run_bind_ok hs)
  · exact (run_bind_ok hr').trans (run_bind_ok hs')
  · rw [hw.clock] at hu
    exact hu

variable (hl : HasLogs w.storage x.id (logs ++ [log])) (hc : Counted (logs ++ [log])) (he : log.executionId = x.id)

include hl hc he

/-- Both services are told of a node that has succeeded. -/
theorem nodeSucceeded (output : Value) (duration : Int) :
    let row := log.succeeded output duration w.clock.stamp
    ∃ u u', run (Journal.nodeSucceeded log output duration) w = (.ok row, u) ∧
      run (Journal.nodeSucceeded log output duration) w' = (.ok row, u') ∧
      Wrote (Store.NodeLogs.place x.id) (.list ((logs ++ [row]).map NodeLog.toValue)) w u ∧
      Kindred a b (trail ++ row.ended) u u' := by
  intro row
  have hposted := Store.NodeLogs.update_posted (he.symm ▸ hl) hc rfl
    (NodeLog.load_succeeded _ log output duration w.clock.stamp)
  rw [he] at hposted
  obtain ⟨v, v', hr, hr', hw, hv⟩ := h.done ((kindred_bond a b trail).updateLog (not_ofRecord_nodeLogs x.id) _ _) hposted hf
  have hrecord : HasRecord v.storage x.id x := (hw.read_ne (executions_ne_nodeLogs _ _)).trans hx
  obtain ⟨u, u', hs, hs', hq, hu⟩ := hv.report hrecord
    (fun session => Audit.nodeCompleted session (.str log.nodeId) (.str log.nodeType) (.int row.durationMs))
    _ _ fun _ => rfl
  unfold Journal.nodeSucceeded
  rw [run_bind_ok (run_stamp w), run_bind_ok (run_stamp w'), h.clock, he]
  refine ⟨u, u', ?_, ?_, hw.after hq, ?_⟩
  · exact (run_bind_ok hr).trans (run_bind_ok hs)
  · exact (run_bind_ok hr').trans (run_bind_ok hs')
  · rw [hw.clock] at hu
    rw [NodeLog.ended, show row.executionId = x.id from he]
    exact hu

/-- Both services are told of a node that has failed. -/
theorem nodeFailed (fault : Fault) (duration : Int) (output : Value) :
    let row := log.failed fault duration output w.clock.stamp
    ∃ u u', run (Journal.nodeFailed log fault duration output) w = (.ok row, u) ∧
      run (Journal.nodeFailed log fault duration output) w' = (.ok row, u') ∧
      Wrote (Store.NodeLogs.place x.id) (.list ((logs ++ [row]).map NodeLog.toValue)) w u ∧
      Kindred a b (trail ++ row.ended) u u' := by
  intro row
  have hposted := Store.NodeLogs.update_posted (he.symm ▸ hl) hc rfl
    (NodeLog.load_failed _ log fault duration output w.clock.stamp)
  rw [he] at hposted
  obtain ⟨v, v', hr, hr', hw, hv⟩ := h.done ((kindred_bond a b trail).updateLog (not_ofRecord_nodeLogs x.id) _ _) hposted hf
  have hrecord : HasRecord v.storage x.id x := (hw.read_ne (executions_ne_nodeLogs _ _)).trans hx
  let event : Effect := .event ⟨"recorder", .warning, "node_failed", [("execution_id", .str x.id),
    ("node_id", .str log.nodeId), ("node_type", .str log.nodeType), ("error", .str fault.message)], false⟩
  obtain ⟨u, u', hs, hs', hq, hu⟩ := (hv.said (show event.request? = none from rfl)).report hrecord
    (fun session => Audit.nodeFailed session (.str log.nodeId) (.str log.nodeType) (.str fault.message))
    _ _ fun _ => rfl
  have hlog (w : World) : run (Engine.emit event) w = (.ok (), { w with trace := w.trace ++ [event] }) := rfl
  unfold Journal.nodeFailed
  rw [run_bind_ok (run_stamp w), run_bind_ok (run_stamp w'), h.clock, he]
  refine ⟨u, u', ?_, ?_, hw.after ((Quiet.said v rfl rfl).trans hq), ?_⟩
  · exact (run_bind_ok hr).trans <| (run_bind_ok (hlog v)).trans (run_bind_ok hs)
  · exact (run_bind_ok hr').trans <| (run_bind_ok (hlog v')).trans (run_bind_ok hs')
  · dsimp only at hu
    rw [hw.clock] at hu
    rw [NodeLog.ended, show row.executionId = x.id from he]
    exact hu

end Rows

end Kindred

/-! ## Records that are told -/

namespace Kindred

variable {a b : Option Auditor} {trail : List Notice} {w w' : World}

/-- Both services are told of a new execution, before its record is written. -/
theorem startExecution (h : Kindred a b trail w w') (hnew : ∀ x, HasRecord w.storage x.id x → x.id ≠ w.nextExecution)
    (workflow : String) (triggerData : Value) :
    (¬(Store.Executions.place w.nextExecution).Fits ∧ ∃ fault u u',
      run (Journal.startExecution workflow triggerData) w = (.error fault, u) ∧
      run (Journal.startExecution workflow triggerData) w' = (.error fault, u') ∧ Issued u.issued w.nextExecution ∧
      Kindred a b (trail ++ [.opened workflow w.nextExecution]) u u') ∨
    (Store.Executions.place w.nextExecution).Fits ∧ ∃ x session u u',
      run (Journal.startExecution workflow triggerData) w = (.ok x, u) ∧
      run (Journal.startExecution workflow triggerData) w' = (.ok (x.inSession session), u') ∧
      x.id = w.nextExecution ∧ x.workflowId = workflow ∧ HasRecord u.storage x.id x ∧
      Kindred a b (trail ++ [.opened workflow x.id]) u u' := by
  have hnew' (y : Execution) (hy : HasRecord w'.storage y.id y) : y.id ≠ w'.nextExecution := by
    obtain ⟨session, hy⟩ := h.of_hasRecord hy
    rw [h.nextExecution]
    exact hnew (y.inSession session) hy
  obtain ⟨session, v, hq, hr, ht, hwrite⟩ := Journal.run_startExecution h.told workflow triggerData hnew
  obtain ⟨session', v', hq', hr', ht', hwrite'⟩ := Journal.run_startExecution h.told' workflow triggerData hnew'
  rw [h.nextExecution] at hr' ht' hwrite'
  rw [h.clock] at hr' hwrite'
  have hv := h.counted.quiet hq hq'
  generalize hx : Execution.begun w.nextExecution workflow triggerData session w.clock.stamp = x at hr hwrite
  have hx' : Execution.begun w.nextExecution workflow triggerData session' w.clock.stamp = x.inSession session' := by
    rw [← hx]
    rfl
  have hid : x.id = w.nextExecution := by rw [← hx]; rfl
  rw [hx'] at hr' hwrite'
  have hsave := Store.Executions.run_save hv.steady x
  have hsave' := Store.Executions.run_save hv.steady' (x.inSession session')
  rw [show (x.inSession session').id = x.id from rfl] at hsave'
  rw [← hid] at hr hr' ht ht' hwrite hwrite' ⊢
  by_cases hf : (Store.Executions.place x.id).Fits
  · obtain ⟨s, hw⟩ : ∃ s, v.storage.write (Store.Executions.place x.id) x.toValue = .ok s :=
      ⟨_, Storage.write_of_fits hf⟩
    obtain ⟨s', hw'⟩ : ∃ s', v'.storage.write (Store.Executions.place x.id) (x.inSession session').toValue = .ok s' :=
      ⟨_, Storage.write_of_fits hf⟩
    rw [hw] at hsave
    rw [hw'] at hsave'
    have hu : Kindred a b (trail ++ [.opened workflow x.id]) { v with storage := s } { v' with storage := s' } :=
      ⟨hv.wrote x session' ⟨s, hw, .refl _⟩ ⟨s', hw', .refl _⟩, hwrite s hw, hwrite' s' hw'⟩
    have hworkflow : x.workflowId = workflow := by rw [← hx]; rfl
    refine .inr ⟨hf, x, session', _, _, (hr.trans (run_bind_ok hsave)).trans rfl, (hr'.trans (run_bind_ok hsave')).trans rfl,
      rfl, hworkflow, Storage.read_write_self hw, hu.said rfl⟩
  · obtain ⟨fault, hfault⟩ := Option.ne_none_iff_exists'.1 (mt Storage.obstacle?_eq_none.1 hf)
    have hw {s : Storage} (value : Value) (hs : s.obstacle? (Store.Executions.place x.id) = some fault) :
        s.write (Store.Executions.place x.id) value = .error fault := by
      rw [Storage.write, hs]
    rw [hw _ hfault] at hsave
    rw [hw _ ((hv.storage.obstacle? _).trans hfault)] at hsave'
    have hissued : Issued v.issued x.id := by
      rw [hq.issued, hid]
      exact issued_nextExecution w
    exact .inl ⟨hf, fault, v, v', by rw [hr, run_bind_error hsave], by rw [hr', run_bind_error hsave'], hissued,
      hv, ht, ht'⟩

/-- Both services are told of what came of an invocation. -/
theorem finishExecution (h : Kindred a b trail w w') {x : Execution} (hx : HasRecord w.storage x.id x)
    (hf : (Store.Executions.place x.id).Fits) (status : RunStatus) (error : Option String) (duration : Int) :
    let y := x.ended status error duration w.clock.stamp
    ∃ session u u', run (Journal.finishExecution x.id status (Value.ofText? error) duration) w = (.ok y, u) ∧
      run (Journal.finishExecution x.id status (Value.ofText? error) duration) w' = (.ok (y.inSession session), u') ∧
      Wrote (Store.Executions.place x.id) y.toValue w u ∧
      Kindred a b (trail ++ [.concluded x.id x.workflowId status error w.clock.stamp]) u u' := by
  intro y
  obtain ⟨session, hx'⟩ := h.hasRecord hx
  obtain ⟨u, hr, hw, ht⟩ := Journal.run_finishExecution h.told h.steady hx hf status error duration
  obtain ⟨u', hr', hw', ht'⟩ :=
    Journal.run_finishExecution h.told' h.steady' (x := x.inSession session) hx' hf status error duration
  rw [h.clock] at hr' hw' ht'
  exact ⟨session, u, u', hr, hr', hw, h.toAkin.wrote y session hw hw', ht, ht'⟩

/-- What a run has come to is written in both worlds, and both services are told of that. -/
theorem finalize (h : Kindred a b trail w w') {x : Execution} {r : Run} (hx : HasRecord w.storage x.id x)
    (he : r.execution = x.id) (hf : (Store.Executions.place x.id).Fits) (duration : Int) :
    ∃ u u', run (Invocation.finalize r duration) w = (.ok r.answer, u) ∧
      run (Invocation.finalize r duration) w' = (.ok r.answer, u') ∧
      Wrote (Store.Executions.place x.id) (x.ended r.status r.error duration w.clock.stamp).toValue w u ∧
      Kindred a b (trail ++ [.concluded x.id x.workflowId r.status r.error w.clock.stamp]) u u' := by
  obtain ⟨session, u, u', hr, hr', hw, hu⟩ := h.finishExecution hx hf r.status r.error duration
  rw [Invocation.finalize_eq, he]
  refine ⟨u, u', ?_, ?_, hw, hu⟩
  · rw [run_bind_ok (run_entering_steady h.steady _), run_bind_ok hr]
    rfl
  · rw [run_bind_ok (run_entering_steady h.steady' _), run_bind_ok hr']
    rfl

/-- An execution that starts does so in both worlds, up to the dispatch of its trigger node. -/
theorem opening (h : Kindred a b trail w w') (hnew : ∀ x, HasRecord w.storage x.id x → x.id ≠ w.nextExecution)
    (W : Workflow) (payload : Value) :
    (¬(Store.Executions.place w.nextExecution).Fits ∧ ∃ fault u u',
      run (Invocation.opening W payload) w = (.error fault, u) ∧
      run (Invocation.opening W payload) w' = (.error fault, u') ∧ Issued u.issued w.nextExecution ∧
      Kindred a b (trail ++ [.opened W.id w.nextExecution]) u u') ∨
    (Store.Executions.place w.nextExecution).Fits ∧ ∃ x u u',
      run (Invocation.opening W payload) w = (.ok (.start x.id W (.start payload)), u) ∧
      run (Invocation.opening W payload) w' = (.ok (.start x.id W (.start payload)), u') ∧
      x.id = w.nextExecution ∧ x.workflowId = W.id ∧ HasRecord u.storage x.id x ∧
      Kindred a b (trail ++ [.opened W.id x.id]) u u' := by
  rcases h.startExecution hnew W.id (Context.start payload).triggerData with
    ⟨hf, fault, u, u', hr, hr', hi, hu⟩ | ⟨hf, x, session, v, v', hr, hr', hid, hworkflow, hx, hv⟩
  · exact .inl ⟨hf, fault, u, u', run_bind_error hr, run_bind_error hr', hi, hu⟩
  · have hbond := kindred_bond a b (trail ++ [.opened W.id x.id])
    have hlog : Abreast (Kindred a b (trail ++ [.opened W.id x.id])) (Engine.log .info "executor" "workflow_started"
      [("workflow_id", .str W.id), ("execution_id", .str x.id)]) := hbond.log
    have hrun := abreast_bind hlog fun _ =>
      abreast_bind (hbond.warnOfCycle W (Run.start x.id W (.start payload)).graph) fun _ =>
        abreast_pure (Run.start x.id W (.start payload))
    obtain ⟨result, u, u', hn, hn', hu⟩ := hrun v v' hv
    obtain ⟨t, hq, hopen⟩ := Invocation.run_opening hr
    have hu₁ : run (Invocation.opening W payload) w = (result, u) := (run_bind_ok hr).trans hn
    have hu₁' : run (Invocation.opening W payload) w' = (result, u') := (run_bind_ok hr').trans hn'
    obtain ⟨rfl, rfl⟩ := Prod.mk.inj (hu₁.symm.trans hopen)
    exact .inr ⟨hf, x, u, u', hu₁, hu₁', hid, hworkflow, hq.hasRecord hx, hu⟩

end Kindred

end WorkGraph
