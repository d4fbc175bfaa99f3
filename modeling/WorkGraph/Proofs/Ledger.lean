import WorkGraph.Proofs.Rows

/-!
# What the journal writes

Each entry of the journal is one value in one file, and then a report to the audit trail: `Posted` says so of every
entry on the node log (`startNode_posted`, `nodeSucceeded_posted`, `nodeFailed_posted`, `routingFailed_posted`) and on the
record of the execution (`startExecution_cases`, `finishExecution_posted`). A report goes through where the audit service
gives answers that can be read (`Audible`).
-/

namespace WorkGraph

/-! ## Reports that go through -/

/-- Whether the audit service can be asked, and every proper answer of it can be read, as one that names a session too. -/
structure Auditor.Sound (a : Auditor) : Prop where
  opened : a.closed = false
  answers : ∀ n body, Audit.proper? (a.answers n) = some body →
    ∃ data session, Audit.answerData body = .ok data ∧ Audit.sessionOf data = .ok (Value.ofText? session)

/-- Whether there is no audit service or a sound one. -/
def World.Heard (w : World) : Prop :=
  ∀ a, w.auditor = some a → a.Sound

theorem Auditor.Sound.of_service {a b : Auditor} (h : a.Sound) (hs : b.service = a.service) : b.Sound := by
  simp only [service, Prod.mk.injEq] at hs
  exact ⟨hs.2.2 ▸ h.opened, hs.2.1 ▸ h.answers⟩

theorem World.Heard.of_service {w w' : World} (h : w.Heard)
    (hs : w'.auditor.map Auditor.service = w.auditor.map Auditor.service) : w'.Heard := by
  intro b hb
  rw [hb] at hs
  cases ha : w.auditor with
  | none => rw [ha] at hs; cases hs
  | some a =>
    rw [ha] at hs
    exact (h a ha).of_service (Option.some.inj hs)

theorem Quiet.heard {w w' : World} (h : Quiet w w') (hw : w.Heard) : w'.Heard :=
  hw.of_service h.auditor

theorem Wrote.heard {place : Location} {v : Value} {w w' : World} (h : Wrote place v w w') (hw : w.Heard) : w'.Heard :=
  hw.of_service h.service

/-- Whether the record of an execution is this. -/
def HasRecord (s : Storage) (id : String) (x : Execution) : Prop :=
  s.read (Store.Executions.place id) .null = .ok x.toValue

/-- Whether what is reported of an execution is heard. -/
structure Audible (execution : String) (w : World) : Prop where
  steady : w.Steady
  heard : w.Heard
  record : ∃ x, HasRecord w.storage execution x

namespace Audible

variable {execution : String} {w w' : World} {place : Location} {v : Value}

theorem quiet (h : Audible execution w) (hq : Quiet w w') : Audible execution w' where
  steady := hq.steady h.steady
  heard := hq.heard h.heard
  record := by
    obtain ⟨x, hx⟩ := h.record
    exact ⟨x, by rw [HasRecord, hq.storage]; exact hx⟩

theorem wrote (h : Audible execution w) (hw : Wrote place v w w')
    (hne : (Store.Executions.place execution).path ≠ place.path) : Audible execution w' where
  steady := hw.steady h.steady
  heard := hw.heard h.heard
  record := by
    obtain ⟨x, hx⟩ := h.record
    exact ⟨x, by rw [HasRecord, hw.read_ne hne]; exact hx⟩

end Audible

namespace Audit

open Engine

/-- A sound service says something that can be read. -/
theorem run_callTool_heard {w : World} (h : w.Heard) (tool : String) (arguments : Value) :
    ∃ data session, (run (callTool tool arguments) w).1 = .ok data ∧ sessionOf data = .ok (Value.ofText? session) := by
  unfold callTool
  rw [run_get_bind]
  cases ha : w.auditor with
  | none => exact ⟨.null, none, rfl, rfl⟩
  | some auditor =>
    have hsound := h auditor ha
    cases he : auditor.enabled with
    | false => exact ⟨.null, none, by simp [he], rfl⟩
    | true =>
      cases hp : proper? (auditor.answers auditor.asked) with
      | none => exact ⟨.null, none, by simp [he, hsound.opened, hp, emit, log]; rfl, rfl⟩
      | some body =>
        obtain ⟨data, session, hd, hs⟩ := hsound.answers _ _ hp
        exact ⟨data, session, by simp [he, hsound.opened, hp, emit, hd]; rfl, hs⟩

theorem run_append_heard {w : World} (h : w.Heard) (session : Value) (content : String) (metadata : Entries Value) :
    (run (append session content metadata) w).1 = .ok () := by
  unfold append
  split
  · rw [run_bind_ok (run_stamp w)]
    obtain ⟨data, -, hd, -⟩ := run_callTool_heard h "append_message" (.map
      [("session_id", session), ("type", .str "system"), ("content", .str content),
        ("metadata", .map (metadata.set "timestamp" (.str (w.clock.stamp ++ "+00:00"))))])
    rw [run_bind_of_fst hd]
    rfl
  · rfl

theorem run_createSession_heard {w : World} (h : w.Heard) (workflow execution : Value) :
    ∃ session, (run (createSession workflow execution) w).1 = .ok (Value.ofText? session) := by
  unfold createSession
  obtain ⟨data, session, hd, hs⟩ := run_callTool_heard h "create_session" (.map
    [("title", .str ("Workflow: " ++ workflow.display)),
      ("metadata", .map
        [("type", .str "flowrunner"), ("workflow_id", workflow), ("execution_id", execution)])])
  exact ⟨session, by rw [run_bind_of_fst hd, run_ofExcept, hs]⟩

end Audit

namespace Store

open Engine

/-- A record that is there is found. -/
theorem Executions.run_find? {w : World} {id : String} {x : Execution} (hs : w.Steady) (hx : HasRecord w.storage id x) :
    run (find? id) w = (.ok (some x), w) := by
  unfold find?
  have ht : x.toValue.truthy = true := rfl
  rw [run_bind_ok (run_entering_steady hs _), run_readFile_bind hx, if_pos ht, run_bind_ok (run_stamp w),
    Execution.load_toValue]
  rfl

/-- What is found was loaded from the file. -/
theorem Executions.eq_some_of_find? {w w' : World} {id : String} {x : Execution}
    (h : run (find? id) w = (.ok (some x), w')) :
    ∃ v now, w.storage.read (place id) .null = .ok v ∧ Execution.load now v = .ok x := by
  unfold find? at h
  obtain ⟨_, u, he, h⟩ := eq_ok_of_bind h
  have hq := hushed_entering .getExecution w
  rw [he] at hq
  obtain ⟨v, u', hv, h⟩ := eq_ok_of_bind h
  rw [run_readFile, hq.storage, Prod.mk.injEq] at hv
  split at h
  · obtain ⟨now, u'', -, h⟩ := eq_ok_of_bind h
    obtain ⟨y, hy, hxy⟩ := eq_ok_of_map h
    obtain rfl := Option.some.inj hxy
    exact ⟨v, now, hv.1, (eq_ok_of_ofExcept hy).1⟩
  · cases h

end Store

namespace Journal

open Engine

variable {execution : String} {report : Value → Engine Unit} {w : World}

theorem run_sessionFor_ok (h : Audible execution w) : ∃ session, (run (sessionFor execution) w).1 = .ok session := by
  unfold sessionFor
  rw [run_get_bind]
  cases w.sessions.get? execution with
  | some session => exact ⟨session, rfl⟩
  | none =>
    obtain ⟨x, hx⟩ := h.record
    refine ⟨Value.ofText? x.historySession, ?_⟩
    dsimp only
    rw [run_bind_ok (Store.Executions.run_find? h.steady hx)]
    rfl

/-- What is heard gets through. -/
theorem run_report_heard (h : Audible execution w)
    (hr : ∀ session w', w'.Heard → (run (report session) w').1 = .ok ()) :
    (run (audited do report (← sessionFor execution)) w).1 = .ok () := by
  unfold audited
  rw [run_get_bind]
  split
  · obtain ⟨session, hs⟩ := run_sessionFor_ok h
    rw [run_bind_of_fst hs]
    exact hr session _ ((hushed_sessionFor execution w).heard h.heard)
  · rfl

/-- A report, after which something is returned. -/
theorem report_returning {α : Type} (a : α) (w : World)
    (hr : ∀ session w', w'.Heard → (run (report session) w').1 = .ok ()) :
    let act : Engine α := do
      audited do report (← sessionFor execution)
      return a
    (run act w).1 = .ok a ∨ ¬Audible execution w ∧ ∃ fault, (run act w).1 = .error fault := by
  intro act
  cases h : run (audited do report (← sessionFor execution)) w with
  | mk result w' =>
    cases result with
    | ok u => exact .inl (by rw [show act = _ from rfl, run_bind_ok h]; rfl)
    | error fault =>
      refine .inr ⟨fun hA => ?_, fault, by rw [show act = _ from rfl, run_bind_error h]⟩
      have := run_report_heard hA hr
      rw [h] at this
      cases this

/-! ## Rows of the node log -/

section Rows

variable {node : Node} {logs : List NodeLog} {log : NodeLog}

/-- A node that starts has a row at the end of the log. -/
theorem startNode_posted (h : HasLogs w.storage execution logs) (ht : node.Titled) (input : Value) :
    let log := NodeLog.opened execution (logs.length + 1) node input w.clock.stamp
    Posted (Store.NodeLogs.place execution) (.list ((logs ++ [log]).map NodeLog.toValue)) log (Audible execution w) w
      (run (startNode execution node input) w) := by
  have hw := Store.NodeLogs.append_posted h rfl rfl (NodeLog.load_opening ht input)
  refine hw.reporting ?_ fun w' hw' => ?_
  · exact hushed_bind (hushed_report fun _ => Audit.hushed_append _ _ _) fun _ => hushed_pure _
  · exact (report_returning _ w' fun session u hu => Audit.run_append_heard hu _ _ _).imp_right
      (And.imp_left (mt fun hA => hA.wrote hw' (executions_ne_nodeLogs _ _)))

/-- Nothing starts where the log is no list or the title no text. -/
theorem startNode_barred (h : node.Titled → ∀ rows, w.storage.read (Store.NodeLogs.place execution) (.list []) ≠
      .ok (.list rows)) (input : Value) : Barred (startNode execution node input) w := by
  refine Barred.bind (Store.NodeLogs.append_barred fun rows hr log hl => ?_)
  by_cases ht : node.Titled
  · exact h ht rows hr
  · exact NodeLog.load_opening_ne ht input log hl

/-- A node that succeeded has its row closed. -/
theorem nodeSucceeded_posted (h : HasLogs w.storage log.executionId (logs ++ [log])) (hc : Counted (logs ++ [log]))
    (output : Value) (duration : Int) :
    let row := log.succeeded output duration w.clock.stamp
    Posted (Store.NodeLogs.place log.executionId) (.list ((logs ++ [row]).map NodeLog.toValue)) row
      (Audible log.executionId w) w (run (nodeSucceeded log output duration) w) := by
  have hw := Store.NodeLogs.update_posted h hc rfl (NodeLog.load_succeeded _ log output duration w.clock.stamp)
  unfold nodeSucceeded
  rw [run_bind_ok (run_stamp w)]
  refine hw.reporting ?_ fun w' hw' => ?_
  · exact hushed_bind (hushed_report fun _ => Audit.hushed_append _ _ _) fun _ => hushed_pure _
  · exact (report_returning _ w' fun session u hu => Audit.run_append_heard hu _ _ _).imp_right
      (And.imp_left (mt fun hA => hA.wrote hw' (executions_ne_nodeLogs _ _)))

/-- A node that failed has its row closed. -/
theorem nodeFailed_posted (h : HasLogs w.storage log.executionId (logs ++ [log])) (hc : Counted (logs ++ [log]))
    (fault : Fault) (duration : Int) (output : Value) :
    let row := log.failed fault duration output w.clock.stamp
    Posted (Store.NodeLogs.place log.executionId) (.list ((logs ++ [row]).map NodeLog.toValue)) row
      (Audible log.executionId w) w (run (nodeFailed log fault duration output) w) := by
  have hw := Store.NodeLogs.update_posted h hc rfl (NodeLog.load_failed _ log fault duration output w.clock.stamp)
  unfold nodeFailed
  rw [run_bind_ok (run_stamp w)]
  refine hw.reporting ?_ fun w' hw' => ?_
  · exact hushed_bind (hushed_log (by decide)) fun _ =>
      hushed_bind (hushed_report fun _ => Audit.hushed_append _ _ _) fun _ => hushed_pure _
  · have hlog : Quiet w' (run (Engine.log .warning "recorder" "node_failed"
        [("execution_id", .str log.executionId), ("node_id", .str log.nodeId), ("node_type", .str log.nodeType),
          ("error", .str fault.message)]) w').2 := hushed_log (by decide) w'
    exact (report_returning _ _ fun session u hu => Audit.run_append_heard hu _ _ _).imp_right
      (And.imp_left (mt fun hA => (hA.wrote hw' (executions_ne_nodeLogs _ _)).quiet hlog))

/-- A click that led nowhere has a row of its own behind whatever rows there are. -/
theorem routingFailed_listed {rows : List Value}
    (h : w.storage.read (Store.NodeLogs.place execution) (.list []) = .ok (.list rows)) (node message : String)
    (details : Entries Value) :
    let log := NodeLog.unrouted execution (rows.length + 1) node message details w.clock.stamp
    Posted (Store.NodeLogs.place execution) (.list (rows ++ [log.toValue])) log True w
      (run (routingFailed execution node message details) w) := by
  have hw := Store.NodeLogs.append_listed h rfl rfl (NodeLog.load_unrouted node message details)
  unfold routingFailed
  rw [run_bind_ok (run_stamp w)]
  refine hw.reporting ?_ fun w' hw' => .inl rfl
  exact hushed_bind (hushed_log (by decide)) fun _ => hushed_pure _

/-- A click that led nowhere has a row of its own at the end of the log. -/
theorem routingFailed_posted (h : HasLogs w.storage execution logs) (node message : String) (details : Entries Value) :
    let log := NodeLog.unrouted execution (logs.length + 1) node message details w.clock.stamp
    Posted (Store.NodeLogs.place execution) (.list ((logs ++ [log]).map NodeLog.toValue)) log True w
      (run (routingFailed execution node message details) w) := by
  intro log
  have hw := routingFailed_listed h node message details
  rw [List.length_map] at hw
  rw [List.map_append]
  exact hw

/-- No such row is added to what is no list of rows. -/
theorem routingFailed_barred
    (h : ∀ rows, w.storage.read (Store.NodeLogs.place execution) (.list []) ≠ .ok (.list rows)) (node message : String)
    (details : Entries Value) : Barred (routingFailed execution node message details) w :=
  barred_stamp (Barred.bind (Store.NodeLogs.append_barred fun rows hrows => absurd hrows (h rows)))

end Rows

end Journal

/-! ## The record of an execution -/

/-- A key that is in neither map is in none of the two together. -/
theorem Entries.get?_merge_eq_none {α : Type} {m n : Entries α} {key : String} (hm : m.get? key = none)
    (hn : key ∉ n.keys) : (m.merge n).get? key = none := by
  induction n generalizing m with
  | nil => exact hm
  | cons e rest ih =>
    simp only [keys, List.map_cons, List.mem_cons, not_or] at hn
    refine ih ?_ hn.2
    rw [get?_set_ne _ _ hn.1]
    exact hm

/-- Both sides of a reading must be there. -/
theorem Checked.seq_eq_ok {α β : Type} {f : Checked (α → β)} {a : Checked α} {b : β} (h : f <*> a = .ok b) :
    ∃ g x, f = .ok g ∧ a = .ok x ∧ g x = b := by
  cases f with
  | ok g =>
    cases a with
    | ok x => exact ⟨g, x, rfl, rfl, Checked.ok.inj h⟩
    | bad => cases h
  | bad => cases a <;> cases h

namespace Execution

/-- A new execution. -/
def begun (id workflow : String) (triggerData : Value) (session : Option String) (now : String) : Execution :=
  { id, workflowId := workflow, status := .running, triggerData, errorMessage := none, durationMs := 0
    startedAt := now, historySession := session, completedAt := none }

/-- An execution of which an invocation has ended. -/
def ended (x : Execution) (status : RunStatus) (error : Option String) (duration : Int) (now : String) : Execution :=
  { x with
    status, errorMessage := error, durationMs := duration
    completedAt := if status = .running then x.completedAt else some now }

/-- The stored form. -/
def entries (x : Execution) : Entries Value :=
  [("id", .str x.id), ("workflow_id", .str x.workflowId), ("status", .str x.status.name),
    ("trigger_data", x.triggerData), ("error_message", Value.ofText? x.errorMessage),
    ("duration_ms", .int x.durationMs), ("started_at", .str x.startedAt),
    ("history_session_id", Value.ofText? x.historySession), ("completed_at", Value.ofText? x.completedAt)]

/-- The fields that are changed when an invocation ends. -/
def ending (status : RunStatus) (error : Value) (duration : Int) (now : String) : Entries Value :=
  [("status", .str status.name), ("error_message", error), ("duration_ms", .int duration)] ++
    if status == .running then [] else [("completed_at", .str now)]

theorem toValue_eq (x : Execution) : x.toValue = .map x.entries := rfl

/-- The stored form tells executions apart. -/
theorem toValue_inj {x y : Execution} (h : x.toValue = y.toValue) : x = y :=
  Except.ok.inj ((load_toValue "" x).symm.trans (h ▸ load_toValue "" y))

theorem hasRecord_unique {s : Storage} {id : String} {x y : Execution} (h : HasRecord s id x) (k : HasRecord s id y) :
    x = y :=
  toValue_inj (Except.ok.inj (h.symm.trans k))

theorem load_begun (id workflow : String) (triggerData : Value) (session : Option String) (now : String) :
    load now (.map [("id", .str id), ("workflow_id", .str workflow), ("status", .str RunStatus.running.name),
      ("trigger_data", triggerData), ("history_session_id", Value.ofText? session)]) =
      .ok (begun id workflow triggerData session now) := by
  simp [load, Checked.record, read, begun, Checked.required_cons_ne, Checked.orFault,
    Checked.word_str (RunStatus.ofName?_name .running), Checked.any, Checked.optional, Entries.get?]

theorem load_ended (stamp : String) (x : Execution) (status : RunStatus) (error : Option String) (duration : Int)
    (now : String) :
    load stamp (.map (Entries.merge x.entries (ending status (Value.ofText? error) duration now))) =
      .ok (x.ended status error duration now) := by
  rw [← load_toValue stamp (x.ended status error duration now)]
  cases status <;> rfl

/-- An execution names its workflow. -/
theorem load_ne_of_missing {now : String} {entries : Entries Value} (h : entries.get? "workflow_id" = none)
    (x : Execution) : load now (.map entries) ≠ .ok x := by
  intro hl
  have hr : read now entries = .ok x := by
    unfold load at hl
    cases hr : read now entries with
    | ok y => simpa [Checked.record, hr, Checked.orFault] using hl
    | bad misfits => simp [Checked.record, hr, Checked.orFault] at hl
  -- from the last field back to the second
  obtain ⟨_, _, hr, -⟩ := Checked.seq_eq_ok hr
  obtain ⟨_, _, hr, -⟩ := Checked.seq_eq_ok hr
  obtain ⟨_, _, hr, -⟩ := Checked.seq_eq_ok hr
  obtain ⟨_, _, hr, -⟩ := Checked.seq_eq_ok hr
  obtain ⟨_, _, hr, -⟩ := Checked.seq_eq_ok hr
  obtain ⟨_, _, hr, -⟩ := Checked.seq_eq_ok hr
  obtain ⟨_, _, hr, -⟩ := Checked.seq_eq_ok hr
  obtain ⟨_, workflow, -, hw, -⟩ := Checked.seq_eq_ok hr
  simp [Checked.required, h] at hw

/-- A session is a text or nothing. -/
theorem load_begun_ne (id workflow : String) (triggerData : Value) (session : Value) (now : String) (h : ∀ s, session ≠ Value.ofText? s) (x : Execution) :
    load now (.map [("id", .str id), ("workflow_id", .str workflow), ("status", .str RunStatus.running.name),
      ("trigger_data", triggerData), ("history_session_id", session)]) ≠ .ok x := by
  have hs : Checked.text? session = Checked.problem .notText := by
    cases session with
    | null => exact absurd rfl (h none)
    | str s => exact absurd rfl (h (some s))
    | bool | num | list | map => rfl
  simp [load, Checked.record, read, hs, Checked.required_cons_ne, Checked.orFault,
    Checked.word_str (RunStatus.ofName?_name .running), Checked.any, Checked.optional, Entries.get?, Checked.problem,
    Checked.under]

end Execution

namespace Store.Executions

open Engine

variable {w : World} {id : String} {x y : Execution} {fields : Entries Value}

theorem save_posted (x : Execution) (w : World) :
    Posted (place x.id) x.toValue () True w (run (save x) w) :=
  .entering _ fun u _ => .writeFile _ _ u

/-- The fields of a record are changed. -/
theorem update_posted (h : HasRecord w.storage id x) (hf : unnamed ["self", "execution_id"] fields = .ok ())
    (hl : Execution.load w.clock.stamp (.map (Entries.merge x.entries fields)) = .ok y) :
    Posted (place id) y.toValue y True w (run (update id fields) w) := by
  refine .entering _ fun u hq => ?_
  have hr : u.storage.read (place id) .null = .ok (.map x.entries) := by rw [hq.storage]; exact h
  rw [← hq.clock] at hl
  have hw := Posted.writeFile (place id) y.toValue u
  have ht : (!(Value.map x.entries).truthy) = false := rfl
  rw [run_ofExcept_bind hf, run_readFile_bind hr, ht, if_neg Bool.false_ne_true]
  dsimp only
  rw [run_bind_ok (run_stamp u), run_ofExcept_bind hl]
  exact hw.returning y

/-- What is no record is not changed. -/
theorem update_barred (h : ∀ entries, w.storage.read (place id) .null = .ok (.map entries) →
      ∀ y, Execution.load w.clock.stamp (.map (Entries.merge entries fields)) ≠ .ok y) :
    Barred (update id fields) w := by
  refine barred_bind (hushed_entering _) fun _ u _ hq => barred_ofExcept fun _ _ => barred_readFile fun v hv => ?_
  rw [hq.storage] at hv
  rw [← hq.clock] at h
  dsimp only
  split
  · exact (barred_throw _ _).bind
  · cases v with
    | map entries => exact barred_stamp (barred_ofExcept fun y hy => absurd hy (h entries hv y))
    | null | bool | num | str | list => exact barred_throw _ _

end Store.Executions

namespace Journal

open Engine

theorem run_openSession_heard {w : World} (h : w.Heard) (workflow execution : String) :
    ∃ session, (run (openSession workflow execution) w).1 = .ok (Value.ofText? session) := by
  unfold openSession
  rw [run_get_bind]
  split
  · obtain ⟨session, hs⟩ := Audit.run_createSession_heard h (.str workflow) (.str execution)
    exact ⟨session, by rw [run_bind_of_fst hs]; rfl⟩
  · exact ⟨none, rfl⟩

/-- A new execution has its record, unless an injected fault shows, the audit service says what cannot be read, or the
record cannot be written. -/
theorem startExecution_cases (workflow : String) (triggerData : Value) (w : World) :
    let id := w.nextExecution
    (∃ session w', run (startExecution workflow triggerData) w =
        (.ok (.begun id workflow triggerData session w.clock.stamp), w') ∧
      Wrote (Store.Executions.place id) (Execution.begun id workflow triggerData session w.clock.stamp).toValue
        { w with issued := w.issued + 1 } w') ∨
    ¬(w.Steady ∧ w.Heard ∧ (Store.Executions.place id).Fits) ∧ ∃ fault w',
      run (startExecution workflow triggerData) w = (.error fault, w') ∧ Quiet { w with issued := w.issued + 1 } w' := by
  intro id
  let u : World := { w with issued := w.issued + 1 }
  unfold startExecution
  rw [run_bind_ok (run_freshExecutionId w)]
  have hq : Quiet u (run (openSession workflow id) u).2 := hushed_openSession workflow id u
  have hh : w.Heard → ∃ session, (run (openSession workflow id) u).1 = .ok (Value.ofText? session) :=
    fun h => run_openSession_heard (w := u) h workflow id
  cases ho : run (openSession workflow id) u with
  | mk result u' =>
    rw [ho] at hq hh
    cases result with
    | error fault =>
      refine .inr ⟨fun hf => ?_, fault, u', run_bind_error ho, hq⟩
      obtain ⟨session, hs⟩ := hh hf.2.1
      cases hs
    | ok value =>
      rw [run_bind_ok ho, run_bind_ok (run_stamp u')]
      have hclock : u'.clock = w.clock := hq.clock
      rw [hclock]
      by_cases hv : ∃ session, value = Value.ofText? session
      · obtain ⟨session, rfl⟩ := hv
        rw [run_ofExcept_bind (Execution.load_begun _ _ _ _ _)]
        have hp := Store.Executions.save_posted (.begun id workflow triggerData session w.clock.stamp) u'
        cases hs : run (Store.Executions.save (.begun id workflow triggerData session w.clock.stamp)) u' with
        | mk result w' =>
          rw [hs] at hp
          cases hp with
          | done hw =>
            rw [run_bind_ok hs]
            have hlog : Quiet w' (run (Engine.log .info "recorder" "execution_started"
              [("execution_id", .str id), ("workflow_id", .str workflow)]) w').2 := hushed_log (by decide) w'
            exact .inl ⟨session, _, rfl, (hw.before hq).after hlog⟩
          | unheard hn _ => exact absurd trivial hn
          | lost hn hq' =>
            refine .inr ⟨fun hf => hn ⟨hq.steady hf.1, hf.2.2⟩, _, _, run_bind_error hs, hq.trans hq'⟩
      · have hl := Execution.load_begun_ne id workflow triggerData value w.clock.stamp (fun s hs => hv ⟨s, hs⟩)
        cases hx : Execution.load w.clock.stamp (.map [("id", .str id), ("workflow_id", .str workflow),
          ("status", .str RunStatus.running.name), ("trigger_data", triggerData), ("history_session_id", value)]) with
        | ok x => exact absurd hx (hl x)
        | error fault =>
          refine .inr ⟨fun hf => ?_, fault, u', run_ofExcept_bind_error rfl u', hq⟩
          obtain ⟨session, hs⟩ := hh hf.2.1
          exact hv ⟨session, Except.ok.inj hs⟩
/-- What comes of an invocation is written to the record. -/
theorem finishExecution_posted {w : World} {id : String} {x : Execution} (h : HasRecord w.storage id x) (status : RunStatus)
    (error : Option String) (duration : Int) :
    let y := x.ended status error duration w.clock.stamp
    Posted (Store.Executions.place id) y.toValue y (Audible id w) w
      (run (finishExecution id status (Value.ofText? error) duration) w) := by
  intro y
  unfold finishExecution
  rw [run_bind_ok (run_stamp w)]
  have hf : Store.unnamed ["self", "execution_id"] (Execution.ending status (Value.ofText? error) duration w.clock.stamp) = .ok () := by
    cases status <;> rfl
  have hw := Store.Executions.update_posted h hf (Execution.load_ended _ x status error duration w.clock.stamp)
  refine hw.reporting ?_ fun w' hw' => ?_
  · refine hushed_bind (hushed_log (by decide)) fun _ =>
      hushed_bind (hushed_report fun _ => Audit.hushed_append _ _ _) fun _ => hushed_pure _
  · have hlog : Quiet w' (run (Engine.log (if status == .failed then .warning else .info) "recorder"
        "execution_finished" [("execution_id", .str id), ("status", .str y.status.name),
          ("duration_ms", .int y.durationMs), ("error_message", Value.ofText? error)]) w').2 := hushed_log (by decide) w'
    refine (report_returning _ _ fun session u hu => Audit.run_append_heard hu _ _ _).imp_right
      (And.imp_left (mt fun hA => Audible.quiet ⟨hw'.steady hA.steady, hw'.heard hA.heard, y, hw'.read_self⟩ hlog))

/-- What is no record stays as it is. -/
theorem finishExecution_barred {w : World} {id : String} {status : RunStatus} {error : Value} {duration : Int}
    (h : ∀ entries, w.storage.read (Store.Executions.place id) .null = .ok (.map entries) →
      Entries.get? entries "workflow_id" = none) : Barred (finishExecution id status error duration) w := by
  unfold finishExecution
  refine barred_stamp (Barred.bind (Store.Executions.update_barred fun entries hr y => ?_))
  refine Execution.load_ne_of_missing (Entries.get?_merge_eq_none (h entries hr) ?_) y
  cases status <;> simp [Entries.keys]
end Journal

end WorkGraph
