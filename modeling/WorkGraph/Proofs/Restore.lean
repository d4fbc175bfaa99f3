import WorkGraph.Proofs.Mirror
import WorkGraph.Proofs.Once

/-!
# Restoring the context of a run

Unless the store refuses something, the record and the log of an execution tell the context of its run at every moment
(`Faithful`, `stable_faithful`); the store refuses the row of a node whose title is no text (`Spoiled`). So the context
at the end of an invocation can be restored, but for what clicks have added to it (`restores_unless_clicked`).
-/

namespace WorkGraph

open Engine

/-- What the storage tells of the context of an execution. -/
def Store.rebuild (execution : String) : Engine Context := do
  match ← Executions.find? execution with
  | none => throw (.notFound "Execution" execution)
  | some x => Engine.ofExcept (Context.replay x.triggerData (← NodeLogs.all execution))

/-- Rows of clicks tell nothing of the context. -/
theorem Context.replay_of_attempts {logs : List NodeLog} (h : attempts logs = []) (triggerData : Value) :
    replay triggerData logs = .ok (.start triggerData) := by
  unfold replay
  induction logs with
  | nil => rfl
  | cons log rest ih =>
    cases hr : log.isRouting with
    | false => simp [attempts, hr] at h
    | true =>
      rw [List.foldlM_cons, replayLog, if_pos hr]
      exact ih (by simpa [attempts, hr] using h)

/-- A node was dispatched whose row the store refuses. -/
def Spoiled (p : Progress) : Prop :=
  ∃ node ∈ p.run.workflow.nodes, node.id ∈ p.run.entered ∧ ¬node.Titled

/-- What is stored of an execution tells the context of its run. -/
structure Faithful (p : Progress) : Prop where
  steady : p.world.Steady
  fits : (Store.NodeLogs.place p.run.execution).Fits
  typed : ∀ node ∈ p.run.workflow.nodes, node.nodeType?.isSome = true
  stored : ∃ x logs m, HasRecord p.world.storage p.run.execution x ∧ HasLogs p.world.storage p.run.execution logs ∧
    Counted logs ∧ Context.replay x.triggerData logs = .ok m ∧ p.run.context.Mirrors m

/-! ## Moves -/

/-- Rows do not matter to a record. -/
theorem Wrote.hasRecord {w w' : World} {id other : String} {v : Value} {x : Execution}
    (h : Wrote (Store.NodeLogs.place other) v w w') (hx : HasRecord w.storage id x) : HasRecord w'.storage id x := by
  rw [HasRecord, h.read_ne (executions_ne_nodeLogs _ _)]
  exact hx

/-- A node of a known type has no row of a click. -/
theorem NodeLog.isRouting_of_type {node : Node} {row : NodeLog} (h : node.nodeType?.isSome = true)
    (ht : row.nodeType = node.type) : row.isRouting = false := by
  rw [← Bool.not_eq_true, isRouting, beq_iff_eq, ht]
  intro hr
  rw [Node.nodeType?, hr] at h
  revert h
  decide

namespace Faithful

variable {w w' : World} {r : Run} {c : Context}

theorem quiet (h : Faithful ⟨w, r⟩) (hq : Quiet w w') : Faithful ⟨w', r⟩ where
  steady := hq.steady h.steady
  fits := h.fits
  typed := h.typed
  stored := by
    obtain ⟨x, logs, m, hx, hl, hrest⟩ := h.stored
    exact ⟨x, logs, m, hq.hasRecord hx, hq.hasLogs hl, hrest⟩

/-- Another run of the same workflow and execution, with the same context. -/
theorem rerun {s : Run} (h : Faithful ⟨w, r⟩) (he : s.execution = r.execution) (hw : s.workflow = r.workflow)
    (hc : s.context = r.context) : Faithful ⟨w, s⟩ where
  steady := h.steady
  fits := he ▸ h.fits
  typed := hw ▸ h.typed
  stored := by rw [he, hc]; exact h.stored

/-- The log has one row more, and the context has changed with it. -/
theorem turned {x : Execution} {logs : List NodeLog} {m : Context} {row : NodeLog} (h : Faithful ⟨w, r⟩)
    (hs : w'.Steady) (hx : HasRecord w'.storage r.execution x)
    (hl : HasLogs w'.storage r.execution (logs ++ [row])) (hc : Counted (logs ++ [row]))
    (hm : Context.replay x.triggerData logs = .ok m) (hrow : ∃ m', m.replayLog row = .ok m' ∧ c.Mirrors m') :
    Faithful ⟨w', { r with context := c }⟩ where
  steady := hs
  fits := h.fits
  typed := h.typed
  stored := by
    obtain ⟨m', hm', hmirror⟩ := hrow
    exact ⟨x, logs ++ [row], m', hx, hl, hc, (Context.replay_append hm).trans hm', hmirror⟩

/-- A node with a title is performed. -/
theorem performed {node : Node} (h : Faithful ⟨w, r⟩) (hn : node ∈ r.workflow.nodes) (ht : node.Titled)
    (hnew : r.context.isCompleted node.id = false) : Faithful (Running.go (Dispatch.perform node) ⟨w, r⟩).2 := by
  obtain ⟨x, logs, m, hx, hl, hc, hm, hmirror⟩ := h.stored
  have hout : r.context.hasOutput node.id = false := by
    rw [← Bool.not_eq_true]
    intro ho
    rw [hmirror.dispatched _ ho] at hnew
    cases hnew
  have hrouting {row : NodeLog} (hrow : row.nodeType = node.type) : row.isRouting = false :=
    NodeLog.isRouting_of_type (h.typed node hn) hrow
  have hran {entry : NodeLog} {w₁ w₂ : World} {result : Except Fault Value}
      (hw : Wrote (Store.NodeLogs.place r.execution) (.list ((logs ++ [entry]).map NodeLog.toValue)) w w₁)
      (hr : run (Dispatch.runNode node (r.marked node)) w₁ = (result, w₂)) :
      w₂.Steady ∧ HasRecord w₂.storage r.execution x := by
    have hworked := (Dispatch.runNode_worked node (r.marked node) w₁).1
    rw [hr] at hworked
    exact ⟨hworked.steady (hw.steady h.steady), hworked.hasRecord (hw.hasRecord hx)⟩
  have hp := @Dispatch.perform_cases node logs ⟨w, r⟩ hl hc
  generalize Running.go (Dispatch.perform node) ⟨w, r⟩ = out at hp
  cases hp with
  | untitled hno _ => exact absurd ht hno
  | @unopened _ _ entry he hposted =>
    cases hposted with
    | unheard _ hw =>
      refine h.turned (hw.steady h.steady) (hw.hasRecord hx) hw.hasLogs (hc.append (by rw [he]; rfl)) hm ?_
      have hrow := hmirror.marked_row entry (hrouting (by rw [he]; rfl)) (by rw [he]; rfl)
      rwa [show entry.nodeId = node.id by rw [he]; rfl] at hrow
    | lost hno _ => exact absurd ⟨h.steady, h.fits⟩ hno
  | refused _ ho _ _ =>
    rw [Run.marked, Context.hasOutput_markCompleted, hout] at ho
    cases ho
  | @succeeded _ output duration _ w₂ _ entry he _ hw hr hposted =>
    obtain ⟨hs, hx₂⟩ := hran hw hr
    have hrow := hmirror.recorded_row (entry.succeeded output duration w₂.clock.stamp)
      (hrouting (by rw [he]; rfl)) (by rw [he]; exact hout)
    rw [show (entry.succeeded output duration w₂.clock.stamp).nodeId = node.id by rw [he]; rfl,
      show (entry.succeeded output duration w₂.clock.stamp).nodeType = node.type by rw [he]; rfl] at hrow
    have hcounted : Counted (logs ++ [entry.succeeded output duration w₂.clock.stamp]) := hc.append (by rw [he]; rfl)
    cases hposted with
    | done hw' => exact h.turned (hw'.steady hs) (hw'.hasRecord hx₂) hw'.hasLogs hcounted hm hrow
    | unheard _ hw' => exact h.turned (hw'.steady hs) (hw'.hasRecord hx₂) hw'.hasLogs hcounted hm hrow
    | lost hno _ => exact absurd ⟨hs, h.fits⟩ hno
  | @failed _ fault duration _ w₂ _ entry he hw hr hposted =>
    obtain ⟨hs, hx₂⟩ := hran hw hr
    have hrow := hmirror.kept_row (entry.failed fault duration fault.output w₂.clock.stamp)
      (hrouting (by rw [he]; rfl)) (show _ = node.id by rw [he]; rfl) (by rw [he]; rfl) hout
    have hcounted : Counted (logs ++ [entry.failed fault duration fault.output w₂.clock.stamp]) :=
      hc.append (by rw [he]; rfl)
    cases hposted with
    | done hw' => exact h.turned (hw'.steady hs) (hw'.hasRecord hx₂) hw'.hasLogs hcounted hm hrow
    | unheard _ hw' => exact h.turned (hw'.steady hs) (hw'.hasRecord hx₂) hw'.hasLogs hcounted hm hrow
    | lost hno _ => exact absurd ⟨hs, h.fits⟩ hno

end Faithful

/-- Every move keeps what is stored and the context together, unless the store refuses a row. -/
theorem stable_faithful : Stable fun p => Spoiled p ∨ Faithful p where
  quiet h hq := h.imp_right (·.quiet hq)
  noted _ _ _ h := h.imp id (·.rerun rfl rfl rfl)
  entered _ h := by
    refine h.imp ?_ (·.rerun rfl rfl rfl)
    rintro ⟨node, hn, he, ht⟩
    exact ⟨node, hn, List.mem_append_left _ he, ht⟩
  clicked := by
    intro w r node output button title data ho hd h
    refine h.imp_right fun hf => ⟨hf.steady, hf.fits, hf.typed, ?_⟩
    obtain ⟨x, logs, m, hx, hl, hc, hm, hmirror⟩ := hf.stored
    exact ⟨x, logs, m, hx, hl, hc, hm, hmirror.spliced ho hd⟩
  performed := by
    rintro ⟨w, r⟩ node hn he hnew h
    obtain ⟨c, hc⟩ := Dispatch.run_perform node ⟨w, r⟩
    have hspoiled : Spoiled ⟨w, r⟩ → Spoiled (Running.go (Dispatch.perform node) ⟨w, r⟩).2 := by
      intro hs
      rw [Spoiled, hc]
      exact hs
    rcases h with hs | hf
    · exact .inl (hspoiled hs)
    · by_cases ht : node.Titled
      · exact .inr (hf.performed hn ht hnew)
      · exact .inl (hspoiled ⟨node, hn, he, ht⟩)

/-! ## Messages that wait and messages that do not -/

namespace Sample

/-- The tool that sends messages with buttons. -/
def sender : String := "whatsapp_send_button_message"

def node (id type : String) (config : Entries Value) : Node :=
  { id, type, title := none, config, agentId := none, triggerType := none, extras := [] }

/-- A node that sends a message with one button. -/
def message (id button : String) : Node :=
  node id "action"
    [("tool_id", .str sender), ("inputs", .map [("buttons", .list [.map [("id", .str button)]])])]

/-- Two messages, the second of which is sent behind the button of the first or at once, and a node behind both. -/
def workflow (first : Bool) : Workflow :=
  { id := "talk", title := none, status := .published
    nodes := [node "start" "trigger" [], message "menu" "more", message "ask" "yes", node "end" "condition" []]
    edges := [⟨some "start", some (if first then "menu" else "ask"), none⟩, ⟨some "menu", some "ask", some "more"⟩,
      ⟨some "ask", some "end", some "yes"⟩] }

/-- The first message is answered at once, the second waits. -/
def answer (call : Call) : Value :=
  if call.origin.any (·.node == "menu") then .map [("button_id", .str "more")]
  else .map [("message_id", .str "m")]

def world : World :=
  (Session.run [.register .tool sender (some ⟨fun _ call => ⟨0, .ok (answer call)⟩, 0⟩)] (.initial {} "" none)).2

end Sample

/-! ## Invocations -/

theorem Workflow.rejection?_of_validate {W : Workflow} (h : W.validate = .ok ()) : W.rejection? = none := by
  cases hr : W.rejection? with
  | none => rfl
  | some reason => rw [validate, hr] at h; cases h

/-- The nodes of a workflow that may be stored have known types. -/
theorem Workflow.typed_of_validate {W : Workflow} (h : W.validate = .ok ()) :
    ∀ node ∈ W.nodes, node.nodeType?.isSome = true := by
  intro node hn
  cases ht : node.nodeType? with
  | some _ => rfl
  | none =>
    exfalso
    have hr := rejection?_of_validate h
    unfold rejection? at hr
    split at hr
    · cases hr
    · split at hr
      · cases hr
      · split at hr
        · cases hr
        · next hfind =>
          have := List.find?_eq_none.1 hfind node hn
          rw [ht] at this
          exact this rfl

theorem fits_nodeLogs {execution : String} (h : (Store.Executions.place execution).Fits) :
    (Store.NodeLogs.place execution).Fits := by
  have hnull : Char.ofNat 0 ∉ ".json".toList := by decide
  unfold Store.Executions.place at h
  rw [Location.fits_ofRecord hnull] at h
  exact (Location.fits_ofRecord hnull).2 h

section Launch

variable {W : Workflow} {payload : Value} {w u : World} {r : Run}

/-- A run that was launched. -/
theorem launch_faithful {logs : List NodeLog} (hv : W.validate = .ok ()) (hs : w.Steady)
    (hl : HasLogs w.storage w.nextExecution logs) (hc : Counted logs) (ha : attempts logs = [])
    (hr : run (Invocation.launch W payload) w = (.ok r, u)) :
    (Spoiled ⟨u, r⟩ ∨ Faithful ⟨u, r⟩) ∧ r.execution = w.nextExecution ∧ r.workflow = W := by
  rcases Journal.startExecution_cases W.id (Context.start payload).triggerData w with
    ⟨session, w₁, hx, hw⟩ | ⟨-, fault, w₁, hx, -⟩
  · obtain ⟨u₁, hq, hlaunch⟩ := Invocation.run_launch hx
    have hstart : Faithful ⟨u₁, .start w.nextExecution W (.start payload)⟩ := by
      refine Faithful.quiet ⟨hw.steady hs, fits_nodeLogs hw.fits, W.typed_of_validate hv, ?_⟩ hq
      refine ⟨_, logs, .start payload, hw.read_self, ?_, hc, ?_, .start payload⟩
      · rw [HasLogs, hw.read_ne (executions_ne_nodeLogs _ _).symm]
        exact hl
      · rw [Context.replay_of_attempts ha]
        exact congrArg Except.ok (Context.start_triggerData payload)
    rw [hlaunch] at hr
    change run (Invocation.settle W (.start w.nextExecution W (.start payload)) Invocation.fromTrigger) u₁ = _ at hr
    obtain ⟨s, w', hsettle, hquiet, hsame⟩ := Invocation.run_settle W
      (.start w.nextExecution W (.start payload)) Invocation.fromTrigger u₁
    have hend := stable_faithful.fromTrigger ⟨u₁, .start w.nextExecution W (.start payload)⟩ (.inr hstart)
    have hsame' := (stable_identity w.nextExecution W W.graph).fromTrigger
      ⟨u₁, .start w.nextExecution W (.start payload)⟩ ⟨rfl, rfl, rfl⟩
    rcases hgo : Running.go Invocation.fromTrigger ⟨u₁, .start w.nextExecution W (.start payload)⟩ with ⟨result, v, t⟩
    rw [hgo] at hend hsame' hquiet hsame
    rw [hsettle, Prod.mk.injEq] at hr
    obtain ⟨hs, rfl⟩ := hr
    obtain rfl := Except.ok.inj hs
    have hend := stable_faithful.quiet hend hquiet
    rcases hsame with rfl | ⟨message, rfl⟩
    · exact ⟨hend, hsame'.1, hsame'.2.1⟩
    · exact ⟨stable_faithful.noted true _ t.suspended hend, hsame'.1, hsame'.2.1⟩
  · unfold Invocation.launch at hr
    rw [run_bind_error hx] at hr
    cases hr

end Launch

/-- The end of an invocation is written to the record and to nothing else. -/
theorem finalize_faithful {r : Run} (duration : Int) :
    Keeps (fun w => Faithful ⟨w, r⟩) (Invocation.finalize r duration) := by
  have hushed {α : Type} {act : Engine α} (h : Hushed act) : Keeps (fun w => Faithful ⟨w, r⟩) act :=
    fun w hw => hw.quiet (h w)
  have hfinish (status : RunStatus) (error : Option String) (answer : Option String) :
      Keeps (fun w => Faithful ⟨w, r⟩) (do
        let _ ← Journal.finishExecution r.execution status (Value.ofText? error) duration
        return answer) := by
    refine keeps_bind (fun w h => ?_) fun _ => hushed (hushed_pure _)
    obtain ⟨x, logs, m, hx, hl, hrest⟩ := h.stored
    have hposted := Journal.finishExecution_posted hx status error duration
    have hended {w' : World} (hw : Wrote (Store.Executions.place r.execution)
        (x.ended status error duration w.clock.stamp).toValue w w') : Faithful ⟨w', r⟩ := by
      refine ⟨hw.steady h.steady, h.fits, h.typed, _, logs, m, hw.read_self, ?_, hrest⟩
      rw [HasLogs, hw.read_ne (executions_ne_nodeLogs _ _).symm]
      exact hl
    exact hposted.keeps (I := fun u => Faithful ⟨u, r⟩) hended h.quiet
  refine keeps_bind (hushed (hushed_entering _)) fun _ => ?_
  dsimp only
  split
  · split
    · exact hfinish .running none _
    · exact hfinish .running (some r.firstError) _
  · split
    · exact hfinish .failed (some r.firstError) _
    · exact hfinish .success none _

/-- What is stored is read. -/
theorem Faithful.rebuild {w : World} {r : Run} (h : Faithful ⟨w, r⟩) :
    ∃ m, (run (Store.rebuild r.execution) w).1 = .ok m ∧ r.context.Mirrors m := by
  obtain ⟨x, logs, m, hx, hl, -, hm, hmirror⟩ := h.stored
  refine ⟨m, ?_, hmirror⟩
  obtain ⟨w', -, hall | ⟨hno, -⟩⟩ := Store.NodeLogs.all_cases hl
  · unfold Store.rebuild
    rw [run_bind_ok (Store.Executions.run_find? h.steady hx)]
    dsimp only
    rw [run_bind_ok hall, run_ofExcept]
    exact hm
  · exact absurd h.steady hno

/-- An invocation that was launched ends with the world that its outcome is written to. -/
theorem run_execute {W : Workflow} {payload : Value} {w u : World} {r : Run} (hs : w.Steady)
    (hr : run (Invocation.launch W payload) w = (.ok r, u)) :
    run (Invocation.execute W payload) w =
      run (Invocation.finalize r (u.clock.since w.clock.reading).millis) u := by
  unfold Invocation.execute
  rw [run_bind_ok (run_entering_steady hs _), run_bind_ok (run_reading w), run_bind_ok hr, run_bind_ok (run_since _ u)]

end WorkGraph
