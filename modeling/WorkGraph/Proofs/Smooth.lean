import WorkGraph.Proofs.Restore

/-!
# Runs to which nothing is refused

Where no injected fault waits, the audit service is sound and the log can be written (`Fluent`), a node with a title that
has not run before leaves exactly one row, which tells how it went (`Turn`, `Fluent.perform`), and nothing is refused to
the run after it either (`Fluent.turned`). A node whose title is no text leaves none (`Fluent.untitled`).
-/

namespace WorkGraph

open Engine

/-! ## The context after a turn -/

namespace Context

variable {c : Context} {node : Node} {result : Except Fault Value}

/-- The context after a node has run. -/
def turned (c : Context) (node : Node) : Except Fault Value → Context
  | .ok output => (c.markCompleted node.id).recorded node.id node.type output
  | .error fault => (c.markCompleted node.id).kept node fault.output

theorem hasOutput_kept (c : Context) (node : Node) (output : Value) (other : String) :
    (c.kept node output).hasOutput other = true → other = node.id ∨ c.hasOutput other = true := by
  unfold kept
  split
  · rw [hasOutput_recorded, Bool.or_eq_true, beq_iff_eq]
    exact id
  · exact .inr

theorem isCompleted_turned (c : Context) (node : Node) (result : Except Fault Value) (other : String) :
    (c.turned node result).isCompleted other = (other == node.id || c.isCompleted other) := by
  have hmarked := isCompleted_markCompleted c node.id other
  cases result with
  | ok output => rw [turned, isCompleted_recorded, hmarked, ← Bool.or_assoc, Bool.or_self]
  | error fault =>
    rw [turned, kept]
    split
    · rw [isCompleted_recorded, hmarked, ← Bool.or_assoc, Bool.or_self]
    · exact hmarked

theorem hasOutput_turned {other : String} (h : (c.turned node result).hasOutput other = true) :
    other = node.id ∨ c.hasOutput other = true := by
  cases result with
  | ok output =>
    rw [turned, hasOutput_recorded, hasOutput_markCompleted, Bool.or_eq_true, beq_iff_eq] at h
    exact h
  | error fault =>
    have h := hasOutput_kept _ node _ other h
    rwa [hasOutput_markCompleted] at h

end Context

/-! ## Contexts that are rebuilt -/

namespace Context

variable {c c' : Context} {log : NodeLog} {logs : List NodeLog} {node : String} {v : Value}

/-- What a row adds to a context is its output. -/
theorem get?_of_replayLog (h : c.replayLog log = .ok c') (hv : c'.outputs.get? node = some v) :
    c.outputs.get? node = some v ∨ log.isRouting = false ∧ log.nodeId = node ∧ log.outputData = v := by
  unfold replayLog at h
  cases hr : log.isRouting with
  | true =>
    rw [hr] at h
    rw [← Except.ok.inj h] at hv
    exact .inl hv
  | false =>
    rw [hr, if_neg Bool.false_ne_true] at h
    dsimp only at h
    split at h
    · rw [← Except.ok.inj h, outputs_markCompleted] at hv
      exact .inl hv
    · next ho =>
      rw [Bool.or_eq_true, not_or, Bool.not_eq_true, Bool.not_eq_true] at ho
      rw [record_eq _ _ ho.2] at h
      rw [← Except.ok.inj h, outputs_recorded] at hv
      by_cases hn : node = log.nodeId
      · rw [hn, Entries.get?_set_self] at hv
        exact .inr ⟨rfl, hn.symm, Option.some.inj hv⟩
      · rw [Entries.get?_set_ne _ _ hn, outputs_markCompleted] at hv
        exact .inl hv

/-- An output that was rebuilt is that of a row. -/
theorem get?_of_foldlM (h : logs.foldlM replayLog c = .ok c') (hv : c'.outputs.get? node = some v) :
    c.outputs.get? node = some v ∨ ∃ row ∈ logs, row.isRouting = false ∧ row.nodeId = node ∧ row.outputData = v := by
  induction logs generalizing c with
  | nil =>
    obtain rfl := Except.ok.inj h
    exact .inl hv
  | cons log rest ih =>
    rw [List.foldlM_cons] at h
    cases hl : c.replayLog log with
    | error fault => rw [hl] at h; cases h
    | ok c₁ =>
      rw [hl] at h
      rcases ih h with hv | ⟨row, hm, hrow⟩
      · exact (get?_of_replayLog hl hv).imp_right fun hlog => ⟨log, List.mem_cons_self, hlog⟩
      · exact .inr ⟨row, List.mem_cons_of_mem _ hm, hrow⟩

/-- Only nodes with rows have outputs. -/
theorem isCompleted_of_replay {triggerData : Value} (h : replay triggerData logs = .ok c) (ho : c.hasOutput node = true) :
    c.isCompleted node = true := by
  obtain ⟨v, hv⟩ := Option.isSome_iff_exists.1 ho
  rcases get?_of_foldlM h hv with hv | ⟨row, hm, hrouting, rfl, -⟩
  · cases hv
  · exact (isCompleted_foldlM_replayLog h row.nodeId).2 (.inr (mem_attempts hm hrouting))

end Context

/-! ## Turns -/

/-- A row that is closed with what came of its node. -/
def NodeLog.concluded (log : NodeLog) (duration : Int) (now : String) : Except Fault Value → NodeLog
  | .ok output => log.succeeded output duration now
  | .error fault => log.failed fault duration fault.output now

/-- How a node leaves its row: the row is opened, the node runs, and the row is closed with what came of that. -/
structure Tried (node : Node) (logs : List NodeLog) (entry row : NodeLog) (result : Except Fault Value) (w : World) (r : Run)
    (w' : World) : Prop where
  opened : entry = .opened r.execution (logs.length + 1) node (.map (r.marked node).context.flat) w.clock.stamp
  ran : ∃ duration w₁ w₂,
    Wrote (Store.NodeLogs.place r.execution) (.list ((logs ++ [entry]).map NodeLog.toValue)) w w₁ ∧
    run (Dispatch.runNode node (r.marked node)) w₁ = (result, w₂) ∧
    row = entry.concluded duration w₂.clock.stamp result ∧
    Wrote (Store.NodeLogs.place r.execution) (.list ((logs ++ [row]).map NodeLog.toValue)) w₂ w'

/-- What a node leaves: its row, and the result that the row tells of. -/
structure Turn (node : Node) (logs : List NodeLog) (row : NodeLog) (result : Except Fault Value) (w : World) (r : Run)
    (w' : World) : Prop where
  id : row.id = logs.length + 1
  nodeId : row.nodeId = node.id
  nodeType : row.nodeType = node.type
  input : row.inputData = .map (r.context.markCompleted node.id).flat
  status : row.status = if result.toOption.isSome then .success else .failed
  output : row.outputData = match result with
    | .ok output => output
    | .error fault => fault.output
  error : row.errorMessage = match result with
    | .ok _ => none
    | .error fault => some fault.message
  ran : ∃ entry w₁ w₂, Wrote (Store.NodeLogs.place r.execution) (.list ((logs ++ [entry]).map NodeLog.toValue)) w w₁ ∧
    run (Dispatch.runNode node (r.marked node)) w₁ = (result, w₂) ∧
    Wrote (Store.NodeLogs.place r.execution) (.list ((logs ++ [row]).map NodeLog.toValue)) w₂ w'

/-- What is left tells how the node went. -/
theorem Tried.turn {node : Node} {logs : List NodeLog} {entry row : NodeLog} {result : Except Fault Value} {w w' : World}
    {r : Run} (h : Tried node logs entry row result w r w') : Turn node logs row result w r w' := by
  obtain ⟨rfl, duration, w₁, w₂, hw, hr, rfl, hw'⟩ := h
  cases result with
  | ok output => exact ⟨rfl, rfl, rfl, rfl, rfl, rfl, rfl, _, w₁, w₂, hw, hr, hw'⟩
  | error fault => exact ⟨rfl, rfl, rfl, rfl, rfl, rfl, rfl, _, w₁, w₂, hw, hr, hw'⟩

/-- Whether nothing is refused to a run whose execution has these rows. -/
structure Fluent (p : Progress) (logs : List NodeLog) : Prop where
  audible : Audible p.run.execution p.world
  fits : (Store.NodeLogs.place p.run.execution).Fits
  rows : HasLogs p.world.storage p.run.execution logs
  counted : Counted logs
  dispatched : ∀ node, p.run.context.hasOutput node = true → p.run.context.isCompleted node = true

/-- The same of a run whose nodes all have a known type. -/
structure Smooth (p : Progress) (logs : List NodeLog) : Prop extends Fluent p logs where
  typed : ∀ node ∈ p.run.workflow.nodes, node.nodeType?.isSome = true

namespace Fluent

variable {w w' : World} {r : Run} {logs : List NodeLog} {node : Node} {row : NodeLog} {result : Except Fault Value}

theorem quiet (h : Fluent ⟨w, r⟩ logs) (hq : Quiet w w') : Fluent ⟨w', r⟩ logs where
  audible := h.audible.quiet hq
  fits := h.fits
  rows := hq.hasLogs h.rows
  counted := h.counted
  dispatched := h.dispatched

/-- Another run of the same execution, with the same context. -/
theorem rerun {s : Run} (h : Fluent ⟨w, r⟩ logs) (he : s.execution = r.execution) (hc : s.context = r.context) : Fluent ⟨w, s⟩ logs where
  audible := he ▸ h.audible
  fits := he ▸ h.fits
  rows := he ▸ h.rows
  counted := h.counted
  dispatched := hc ▸ h.dispatched

/-- A click adds to an output that is there. -/
theorem spliced {other : String} {output fields : Entries Value} (h : Fluent ⟨w, r⟩ logs) (data : Value)
    (ho : r.context.outputs.get? other = some (.map output)) :
    Fluent ⟨w, { r with context := (r.context.spliceButton other fields).setButtonData data }⟩ logs where
  audible := h.audible
  fits := h.fits
  rows := h.rows
  counted := h.counted
  dispatched n hn := h.dispatched n ((Context.hasOutput_spliced ho fields data n).symm.trans hn)

/-- The row of a node that has not run before is opened and closed. -/
theorem tried (h : Fluent ⟨w, r⟩ logs) (ht : node.Titled) (hnew : r.context.isCompleted node.id = false) :
    ∃ entry row result w', Running.go (Dispatch.perform node) ⟨w, r⟩ =
        (result, ⟨w', { r with context := r.context.turned node result }⟩) ∧ Tried node logs entry row result w r w' := by
  have hran {entry : NodeLog} {w₁ w₂ : World} {result : Except Fault Value}
      (hw : Wrote (Store.NodeLogs.place r.execution) (.list ((logs ++ [entry]).map NodeLog.toValue)) w w₁)
      (hr : run (Dispatch.runNode node (r.marked node)) w₁ = (result, w₂)) : Audible r.execution w₂ := by
    have hworked := (Dispatch.runNode_worked node (r.marked node) w₁).1
    rw [hr] at hworked
    exact hworked.audible (h.audible.wrote hw (executions_ne_nodeLogs _ _))
  have hp := @Dispatch.perform_cases node logs ⟨w, r⟩ h.rows h.counted
  generalize Running.go (Dispatch.perform node) ⟨w, r⟩ = out at hp
  cases hp with
  | untitled hno _ => exact absurd ht hno
  | unopened he hposted =>
    cases hposted with
    | unheard hno _ => exact absurd h.audible hno
    | lost hno _ => exact absurd ⟨h.audible.steady, h.fits⟩ hno
  | refused _ ho _ _ =>
    rw [Run.marked, Context.hasOutput_markCompleted] at ho
    rw [h.dispatched _ ho] at hnew
    cases hnew
  | @succeeded _ output duration w₁ w₂ w₃ entry he _ hw hr hposted =>
    have ha := hran hw hr
    cases hposted with
    | done hw' => exact ⟨entry, _, .ok output, w₃, rfl, he, duration, w₁, w₂, hw, hr, rfl, hw'⟩
    | unheard hno _ => exact absurd ha hno
    | lost hno _ => exact absurd ⟨ha.steady, h.fits⟩ hno
  | @failed _ fault duration w₁ w₂ w₃ entry he hw hr hposted =>
    have ha := hran hw hr
    cases hposted with
    | done hw' => exact ⟨entry, _, .error fault, w₃, rfl, he, duration, w₁, w₂, hw, hr, rfl, hw'⟩
    | unheard hno _ => exact absurd ha hno
    | lost hno _ => exact absurd ⟨ha.steady, h.fits⟩ hno

/-- A node that has not run before leaves a row. -/
theorem perform (h : Fluent ⟨w, r⟩ logs) (ht : node.Titled) (hnew : r.context.isCompleted node.id = false) :
    ∃ row result w', Running.go (Dispatch.perform node) ⟨w, r⟩ =
        (result, ⟨w', { r with context := r.context.turned node result }⟩) ∧ Turn node logs row result w r w' := by
  obtain ⟨entry, row, result, w', hgo, htried⟩ := h.tried ht hnew
  exact ⟨row, result, w', hgo, htried.turn⟩

/-- A node whose title is no text leaves no row, and is marked all the same. -/
theorem untitled (h : Fluent ⟨w, r⟩ logs) (ht : ¬node.Titled) :
    ∃ fault w', Running.go (Dispatch.perform node) ⟨w, r⟩ = (.error fault, ⟨w', r.marked node⟩) ∧ Quiet w w' ∧
      Fluent ⟨w', r.marked node⟩ logs := by
  obtain ⟨fault, w', hgo, hq⟩ := @Dispatch.perform_barred node w r fun h => absurd h ht
  have hquiet := h.quiet hq
  refine ⟨fault, w', hgo, hq, hquiet.audible, hquiet.fits, hquiet.rows, hquiet.counted, fun n ho => ?_⟩
  dsimp only [Run.marked] at ho ⊢
  rw [Context.hasOutput_markCompleted] at ho
  rw [Context.isCompleted_markCompleted, h.dispatched n ho, Bool.or_true]

/-- Nothing is refused after a turn either. -/
theorem turned (h : Fluent ⟨w, r⟩ logs) (ht : Turn node logs row result w r w') :
    Fluent ⟨w', { r with context := r.context.turned node result }⟩ (logs ++ [row]) := by
  obtain ⟨entry, w₁, w₂, hw, hr, hw'⟩ := ht.ran
  have hworked := (Dispatch.runNode_worked node (r.marked node) w₁).1
  rw [hr] at hworked
  have ha := hworked.audible (h.audible.wrote hw (executions_ne_nodeLogs _ _))
  refine ⟨ha.wrote hw' (executions_ne_nodeLogs _ _), h.fits, hw'.hasLogs, h.counted.append ht.id, fun n ho => ?_⟩
  dsimp only at ho ⊢
  rw [Context.isCompleted_turned, Bool.or_eq_true, beq_iff_eq]
  exact (Context.hasOutput_turned ho).imp_right (h.dispatched n)

end Fluent

namespace Smooth

variable {w w' : World} {r : Run} {logs : List NodeLog} {node : Node} {row : NodeLog} {result : Except Fault Value}

/-- What a turn leaves is no row of a click. -/
theorem isRouting_row (h : Smooth ⟨w, r⟩ logs) (hn : node ∈ r.workflow.nodes) (ht : Turn node logs row result w r w') :
    row.isRouting = false :=
  NodeLog.isRouting_of_type (h.typed node hn) ht.nodeType

theorem attempts_turned (h : Smooth ⟨w, r⟩ logs) (hn : node ∈ r.workflow.nodes)
    (ht : Turn node logs row result w r w') : attempts (logs ++ [row]) = attempts logs ++ [node.id] := by
  rw [attempts_append, h.isRouting_row hn ht, ht.nodeId]
  rfl

end Smooth

end WorkGraph
