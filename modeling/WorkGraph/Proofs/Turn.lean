import WorkGraph.Proofs.Ledger
import WorkGraph.Proofs.Work

/-!
# One node's turn

What `Dispatch.perform` does, from the log as it is before: a row is opened, the node runs, and the row is closed
(`Performed`, `perform_cases`). Every way in which this can end early has a case of its own.
-/

namespace WorkGraph

/-! ## Running computations -/

namespace Running

variable {α β : Type}

@[simp] theorem go_pure (a : α) (p : Progress) : go (pure a) p = (.ok a, p) := rfl

@[simp] theorem go_throw (fault : Fault) (p : Progress) : go (throw fault : Running α) p = (.error fault, p) := rfl

/-- A computation on the world. -/
theorem go_lift (act : Engine α) (w : World) (r : Run) :
    go (liftM act : Running α) ⟨w, r⟩ = ((Engine.run act w).1, ⟨(Engine.run act w).2, r⟩) := rfl

@[simp] theorem go_run (w : World) (r : Run) : go run ⟨w, r⟩ = (.ok r, ⟨w, r⟩) := rfl

@[simp] theorem go_context (w : World) (r : Run) : go context ⟨w, r⟩ = (.ok r.context, ⟨w, r⟩) := rfl

@[simp] theorem go_modifyRun (f : Run → Run) (w : World) (r : Run) : go (modifyRun f) ⟨w, r⟩ = (.ok (), ⟨w, f r⟩) := rfl

@[simp] theorem go_setContext (c : Context) (w : World) (r : Run) :
    go (setContext c) ⟨w, r⟩ = (.ok (), ⟨w, { r with context := c }⟩) := rfl

theorem go_bind_ok {act : Running α} {next : α → Running β} {p q : Progress} {a : α} (h : go act p = (.ok a, q)) :
    go (act >>= next) p = go (next a) q := by
  rw [go_bind, h]

theorem go_bind_error {act : Running α} {next : α → Running β} {p q : Progress} {fault : Fault}
    (h : go act p = (.error fault, q)) : go (act >>= next) p = (.error fault, q) := by
  rw [go_bind, h]

theorem go_lift_bind {act : Engine α} {next : α → Running β} {w w' : World} {a : α}
    (h : Engine.run act w = (.ok a, w')) (r : Run) : go (liftM act >>= next) ⟨w, r⟩ = go (next a) ⟨w', r⟩ :=
  go_bind_ok (by rw [go_lift, h])

theorem go_lift_bind_error {act : Engine α} {next : α → Running β} {w w' : World} {fault : Fault}
    (h : Engine.run act w = (.error fault, w')) (r : Run) :
    go (liftM act >>= next) ⟨w, r⟩ = (.error fault, ⟨w', r⟩) :=
  go_bind_error (by rw [go_lift, h])

/-- A computation on the world after which something is returned. -/
theorem go_lift_returning (act : Engine α) (b : β) (w : World) (r : Run) :
    go (liftM act >>= fun _ => (pure b : Running β)) ⟨w, r⟩ =
      ((Engine.run (act >>= fun _ => pure b) w).1, ⟨(Engine.run (act >>= fun _ => pure b) w).2, r⟩) := by
  rw [go_bind, go_lift, Engine.run_bind]
  rcases Engine.run act w with ⟨_ | _, _⟩ <;> rfl

/-- A fault becomes a result. -/
theorem go_faultOf (act : Running Unit) (p : Progress) :
    go (faultOf act) p =
      match go act p with
      | (.ok (), q) => (.ok none, q)
      | (.error fault, q) => (.ok (some fault), q) := rfl

end Running

/-! ## Outputs -/

namespace Context

/-- The context with the output of a node. -/
def recorded (c : Context) (node type : String) (output : Value) : Context :=
  { c with outputs := c.outputs.set node output, nodeTypes := c.nodeTypes.set node type }.markCompleted node

@[simp] theorem outputs_markCompleted (c : Context) (node : String) : (c.markCompleted node).outputs = c.outputs := by
  unfold markCompleted
  split <;> rfl

@[simp] theorem nodeTypes_markCompleted (c : Context) (node : String) :
    (c.markCompleted node).nodeTypes = c.nodeTypes := by
  unfold markCompleted
  split <;> rfl

@[simp] theorem triggerData_markCompleted (c : Context) (node : String) :
    (c.markCompleted node).triggerData = c.triggerData := by
  unfold markCompleted
  split <;> rfl

@[simp] theorem buttonData_markCompleted (c : Context) (node : String) :
    (c.markCompleted node).buttonData = c.buttonData := by
  unfold markCompleted
  split <;> rfl

section Recorded

variable (c : Context) (node type : String) (output : Value)

@[simp] theorem outputs_recorded : (c.recorded node type output).outputs = c.outputs.set node output := by
  simp [recorded]

@[simp] theorem nodeTypes_recorded : (c.recorded node type output).nodeTypes = c.nodeTypes.set node type := by
  simp [recorded]

@[simp] theorem triggerData_recorded : (c.recorded node type output).triggerData = c.triggerData := by
  simp [recorded]

@[simp] theorem buttonData_recorded : (c.recorded node type output).buttonData = c.buttonData := by
  simp [recorded]

theorem isCompleted_recorded (other : String) :
    (c.recorded node type output).isCompleted other = (other == node || c.isCompleted other) := by
  rw [recorded, isCompleted_markCompleted]
  rfl

variable {c node}

theorem record_eq (h : c.hasOutput node = false) : c.record node type output = .ok (c.recorded node type output) := by
  simp [record, h, recorded]

end Recorded

/-- The context with what a failed node produced all the same, if it did and has no output yet. -/
def kept (c : Context) (node : Node) (output : Value) : Context :=
  if !output.isNull && !c.hasOutput node.id then c.recorded node.id node.type output else c

theorem isCompleted_kept {c : Context} {other : String} (node : Node) (output : Value)
    (h : c.isCompleted other = true) : (c.kept node output).isCompleted other = true := by
  unfold kept
  split
  · rw [isCompleted_recorded, h, Bool.or_true]
  · exact h

end Context

/-- The run in which a node counts as dispatched. -/
def Run.marked (r : Run) (node : Node) : Run :=
  { r with context := r.context.markCompleted node.id }

theorem Run.execution_marked (r : Run) (node : Node) : (r.marked node).execution = r.execution := rfl

theorem Running.go_marked (node : Node) (w : World) (r : Run) :
    go (modifyRun fun r => { r with context := r.context.markCompleted node.id }) ⟨w, r⟩ =
      (.ok (), ⟨w, r.marked node⟩) :=
  go_modifyRun _ w r

/-! ## What stays -/

section Frame

variable {origin : Origin} {workflow execution : String} {w w' : World} {logs : List NodeLog} {x : Execution}

/-- A node leaves everything but mappings as it is. -/
theorem Worked.read_ne (h : Worked origin workflow w w') {place : Location} {default : Value}
    (hne : ∀ message, place.path ≠ (Store.Mappings.place message).path) :
    w'.storage.read place default = w.storage.read place default := by
  rcases h.storage with hs | ⟨m, -, -, -, rows, -, hw⟩
  · rw [hs]
  · exact Storage.read_write_ne hw (hne _)

theorem Worked.hasLogs (h : Worked origin workflow w w') (hl : HasLogs w.storage execution logs) :
    HasLogs w'.storage execution logs := by
  rw [HasLogs, h.read_ne (nodeLogs_ne_mappings _)]
  exact hl

theorem Worked.hasRecord (h : Worked origin workflow w w') (hx : HasRecord w.storage execution x) :
    HasRecord w'.storage execution x := by
  rw [HasRecord, h.read_ne (executions_ne_mappings _)]
  exact hx

theorem Worked.audible (h : Worked origin workflow w w') (ha : Audible execution w) : Audible execution w' where
  steady := h.steady ha.steady
  heard := ha.heard.of_service h.service
  record := by
    obtain ⟨x, hx⟩ := ha.record
    exact ⟨x, h.hasRecord hx⟩

theorem Quiet.hasLogs (h : Quiet w w') (hl : HasLogs w.storage execution logs) : HasLogs w'.storage execution logs := by
  rw [HasLogs, h.storage]
  exact hl

theorem Quiet.hasRecord (h : Quiet w w') (hx : HasRecord w.storage execution x) : HasRecord w'.storage execution x := by
  rw [HasRecord, h.storage]
  exact hx

theorem Wrote.hasLogs (h : Wrote (Store.NodeLogs.place execution) (.list (logs.map NodeLog.toValue)) w w') :
    HasLogs w'.storage execution logs :=
  h.read_self

end Frame

namespace Dispatch

/-! ## Performing a node -/

/-- The ways in which a node is performed, from the rows of its execution before. -/
inductive Performed (node : Node) (logs : List NodeLog) (p : Progress) : Except Fault Value × Progress → Prop
  /-- The title is no text, so that no row could be opened. -/
  | untitled {fault : Fault} {w : World} : ¬node.Titled → Quiet p.world w →
      Performed node logs p (.error fault, ⟨w, p.run.marked node⟩)
  /-- The row was not opened, or that was not heard. -/
  | unopened {fault : Fault} {w : World} {entry : NodeLog} :
      entry = .opened p.run.execution (logs.length + 1) node (.map (p.run.marked node).context.flat) p.world.clock.stamp →
      Posted (Store.NodeLogs.place p.run.execution) (.list ((logs ++ [entry]).map NodeLog.toValue)) entry
        (Audible p.run.execution p.world) p.world (.error fault, w) →
      Performed node logs p (.error fault, ⟨w, p.run.marked node⟩)
  /-- The node has an output already. -/
  | refused {fault : Fault} {output : Value} {w₁ w₂ : World} {entry : NodeLog} :
      entry = .opened p.run.execution (logs.length + 1) node (.map (p.run.marked node).context.flat) p.world.clock.stamp →
      (p.run.marked node).context.hasOutput node.id = true →
      Wrote (Store.NodeLogs.place p.run.execution) (.list ((logs ++ [entry]).map NodeLog.toValue)) p.world w₁ →
      Engine.run (runNode node (p.run.marked node)) w₁ = (.ok output, w₂) →
      Performed node logs p (.error fault, ⟨w₂, p.run.marked node⟩)
  | succeeded {result : Except Fault Value} {output : Value} {duration : Int} {w₁ w₂ w₃ : World} {entry : NodeLog} :
      entry = .opened p.run.execution (logs.length + 1) node (.map (p.run.marked node).context.flat) p.world.clock.stamp →
      (p.run.marked node).context.hasOutput node.id = false →
      Wrote (Store.NodeLogs.place p.run.execution) (.list ((logs ++ [entry]).map NodeLog.toValue)) p.world w₁ →
      Engine.run (runNode node (p.run.marked node)) w₁ = (.ok output, w₂) →
      Posted (Store.NodeLogs.place p.run.execution)
        (.list ((logs ++ [entry.succeeded output duration w₂.clock.stamp]).map NodeLog.toValue)) output
        (Audible p.run.execution w₂) w₂ (result, w₃) →
      Performed node logs p (result, ⟨w₃, { p.run with context := (p.run.marked node).context.recorded node.id node.type output }⟩)
  | failed {result : Except Fault Unit} {fault : Fault} {duration : Int} {w₁ w₂ w₃ : World} {entry : NodeLog} :
      entry = .opened p.run.execution (logs.length + 1) node (.map (p.run.marked node).context.flat) p.world.clock.stamp →
      Wrote (Store.NodeLogs.place p.run.execution) (.list ((logs ++ [entry]).map NodeLog.toValue)) p.world w₁ →
      Engine.run (runNode node (p.run.marked node)) w₁ = (.error fault, w₂) →
      Posted (Store.NodeLogs.place p.run.execution)
        (.list ((logs ++ [entry.failed fault duration fault.output w₂.clock.stamp]).map NodeLog.toValue)) ()
        (Audible p.run.execution w₂) w₂ (result, w₃) →
      Performed node logs p (result >>= fun _ => .error fault,
        ⟨w₃, { p.run with context := (p.run.marked node).context.kept node fault.output }⟩)

open Running

/-- An output is recorded once. -/
theorem go_record {node : Node} {r : Run} (h : r.context.hasOutput node.id = false) (output : Value) (w : World) :
    go (record node output) ⟨w, r⟩ = (.ok (), ⟨w, { r with context := r.context.recorded node.id node.type output }⟩) := by
  unfold record
  rw [go_bind_ok (go_context w r), Context.record_eq _ _ h, go_lift_bind (Engine.run_ofExcept _ w)]
  rfl

theorem go_record_error {node : Node} {r : Run} (h : r.context.hasOutput node.id = true) (output : Value) (w : World) :
    ∃ fault, go (record node output) ⟨w, r⟩ = (.error fault, ⟨w, r⟩) := by
  unfold record
  rw [go_bind_ok (go_context w r), Context.record_twice h, go_lift_bind_error (Engine.run_ofExcept _ w)]
  exact ⟨_, rfl⟩

/-- What a failed node produced all the same is kept, and its row is closed. -/
theorem fail_cases {node : Node} {logs : List NodeLog} {log : NodeLog} {w : World} (r : Run) (start : Int) (fault : Fault)
    (h : HasLogs w.storage log.executionId (logs ++ [log])) (hc : Counted (logs ++ [log])) :
    ∃ duration result w', go (fail node log start fault) ⟨w, r⟩ =
        (result, ⟨w', { r with context := r.context.kept node fault.output }⟩) ∧
      Posted (Store.NodeLogs.place log.executionId)
        (.list ((logs ++ [log.failed fault duration fault.output w.clock.stamp]).map NodeLog.toValue)) ()
        (Audible log.executionId w) w (result, w') := by
  unfold fail
  rw [go_lift_bind (Engine.run_since _ _)]
  have hp := (Journal.nodeFailed_posted h hc fault (w.clock.since start).millis fault.output).returning ()
  generalize hr : Engine.run _ w = result at hp
  refine ⟨(w.clock.since start).millis, result.1, result.2, ?_, hp⟩
  rw [go_bind_ok (go_context w r)]
  dsimp only
  unfold Context.kept
  split
  · next hk =>
    simp only [Bool.and_eq_true, Bool.not_eq_true'] at hk
    rw [go_bind_ok (go_record hk.2 _ w), go_lift_returning, hr]
  · rw [go_lift_returning, hr]

theorem perform_cases {node : Node} {logs : List NodeLog} {p : Progress}
    (h : HasLogs p.world.storage p.run.execution logs) (hc : Counted logs) :
    Performed node logs p (go (perform node) p) := by
  obtain ⟨w, r⟩ := p
  unfold perform
  rw [go_bind_ok (go_marked node w r), go_lift_bind (Engine.run_reading _), go_bind_ok (go_run _ _),
    r.execution_marked]
  by_cases ht : node.Titled
  · have hp := Journal.startNode_posted h ht (.map (r.marked node).context.flat)
    generalize he : NodeLog.opened _ _ _ _ _ = entry at hp
    dsimp only at hp
    cases hs : Engine.run (Journal.startNode r.execution node (.map (r.marked node).context.flat)) w with
    | mk result w₁ =>
      rw [hs] at hp
      cases result with
      | error fault =>
        rw [go_lift_bind_error hs]
        exact .unopened he.symm hp
      | ok log =>
        obtain hw | _ | _ := hp
        have hex : entry.executionId = r.execution := by rw [← he]; rfl
        have hcounted : Counted (logs ++ [entry]) := hc.append (by rw [← he]; rfl)
        rw [go_lift_bind hs, go_lift_bind (Engine.run_attempt _ _)]
        have hworked := (runNode_worked node (r.marked node) w₁).1
        cases hn : Engine.run (runNode node (r.marked node)) w₁ with
        | mk result w₂ =>
          rw [hn] at hworked
          have hlogs : HasLogs w₂.storage entry.executionId (logs ++ [entry]) := by
            rw [hex]
            exact hworked.hasLogs hw.hasLogs
          cases result with
          | ok output =>
            dsimp only
            cases ho : (r.marked node).context.hasOutput node.id with
            | true =>
              obtain ⟨fault, hr⟩ := go_record_error ho output w₂
              rw [go_bind_error hr]
              exact .refused he.symm ho hw hn
            | false =>
              have hclosed := (Journal.nodeSucceeded_posted hlogs hcounted output
                (w₂.clock.since w.clock.reading).millis).returning output
              rw [hex] at hclosed
              rw [go_bind_ok (go_record ho output w₂), go_lift_bind (Engine.run_since _ _), go_lift_returning]
              exact .succeeded he.symm ho hw hn hclosed
          | error fault =>
            obtain ⟨duration, result, w₃, hf, hclosed⟩ :=
              @fail_cases node logs entry w₂ (r.marked node) w.clock.reading fault hlogs hcounted
            rw [hex] at hclosed
            dsimp only
            cases result with
            | ok _ => rw [go_bind_ok hf]; exact .failed he.symm hw hn hclosed
            | error fault => rw [go_bind_error hf]; exact .failed he.symm hw hn hclosed
  · obtain ⟨fault, w', hb, hq⟩ := @Journal.startNode_barred r.execution w node (fun h => absurd h ht)
      (.map (r.marked node).context.flat)
    rw [go_lift_bind_error hb]
    exact .untitled ht hq

/-- Nothing is performed where the log of the execution is no list of rows, or the title of the node no text. -/
theorem perform_barred {node : Node} {w : World} {r : Run}
    (h : node.Titled → ∀ rows, w.storage.read (Store.NodeLogs.place r.execution) (.list []) ≠ .ok (.list rows)) :
    ∃ fault w', go (perform node) ⟨w, r⟩ = (.error fault, ⟨w', r.marked node⟩) ∧ Quiet w w' := by
  obtain ⟨fault, w', hb, hq⟩ := @Journal.startNode_barred r.execution w node h (.map (r.marked node).context.flat)
  refine ⟨fault, w', ?_, hq⟩
  unfold perform
  rw [go_bind_ok (go_marked node w r), go_lift_bind (Engine.run_reading _), go_bind_ok (go_run _ _)]
  exact go_lift_bind_error hb (r.marked node)

/-- A node that was performed had no output before, and its output was recorded. -/
theorem recorded_of_perform {node : Node} {p q : Progress} {output : Value}
    (h : go (perform node) p = (.ok output, q)) :
    (p.run.marked node).context.hasOutput node.id = false ∧
      q.run = { p.run with context := (p.run.marked node).context.recorded node.id node.type output } := by
  obtain ⟨w, r⟩ := p
  unfold perform at h
  rw [go_bind_ok (go_marked node w r), go_lift_bind (Engine.run_reading _), go_bind_ok (go_run _ _),
    r.execution_marked] at h
  cases hs : Engine.run (Journal.startNode r.execution node (.map (r.marked node).context.flat)) w with
  | mk result w₁ =>
    cases result with
    | error fault => rw [go_lift_bind_error hs] at h; cases h
    | ok log =>
      rw [go_lift_bind hs, go_lift_bind (Engine.run_attempt _ _)] at h
      rcases hn : Engine.run (runNode node (r.marked node)) w₁ with ⟨result, w₂⟩
      rw [hn] at h
      cases result with
      | error fault =>
        dsimp only at h
        rw [go_bind] at h
        split at h <;> cases h
      | ok value =>
        dsimp only at h
        cases ho : (r.marked node).context.hasOutput node.id with
        | true =>
          obtain ⟨fault, hr⟩ := go_record_error ho value w₂
          rw [go_bind_error hr] at h
          cases h
        | false =>
          rw [go_bind_ok (go_record ho value w₂), go_lift_bind (Engine.run_since _ _), go_bind, go_lift] at h
          split at h
          · next heq =>
            obtain ⟨-, rfl⟩ := Prod.mk.inj heq
            obtain ⟨hv, rfl⟩ := Prod.mk.inj h
            obtain rfl := Except.ok.inj hv
            exact ⟨rfl, rfl⟩
          · cases h

/-- The output of a node that was performed is in the context. -/
theorem output_of_perform {node : Node} {p q : Progress} {output : Value}
    (h : go (perform node) p = (.ok output, q)) : q.run.context.outputs.get? node.id = some output := by
  rw [(recorded_of_perform h).2]
  simp

end Dispatch

end WorkGraph
