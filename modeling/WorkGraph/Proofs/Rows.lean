import WorkGraph.Journal
import WorkGraph.Proofs.Writes

/-!
# The rows of an execution

`HasLogs` says which rows the log of an execution has. Its rows are numbered by their places (`Counted`), so that an
update changes the row that it means (`update_cases`) and an appended row goes to the end (`append_cases`). What the
journal writes is one of four rows: a node that starts, one that succeeded, one that failed, a click that led nowhere.
-/

namespace WorkGraph

/-! ## Places -/

theorem executions_ne_nodeLogs (id other : String) :
    (Store.Executions.place id).path ≠ (Store.NodeLogs.place other).path := by
  intro h
  cases Location.folder_eq_of_path h

theorem nodeLogs_ne_mappings (id other : String) :
    (Store.NodeLogs.place id).path ≠ (Store.Mappings.place other).path := by
  intro h
  cases Location.folder_eq_of_path h

theorem executions_ne_mappings (id other : String) :
    (Store.Executions.place id).path ≠ (Store.Mappings.place other).path := by
  intro h
  cases Location.folder_eq_of_path h

/-! ## The four rows -/

namespace Node

/-- Whether the title that readers see is a text. -/
def Titled (node : Node) : Prop :=
  ∃ title, node.displayTitle = .str title

instance (node : Node) : Decidable node.Titled :=
  decidable_of_iff (node.displayTitle.str?.isSome = true) (by
    unfold Titled
    cases node.displayTitle <;> simp [Value.str?])

/-- A title is a text or no title at all, never null. -/
theorem displayTitle_ne_null (node : Node) : node.displayTitle ≠ .null := by
  have orElse_ne {v w : Value} (h : w ≠ .null) : v.orElse w ≠ .null := by
    unfold Value.orElse
    split
    · next ht => rintro rfl; cases ht
    · exact h
  exact orElse_ne (orElse_ne (by simp))

end Node

namespace NodeLog

/-- The stored form. -/
def entries (log : NodeLog) : Entries Value :=
  [("id", .int log.id), ("execution_id", .str log.executionId), ("node_id", .str log.nodeId),
    ("node_type", .str log.nodeType), ("node_title", Value.ofText? log.nodeTitle), ("status", .str log.status.name),
    ("input_data", log.inputData), ("output_data", log.outputData),
    ("error_message", Value.ofText? log.errorMessage), ("error_stack", Value.ofText? log.errorStack),
    ("duration_ms", .int log.durationMs), ("started_at", .str log.startedAt),
    ("completed_at", Value.ofText? log.completedAt)]

theorem toValue_eq (log : NodeLog) : log.toValue = .map log.entries := rfl

/-- The fields that a node is given when it starts. -/
def opening (node : Node) (input : Value) : Entries Value :=
  [("node_id", .str node.id), ("node_type", .str node.type), ("node_title", node.displayTitle),
    ("status", .str RunStatus.running.name), ("input_data", input)]

/-- A node that starts. -/
def opened (execution : String) (id : Int) (node : Node) (input : Value) (now : String) : NodeLog :=
  { id, executionId := execution, nodeId := node.id, nodeType := node.type, nodeTitle := node.displayTitle.str?
    status := .running, inputData := input, outputData := .null, errorMessage := none, errorStack := none
    durationMs := 0, startedAt := now, completedAt := none }

/-- A node that succeeded. -/
def succeeded (log : NodeLog) (output : Value) (duration : Int) (now : String) : NodeLog :=
  { log with status := .success, outputData := output, durationMs := duration, completedAt := some now }

/-- A node that failed. -/
def failed (log : NodeLog) (fault : Fault) (duration : Int) (output : Value) (now : String) : NodeLog :=
  { log with
    status := .failed, outputData := output, errorMessage := some fault.message, errorStack := some fault.account
    durationMs := duration, completedAt := some now }

/-- A click that led nowhere. -/
def unrouted (execution : String) (id : Int) (node message : String) (details : Entries Value) (now : String) :
    NodeLog :=
  { id, executionId := execution, nodeId := node ++ "_button_continuation", nodeType := buttonRoutingType
    nodeTitle := some "Button Click Routing", status := .failed, inputData := .null
    outputData := .map (Entries.merge [("error", .bool true), ("message", .str message)] details)
    errorMessage := some message, errorStack := none, durationMs := 0, startedAt := now, completedAt := some now }

@[simp] theorem id_succeeded (log : NodeLog) (output : Value) (duration : Int) (now : String) :
    (log.succeeded output duration now).id = log.id := rfl

@[simp] theorem id_failed (log : NodeLog) (fault : Fault) (duration : Int) (output : Value) (now : String) :
    (log.failed fault duration output now).id = log.id := rfl

@[simp] theorem isRouting_unrouted (execution : String) (id : Int) (node message : String) (details : Entries Value)
    (now : String) : (unrouted execution id node message details now).isRouting = true := by
  simp [isRouting, unrouted]

/-! ## Reading them -/

variable {now execution : String} {id : Int} {node : Node}

theorem load_opening (h : node.Titled) (input : Value) :
    load now (.map ([("id", .int id), ("execution_id", .str execution)] ++ opening node input)) =
      .ok (opened execution id node input now) := by
  obtain ⟨title, ht⟩ := h
  simp [load, Checked.record, read, opening, opened, ht, Checked.required_cons_ne,
    Checked.orFault, Checked.word_str (RunStatus.ofName?_name .running), Checked.any, Checked.text?, Checked.optional,
    Entries.get?, Value.str?]

/-- A node whose title is no text has no row. -/
theorem load_opening_ne (h : ¬node.Titled) (input : Value) (log : NodeLog) :
    load now (.map ([("id", .int id), ("execution_id", .str execution)] ++ opening node input)) ≠ .ok log := by
  have ht : Checked.text? node.displayTitle = Checked.problem .notText := by
    cases hd : node.displayTitle with
    | null => exact absurd hd node.displayTitle_ne_null
    | str s => exact absurd ⟨s, hd⟩ h
    | bool | num | list | map => rfl
  simp [load, Checked.record, read, opening, ht, Checked.required_cons_ne,
    Checked.orFault, Checked.word_str (RunStatus.ofName?_name .running), Checked.any, Checked.optional,
    Entries.get?, Checked.problem, Checked.under]

theorem load_succeeded (stamp : String) (log : NodeLog) (output : Value) (duration : Int) (now : String) :
    load stamp (.map (Entries.merge log.entries
      [("status", .str RunStatus.success.name), ("output_data", output), ("duration_ms", .int duration),
        ("completed_at", .str now)])) = .ok (log.succeeded output duration now) := by
  rw [← load_toValue stamp (log.succeeded output duration now)]
  rfl

theorem load_failed (stamp : String) (log : NodeLog) (fault : Fault) (duration : Int) (output : Value) (now : String) :
    load stamp (.map (Entries.merge log.entries
      [("status", .str RunStatus.failed.name), ("output_data", output), ("error_message", .str fault.message),
        ("error_stack", .str fault.account), ("duration_ms", .int duration), ("completed_at", .str now)])) =
      .ok (log.failed fault duration output now) := by
  rw [← load_toValue stamp (log.failed fault duration output now)]
  rfl

theorem load_unrouted (node message : String) (details : Entries Value) :
    load now (.map ([("id", .int id), ("execution_id", .str execution)] ++
      [("node_id", .str (node ++ "_button_continuation")), ("node_type", .str buttonRoutingType),
        ("node_title", .str "Button Click Routing"), ("status", .str RunStatus.failed.name),
        ("output_data", .map (Entries.merge [("error", .bool true), ("message", .str message)] details)),
        ("error_message", .str message), ("completed_at", .str now)])) =
      .ok (unrouted execution id node message details now) := by
  simp [load, Checked.record, read, unrouted, Checked.required_cons_ne,
    Checked.orFault, Checked.word_str (RunStatus.ofName?_name .failed), Checked.any, Checked.text?, Checked.optional,
    Entries.get?]

end NodeLog

/-! ## The log of an execution -/

/-- Whether the log of an execution has these rows; where there is no file it has none. -/
def HasLogs (s : Storage) (execution : String) (logs : List NodeLog) : Prop :=
  s.read (Store.NodeLogs.place execution) (.list []) = .ok (.list (logs.map NodeLog.toValue))

theorem HasLogs.unique {s : Storage} {execution : String} {logs other : List NodeLog} (h : HasLogs s execution logs)
    (k : HasLogs s execution other) : logs = other := by
  have hm : logs.map NodeLog.toValue = other.map NodeLog.toValue := by
    have := h.symm.trans k
    simpa using this
  refine List.map_inj_right (fun a b hab => ?_) |>.1 hm
  have := (NodeLog.load_toValue "" a).symm.trans (hab ▸ NodeLog.load_toValue "" b)
  exact Except.ok.inj this

/-- Whether rows are numbered by their places. -/
def Counted (logs : List NodeLog) : Prop :=
  ∀ i (h : i < logs.length), logs[i].id = i + 1

theorem counted_nil : Counted [] :=
  fun i h => absurd h (Nat.not_lt_zero i)

theorem Counted.append {logs : List NodeLog} {log : NodeLog} (h : Counted logs) (hl : log.id = logs.length + 1) :
    Counted (logs ++ [log]) := by
  intro i hi
  rw [List.getElem_append]
  split
  · next hlt => exact h i hlt
  · next hge =>
    have : i = logs.length := by simp at hi; omega
    subst this
    simpa using hl

/-- The last row is told apart by its number. -/
theorem Counted.last {logs : List NodeLog} {log : NodeLog} (h : Counted (logs ++ [log])) :
    log.id = logs.length + 1 ∧ ∀ l ∈ logs, l.id ≠ log.id := by
  have hlast : log.id = logs.length + 1 := by
    have := h logs.length (by simp)
    simpa using this
  refine ⟨hlast, fun l hl he => ?_⟩
  obtain ⟨i, hi, rfl⟩ := List.mem_iff_getElem.1 hl
  have := h i (by simp; omega)
  rw [List.getElem_append_left hi] at this
  omega

/-- A row takes the place of the last one. -/
theorem Counted.replace {logs : List NodeLog} {log other : NodeLog} (h : Counted (logs ++ [log]))
    (ho : other.id = log.id) : Counted (logs ++ [other]) := by
  have hl := h.last.1
  refine Counted.append (fun i hi => ?_) (ho.trans hl)
  have := h i (by simp; omega)
  rwa [List.getElem_append_left hi] at this

@[simp] theorem Value.same_int (m n : Int) : (Value.int m).same (Value.int n) = (m == n) := by
  simp [Value.int, Value.same, Value.asNumber?]

theorem exists_of_bind {α β : Type} {result : Except Fault α} {next : α → Except Fault β} {b : β}
    (h : result >>= next = .ok b) : ∃ a, result = .ok a ∧ next a = .ok b := by
  cases result with
  | error fault => cases h
  | ok a => exact ⟨a, rfl, h⟩

/-- Members that are all read are read one by one. -/
theorem mapM_cons_eq_ok {α β : Type} {f : α → Except Fault β} {a : α} {as : List α} {bs : List β} :
    (a :: as).mapM f = .ok bs ↔ ∃ b rest, f a = .ok b ∧ as.mapM f = .ok rest ∧ bs = b :: rest := by
  rw [List.mapM_cons]
  constructor
  · intro h
    obtain ⟨b, ha, h⟩ := exists_of_bind h
    obtain ⟨rest, hrest, h⟩ := exists_of_bind h
    exact ⟨b, rest, ha, hrest, (Except.ok.inj h).symm⟩
  · rintro ⟨b, rest, ha, hrest, rfl⟩
    rw [ha, hrest]
    rfl

namespace Store.NodeLogs

open Engine

variable {w : World} {execution : String} {logs : List NodeLog} {log row : NodeLog} {fields : Entries Value}

/-- What is written of rows is read back. -/
theorem load_map_toValue (now : String) (logs : List NodeLog) :
    (logs.map NodeLog.toValue).mapM (NodeLog.load now) = .ok logs := by
  induction logs with
  | nil => rfl
  | cons l rest ih => simp [NodeLog.load_toValue, ih]; rfl

/-- What is read is the rows. -/
theorem all_cases (h : HasLogs w.storage execution logs) :
    ∃ w', Quiet w w' ∧ (run (all execution) w = (.ok logs, w') ∨
      ¬w.Steady ∧ ∃ fault, run (all execution) w = (.error fault, w')) := by
  obtain ⟨w₁, hq, he⟩ := entering_cases .getNodeLogs w
  refine ⟨w₁, hq, ?_⟩
  unfold all
  rcases he with he | ⟨hs, fault, he⟩
  · have hr : w₁.storage.read (place execution) (.list []) = .ok (.list (logs.map NodeLog.toValue)) := by
      rw [hq.storage]; exact h
    refine .inl ?_
    simp only [run_bind, he, run_readFile, hr, run_stamp, run_ofExcept, Value.members_list,
      load_map_toValue]
  · exact .inr ⟨hs, fault, by rw [run_bind, he]⟩

/-- A row is appended to whatever rows there are, and numbered by its place. -/
theorem append_listed {rows : List Value} (h : w.storage.read (place execution) (.list []) = .ok (.list rows))
    (hf : unnamed ["self", "execution_id"] fields = .ok ()) (hi : unnamed ["id"] fields = .ok ())
    (hl : NodeLog.load w.clock.stamp
      (.map ([("id", .int (rows.length + 1)), ("execution_id", .str execution)] ++ fields)) = .ok log) :
    Posted (place execution) (.list (rows ++ [log.toValue])) log True w (run (append execution fields) w) := by
  refine .entering _ fun u hq => ?_
  rw [← hq.storage] at h
  rw [← hq.clock] at hl
  have hw := Posted.writeFile (place execution) (.list (rows ++ [log.toValue])) u
  rw [run_ofExcept_bind hf, run_readFile_bind h, run_ofExcept_bind (rowCount_list _), run_ofExcept_bind hi,
    run_bind_ok (run_stamp u), run_ofExcept_bind hl, run_ofExcept_bind (appendRow_list _ _)]
  exact hw.returning log

/-- A row is appended to the log. -/
theorem append_posted (h : HasLogs w.storage execution logs) (hf : unnamed ["self", "execution_id"] fields = .ok ())
    (hi : unnamed ["id"] fields = .ok ())
    (hl : NodeLog.load w.clock.stamp
      (.map ([("id", .int (logs.length + 1)), ("execution_id", .str execution)] ++ fields)) = .ok log) :
    Posted (place execution) (.list ((logs ++ [log]).map NodeLog.toValue)) log True w
      (run (append execution fields) w) := by
  rw [← List.length_map (f := NodeLog.toValue)] at hl
  rw [List.map_append]
  exact append_listed h hf hi hl

/-- A row that has not the shape of one is not appended, nor is any to a file that holds something else. -/
theorem append_barred (hs : ∀ rows, w.storage.read (place execution) (.list []) = .ok (.list rows) → ∀ log,
      NodeLog.load w.clock.stamp
        (.map ([("id", .int (rows.length + 1)), ("execution_id", .str execution)] ++ fields)) ≠ .ok log) :
    Barred (append execution fields) w := by
  refine barred_bind (hushed_entering _) fun _ u _ hq => barred_ofExcept fun _ _ => barred_readFile fun v hv =>
    barred_ofExcept fun count hcount => barred_ofExcept fun _ _ => ?_
  refine barred_stamp (barred_ofExcept fun log hlog => barred_ofExcept fun value hvalue => ?_)
  rw [hq.storage] at hv
  rw [hq.clock] at hlog
  cases v with
  | list rows =>
    rw [rowCount_list] at hcount
    obtain rfl := Except.ok.inj hcount
    exact absurd hlog (hs rows hv log)
  | null | bool | num | str | map => simp [appendRow] at hvalue

/-- The row of an id that no row before has is the one that is changed. -/
theorem change_last {now : String} {init : List NodeLog} (hn : ∀ l ∈ init, l.id ≠ log.id)
    (hl : NodeLog.load now (.map (Entries.merge log.entries fields)) = .ok row) :
    change now (.int log.id) fields ((init ++ [log]).map NodeLog.toValue) =
      .ok (some ((init ++ [row]).map NodeLog.toValue, row)) := by
  induction init with
  | nil =>
    have hid : (Value.field log.entries "id").same (.int log.id) = true := by
      simp [NodeLog.entries, Value.field, Entries.get?]
    simp only [List.nil_append, List.map_cons, List.map_nil, NodeLog.toValue_eq, change, hid, if_true, hl]
    rfl
  | cons l rest ih =>
    have hid : (Value.field l.entries "id").same (.int log.id) = false := by
      simpa [NodeLog.entries, Value.field, Entries.get?] using hn l (by simp)
    have hrest := ih fun l hl => hn l (by simp [hl])
    simp only [List.cons_append, List.map_cons, NodeLog.toValue_eq l, change, hid, Bool.false_eq_true, if_false, hrest]
    rfl

/-- The fields of the last row are changed. -/
theorem update_posted {init : List NodeLog} (h : HasLogs w.storage execution (init ++ [log]))
    (hc : Counted (init ++ [log])) (hf : unnamed ["self", "execution_id", "log_id"] fields = .ok ())
    (hl : NodeLog.load w.clock.stamp (.map (Entries.merge log.entries fields)) = .ok row) :
    Posted (place execution) (.list ((init ++ [row]).map NodeLog.toValue)) row True w
      (run (update execution (.int log.id) fields) w) := by
  refine .entering _ fun u hq => ?_
  have hr : u.storage.read (place execution) (.list []) = .ok (.list ((init ++ [log]).map NodeLog.toValue)) := by
    rw [hq.storage]; exact h
  rw [← hq.clock] at hl
  have hw := Posted.writeFile (place execution) (.list ((init ++ [row]).map NodeLog.toValue)) u
  rw [run_ofExcept_bind hf, run_readFile_bind hr, run_ofExcept_bind (Value.members_list _), run_bind_ok (run_stamp u),
    run_ofExcept_bind (change_last hc.last.2 hl)]
  exact hw.returning row

end Store.NodeLogs

end WorkGraph
