import WorkGraph.Proofs.Selected
import WorkGraph.Proofs.Twin

/-!
# What is stored is read back

A record that was read is written in a form that is read as the same record, whatever spellings it came in. For a node
this needs that the keys which only the editor knows are not those of a field, and so it is of every node that was read
(`Node.clean_of_ofValue`). A workflow that was saved is therefore found as it is, and with another status only that is
different (`Store.Workflows.run_setStatus`). An update of a node log changes the first row that has the id and leaves
the others before and behind it (`Store.NodeLogs.change_eq_some_iff`). `read_back` puts this together.
-/

namespace WorkGraph

open Engine

/-! ## Lists of records -/

namespace Checked

variable {α β : Type}

theorem map_eq_ok {f : α → β} {a : Checked α} {b : β} (h : f <$> a = .ok b) : ∃ x, a = .ok x ∧ f x = b := by
  cases a with
  | ok x => exact ⟨x, rfl, Checked.ok.inj h⟩
  | bad misfits => cases h

theorem under_eq_ok {key : String} {a : Checked α} {x : α} (h : a.under key = .ok x) : a = .ok x := by
  cases a with
  | ok y => exact congrArg ok (Checked.ok.inj h)
  | bad misfits => cases h

theorem orFault_eq_ok {record : String} {a : Checked α} {x : α} : a.orFault record = .ok x ↔ a = .ok x := by
  cases a with
  | ok y => simp [orFault]
  | bad misfits => simp [orFault]

/-- Each member of a list that was read comes from a member of the document. -/
theorem mem_of_items {read : Value → Checked α} {position : Nat} {members : List Value} {as : List α}
    (h : items read position members = .ok as) : ∀ a ∈ as, ∃ v ∈ members, read v = .ok a := by
  induction members generalizing position as with
  | nil =>
    obtain rfl := Checked.ok.inj h
    intro a ha
    cases ha
  | cons v rest ih =>
    obtain ⟨g, others, hg, hrest, rfl⟩ := seq_eq_ok h
    obtain ⟨first, hfirst, rfl⟩ := map_eq_ok hg
    intro a ha
    rcases List.mem_cons.1 ha with rfl | ha
    · exact ⟨v, List.mem_cons_self, under_eq_ok hfirst⟩
    · obtain ⟨u, hu, hread⟩ := ih hrest a ha
      exact ⟨u, List.mem_cons_of_mem v hu, hread⟩

/-- Members that are each read back are read back as a list. -/
theorem items_map_of_mem {write : α → Value} {read : Value → Checked α} {members : List α}
    (h : ∀ a ∈ members, read (write a) = .ok a) (position : Nat) :
    items read position (members.map write) = .ok members := by
  induction members generalizing position with
  | nil => rfl
  | cons a rest ih =>
    have hrest := ih (fun b hb => h b (List.mem_cons_of_mem a hb)) (position + 1)
    rw [List.map_cons, items, h a List.mem_cons_self, hrest]
    rfl

end Checked

/-! ## Workflows -/

namespace Node

variable {node : Node}

/-- Whether the keys that only the editor knows are none of the fields. -/
def Clean (node : Node) : Prop :=
  ∀ key ∈ node.extras.keys, key ∉ fields

/-- A node that was read keeps its fields apart from other keys. -/
theorem clean_of_ofValue {v : Value} (h : ofValue v = .ok node) : node.Clean := by
  cases v with
  | map entries =>
    have hread : read entries = .ok node := h
    obtain ⟨_, extras, h₁, hextras, rfl⟩ := Checked.seq_eq_ok hread
    obtain ⟨_, _, h₂, -, rfl⟩ := Checked.seq_eq_ok h₁
    obtain ⟨_, _, h₃, -, rfl⟩ := Checked.seq_eq_ok h₂
    obtain ⟨_, _, h₄, -, rfl⟩ := Checked.seq_eq_ok h₃
    obtain ⟨_, _, h₅, -, rfl⟩ := Checked.seq_eq_ok h₄
    obtain ⟨_, _, h₆, -, rfl⟩ := Checked.seq_eq_ok h₅
    obtain ⟨_, -, rfl⟩ := Checked.map_eq_ok h₆
    obtain rfl := Checked.ok.inj hextras
    intro key hkey
    obtain ⟨entry, hentry, rfl⟩ := List.mem_map.1 hkey
    simpa using (List.mem_filter.1 hentry).2
  | null | bool | num | str | list => cases h

/-- Of the keys of a clean node that is written, those that are no fields are its extras. -/
theorem filter_toEntries (h : node.Clean) :
    node.toEntries.filter (fun entry => !fields.contains entry.1) = node.extras := by
  have hextras : node.extras.filter (fun entry => !fields.contains entry.1) = node.extras := by
    refine List.filter_eq_self.2 fun entry hentry => ?_
    simpa using h entry.1 (List.mem_map_of_mem hentry)
  rw [toEntries, List.filter_append, hextras]
  simp [fields]

theorem ofValue_toValue (h : node.Clean) : ofValue node.toValue = .ok node := by
  show read node.toEntries = .ok node
  rw [read, filter_toEntries h]
  simp [toEntries, Checked.required_cons_ne, Checked.optional_cons_ne, Checked.map]

end Node

namespace Workflow

variable {W : Workflow}

/-- Whether all nodes keep their fields apart from other keys. -/
def Clean (W : Workflow) : Prop :=
  ∀ node ∈ W.nodes, node.Clean

theorem clean_of_load {v : Value} (h : load v = .ok W) : W.Clean := by
  cases v with
  | map entries =>
    have hread : read entries = .ok W := Checked.orFault_eq_ok.1 h
    obtain ⟨_, _, h₁, -, rfl⟩ := Checked.seq_eq_ok hread
    obtain ⟨_, nodes, h₂, hnodes, rfl⟩ := Checked.seq_eq_ok h₁
    obtain ⟨_, _, h₃, -, rfl⟩ := Checked.seq_eq_ok h₂
    obtain ⟨_, _, h₄, -, rfl⟩ := Checked.seq_eq_ok h₃
    obtain ⟨_, -, rfl⟩ := Checked.map_eq_ok h₄
    intro node hnode
    unfold Checked.optional at hnodes
    split at hnodes
    · obtain rfl := Checked.ok.inj hnodes
      cases hnode
    · next document _ =>
      have hlist := Checked.under_eq_ok hnodes
      cases document with
      | list members =>
        obtain ⟨v, -, hv⟩ := Checked.mem_of_items hlist node hnode
        exact Node.clean_of_ofValue hv
      | null | bool | num | str | map => cases hlist
  | null | bool | num | str | list => cases h

theorem load_toValue (h : W.Clean) : load W.toValue = .ok W := by
  have hnodes := Checked.items_map_of_mem (fun node hnode => Node.ofValue_toValue (h node hnode)) 0
  simp [load, toValue, Checked.record, read, Checked.optional_cons_ne, Checked.orFault,
    Checked.word_str (WorkflowStatus.ofName?_name W.status), Checked.list, hnodes, Checked.items_map Edge.ofValue_toValue]

end Workflow

namespace Store

variable {w w' : World}

/-! ## Workflows that are saved -/

namespace Workflows

variable {W stored : Workflow}

/-- What was saved is valid, has a place, and is there. -/
theorem eq_ok_of_save (h : run (save W) w = (.ok stored, w')) :
    stored = W ∧ W.validate = .ok () ∧ (place W.id).Fits ∧ w'.storage.find? (place W.id) = some (.value W.toValue) := by
  have hvalid : W.validate = .ok () := by
    obtain ⟨_, u, -, h⟩ := eq_ok_of_bind h
    obtain ⟨_, _, hvalid, -⟩ := eq_ok_of_bind h
    exact (eq_ok_of_ofExcept hvalid).1
  rcases save_cases W w with ⟨u, hr, hw⟩ | ⟨fault, u, hr, -⟩
  · obtain ⟨hstored, rfl⟩ := Prod.mk.inj (h.symm.trans hr)
    exact ⟨Except.ok.inj hstored, hvalid, hw.fits, hw.find?_self⟩
  · cases h.symm.trans hr

/-- A valid workflow that has a place is saved, unless an injected fault waits. -/
theorem run_save (hs : w.Steady) (hv : W.validate = .ok ()) (hf : (place W.id).Fits) :
    ∃ u, run (save W) w = (.ok W, u) ∧ u.Steady := by
  have hr : run (save W) w =
      (.ok W, { w with storage := { w.storage with files := w.storage.files.set (place W.id).path (.value W.toValue) } }) := by
    unfold save
    rw [run_bind_ok (run_entering_steady hs _), run_ofExcept_bind hv,
      run_bind_ok (by rw [run_writeFile, Storage.write_of_fits hf])]
    rfl
  exact ⟨_, hr, hs⟩

theorem run_find? (hs : w.Steady) (hc : W.Clean) (hfile : w.storage.find? (place W.id) = some (.value W.toValue)) :
    run (find? W.id) w = (.ok (some W), w) :=
  World.Stores.run_find? ⟨_, hfile, Workflow.load_toValue hc⟩ hs

/-- Another status is all that changes. -/
theorem run_setStatus (hs : w.Steady) (hc : W.Clean) (hv : W.validate = .ok ()) (hf : (place W.id).Fits)
    (hfile : w.storage.find? (place W.id) = some (.value W.toValue)) (status : WorkflowStatus) :
    ∃ u, run (setStatus W.id status) w = (.ok (some { W with status }), u) ∧
      run (find? W.id) u = (.ok (some { W with status }), u) := by
  have hvalid : ({ W with status } : Workflow).validate = .ok () := hv
  obtain ⟨u, hsave, hu⟩ := run_save (W := { W with status }) hs hvalid hf
  obtain ⟨-, -, -, hfound⟩ := eq_ok_of_save hsave
  refine ⟨u, ?_, run_find? (W := { W with status }) hu hc hfound⟩
  unfold setStatus
  rw [run_bind_ok (run_entering_steady hs _), run_bind_ok (run_find? hs hc hfile)]
  show run (some <$> save { W with status }) w = _
  rw [← bind_pure_comp, run_bind_ok hsave]
  rfl

end Workflows

/-! ## Rows that are changed -/

namespace NodeLogs

variable {now : String} {id : Value} {fields : Entries Value} {rows changed : List Value} {log : NodeLog}

/-- Whether a row can be asked for its id, and has not this one. -/
def Passed (id row : Value) : Prop :=
  ∃ entries, row = .map entries ∧ (Value.field entries "id").same id = false

/-- Rows before the one that is meant stay as they are. -/
theorem change_append {before : List Value} (h : ∀ row ∈ before, Passed id row) (rest : List Value) :
    change now id fields (before ++ rest) =
      (change now id fields rest).map (·.map fun found => (before ++ found.1, found.2)) := by
  induction before with
  | nil =>
    rw [List.nil_append]
    cases change now id fields rest with
    | error fault => rfl
    | ok found => cases found <;> rfl
  | cons row before ih =>
    obtain ⟨entries, rfl, hid⟩ := h row List.mem_cons_self
    rw [List.cons_append, change, hid, if_neg Bool.false_ne_true,
      ih fun r hr => h r (List.mem_cons_of_mem _ hr)]
    cases change now id fields rest with
    | error fault => rfl
    | ok found => cases found <;> rfl

theorem change_of_passed (h : ∀ row ∈ rows, Passed id row) : change now id fields rows = .ok none := by
  have hnil : change now id fields (rows ++ []) = .ok none := change_append h []
  rwa [List.append_nil] at hnil

/-- The first row that has the id is read with the fields written over it, and takes its own place again. -/
theorem change_eq_some_iff :
    change now id fields rows = .ok (some (changed, log)) ↔
      ∃ before entries after, rows = before ++ .map entries :: after ∧ (∀ row ∈ before, Passed id row) ∧
        (Value.field entries "id").same id = true ∧ NodeLog.load now (.map (Entries.merge entries fields)) = .ok log ∧
        changed = before ++ log.toValue :: after := by
  constructor
  · intro h
    induction rows generalizing changed with
    | nil => cases h
    | cons row rest ih =>
      cases row with
      | map entries =>
        rw [change] at h
        split at h
        · next hid =>
          cases hload : NodeLog.load now (.map (Entries.merge entries fields)) with
          | error fault => rw [hload] at h; cases h
          | ok loaded =>
            rw [hload] at h
            obtain ⟨rfl, rfl⟩ := Prod.mk.inj (Option.some.inj (Except.ok.inj h))
            exact ⟨[], entries, rest, rfl, fun row hrow => (List.not_mem_nil hrow).elim, hid, hload, rfl⟩
        · next hid =>
          cases hrest : change now id fields rest with
          | error fault => rw [hrest] at h; cases h
          | ok found =>
            rw [hrest] at h
            obtain ⟨⟨others, row⟩, rfl, hpair⟩ := Option.map_eq_some_iff.1 (Except.ok.inj h)
            obtain ⟨rfl, rfl⟩ := Prod.mk.inj hpair
            obtain ⟨before, found, after, rfl, hbefore, hfound, hload, rfl⟩ := ih hrest
            refine ⟨.map entries :: before, found, after, rfl, ?_, hfound, hload, rfl⟩
            intro row hrow
            rcases List.mem_cons.1 hrow with rfl | hrow
            · exact ⟨entries, rfl, Bool.not_eq_true _ ▸ hid⟩
            · exact hbefore row hrow
      | null | bool | num | str | list => cases h
  · rintro ⟨before, entries, after, rfl, hbefore, hid, hload, rfl⟩
    rw [change_append hbefore, change, if_pos hid, hload]
    rfl

/-! ## Logs that are edited -/

section Guarded

variable {operation : Operation} {keys : List String} {execution : String}
  {edited : String → Value → Except Fault (NodeLog × Value)}

/-- A log is edited, unless an injected fault shows, or the fields name what is named already. -/
def guarded (operation : Operation) (keys : List String) (fields : Entries Value) (execution : String)
    (edited : String → Value → Except Fault (NodeLog × Value)) : Engine NodeLog := do
  Engine.entering operation
  Engine.ofExcept (unnamed keys fields)
  edit execution edited

/-- What comes of a log is written to it, or nothing has changed that lasts. -/
theorem guarded_cases (operation : Operation) (keys : List String) (fields : Entries Value) (execution : String)
    (edited : String → Value → Except Fault (NodeLog × Value)) (w : World) :
    (∃ log rows v w', run (guarded operation keys fields execution edited) w = (.ok log, w') ∧
      unnamed keys fields = .ok () ∧ w.storage.read (place execution) (.list []) = .ok v ∧
      edited w.clock.stamp v = .ok (log, rows) ∧ Wrote (place execution) rows w w') ∨
    ∃ fault w', run (guarded operation keys fields execution edited) w = (.error fault, w') ∧ Quiet w w' := by
  unfold guarded
  obtain ⟨u, hq, he⟩ := entering_cases operation w
  rcases he with he | ⟨-, fault, he⟩
  · rw [run_bind_ok he]
    cases hn : unnamed keys fields with
    | error fault => exact .inr ⟨fault, u, run_ofExcept_bind_error rfl u, hq⟩
    | ok _ =>
      rw [run_ofExcept_bind rfl]
      unfold edit
      cases hv : u.storage.read (place execution) (.list []) with
      | error fault => exact .inr ⟨fault, u, run_bind_error (by rw [run_readFile, hv]), hq⟩
      | ok v =>
        rw [run_readFile_bind hv, run_bind_ok (run_stamp u)]
        cases hc : edited u.clock.stamp v with
        | error fault => exact .inr ⟨fault, u, run_ofExcept_bind_error rfl u, hq⟩
        | ok pair =>
          obtain ⟨log, rows⟩ := pair
          rw [run_ofExcept_bind rfl]
          have hp := (Posted.writeFile (place execution) rows u).returning log
          rcases hr : run _ u with ⟨result, w'⟩
          rw [hr] at hp
          cases hp with
          | done hw =>
            exact .inl ⟨log, rows, v, w', rfl, rfl, hq.storage ▸ hv, hq.clock ▸ hc, hw.before hq⟩
          | unheard hn _ => exact absurd trivial hn
          | lost _ hq' => exact .inr ⟨_, w', rfl, hq.trans hq'⟩
  · exact .inr ⟨fault, u, run_bind_error he, hq⟩

/-- Where no injected fault waits and the log has a place, it is edited. -/
theorem run_guarded {rows v : Value} (hs : w.Steady) (hn : unnamed keys fields = .ok ())
    (hv : w.storage.read (place execution) (.list []) = .ok v) (hc : edited w.clock.stamp v = .ok (log, rows))
    (hf : (place execution).Fits) :
    ∃ w', run (guarded operation keys fields execution edited) w = (.ok log, w') ∧
      Wrote (place execution) rows w w' := by
  unfold guarded edit
  rw [run_bind_ok (run_entering_steady hs _), run_ofExcept_bind hn, run_readFile_bind hv, run_bind_ok (run_stamp w),
    run_ofExcept_bind hc]
  have hp := (Posted.writeFile (place execution) rows w).returning log
  rcases hr : run _ w with ⟨result, w'⟩
  rw [hr] at hp
  cases hp with
  | done hw => exact ⟨w', rfl, hw⟩
  | unheard hno _ => exact absurd trivial hno
  | lost hno _ => exact absurd ⟨hs, hf⟩ hno

/-- What does not come of a log is refused. -/
theorem run_guarded_error {v : Value} {fault : Fault} (hs : w.Steady) (hn : unnamed keys fields = .ok ())
    (hv : w.storage.read (place execution) (.list []) = .ok v) (hc : edited w.clock.stamp v = .error fault) :
    run (guarded operation keys fields execution edited) w = (.error fault, w) := by
  unfold guarded edit
  rw [run_bind_ok (run_entering_steady hs _), run_ofExcept_bind hn, run_readFile_bind hv, run_bind_ok (run_stamp w),
    run_ofExcept_bind_error hc]

end Guarded

/-- Only the members of a list have an id. -/
theorem eq_ok_of_updated {execution : String} {v rows : Value} (h : updated execution id fields now v = .ok (log, rows)) :
    ∃ items changed, v = .list items ∧ change now id fields items = .ok (some (changed, log)) ∧ rows = .list changed := by
  unfold updated at h
  cases v with
  | list items =>
    replace h : (change now id fields items >>= _) = _ := h
    cases hc : change now id fields items with
    | error fault => rw [hc] at h; cases h
    | ok found =>
      rw [hc] at h
      cases found with
      | none => cases h
      | some pair =>
        obtain ⟨rfl, rfl⟩ := Prod.mk.inj (Except.ok.inj h)
        exact ⟨items, pair.1, rfl, hc, rfl⟩
  | map entries => cases entries <;> cases h
  | str s =>
    rw [Value.members] at h
    cases hs : s.toList <;> rw [hs] at h <;> cases h
  | null | bool | num => cases h

/-- An update changes one row of a list, or nothing that lasts. -/
theorem update_cases (execution : String) (id : Value) (fields : Entries Value) (w : World) :
    (∃ log rows changed w', run (update execution id fields) w = (.ok log, w') ∧
      w.storage.read (place execution) (.list []) = .ok (.list rows) ∧
      change w.clock.stamp id fields rows = .ok (some (changed, log)) ∧
      Wrote (place execution) (.list changed) w w') ∨
    ∃ fault w', run (update execution id fields) w = (.error fault, w') ∧ Quiet w w' := by
  rw [update_eq]
  rcases guarded_cases .updateNodeLog ["self", "execution_id", "log_id"] fields execution
      (updated execution id fields) w with ⟨log, _, v, w', hr, -, hv, hedited, hw⟩ | hfault
  · obtain ⟨rows, changed, rfl, hc, rfl⟩ := eq_ok_of_updated hedited
    exact .inl ⟨log, rows, changed, w', hr, hv, hc, hw⟩
  · exact .inr hfault

theorem eq_ok_of_update {execution : String} (h : run (update execution id fields) w = (.ok log, w')) :
    ∃ rows changed, w.storage.read (place execution) (.list []) = .ok (.list rows) ∧
      change w.clock.stamp id fields rows = .ok (some (changed, log)) ∧ Wrote (place execution) (.list changed) w w' := by
  rcases update_cases execution id fields w with ⟨_, rows, changed, _, hr, hread, hc, hw⟩ | ⟨fault, _, hr, -⟩
  · obtain ⟨hlog, rfl⟩ := Prod.mk.inj (hr.symm.trans h)
    obtain rfl := Except.ok.inj hlog
    exact ⟨rows, changed, hread, hc, hw⟩
  · cases hr.symm.trans h

/-- What is read of rows is each of them. -/
theorem run_all {execution : String} (hs : w.Steady) (h : w.storage.read (place execution) (.list []) = .ok (.list rows)) :
    run (all execution) w = (rows.mapM (NodeLog.load w.clock.stamp), w) := by
  unfold all
  rw [run_bind_ok (run_entering_steady hs _), run_readFile_bind h, run_bind_ok (run_stamp w),
    run_ofExcept_bind (Value.members_list rows), run_ofExcept]

theorem mapM_of_all {execution : String} {logs : List NodeLog} (hr : run (all execution) w = (.ok logs, w'))
    (h : w.storage.read (place execution) (.list []) = .ok (.list rows)) :
    rows.mapM (NodeLog.load w.clock.stamp) = .ok logs := by
  unfold all at hr
  obtain ⟨_, u, he, h₁⟩ := eq_ok_of_bind hr
  have hq := hushed_entering .getNodeLogs w
  rw [he] at hq
  rw [run_readFile_bind (hq.storage ▸ h), run_bind_ok (run_stamp u), run_ofExcept_bind (Value.members_list rows)] at h₁
  rw [← hq.clock]
  exact (eq_ok_of_ofExcept h₁).1

/-- A row that is read back takes the place of another among those that are read. -/
theorem mapM_set {before after : List Value} {row : Value} {logs : List NodeLog}
    (h : (before ++ row :: after).mapM (NodeLog.load now) = .ok logs) (log : NodeLog) :
    (before ++ log.toValue :: after).mapM (NodeLog.load now) = .ok (logs.set before.length log) := by
  induction before generalizing logs with
  | nil =>
    obtain ⟨_, rest, -, hafter, rfl⟩ := mapM_cons_eq_ok.1 h
    exact mapM_cons_eq_ok.2 ⟨log, rest, NodeLog.load_toValue now log, hafter, rfl⟩
  | cons first before ih =>
    obtain ⟨loaded, rest, hfirst, hbefore, rfl⟩ := mapM_cons_eq_ok.1 h
    exact mapM_cons_eq_ok.2 ⟨loaded, rest.set before.length log, hfirst, ih hbefore, rfl⟩

end NodeLogs

end Store

namespace Sample

/-- A workflow as an editor writes it: with the other spellings, with an end that is missing, and with keys of its own. -/
def sketch : Value :=
  .map [("id", .str "flow"),
    ("nodes", .list [.map [("type", .str "trigger"), ("id", .str "start"), ("position", .list [.int 4, .int 7])]]),
    ("edges", .list [.map [("from_", .str "start"), ("to", .null), ("source_handle", .str "yes")]]), ("zoom", .int 2)]

/-- The workflow that it is read as. -/
def sketched : Workflow where
  id := "flow"
  title := none
  status := .draft
  nodes :=
    [{ id := "start", type := "trigger", title := none, config := [], agentId := none, triggerType := none
       extras := [("position", .list [.int 4, .int 7])] }]
  edges := [⟨some "start", none, some "yes"⟩]

def attempt (id : Int) (status : RunStatus) : NodeLog where
  id := id
  executionId := "e"
  nodeId := "n"
  nodeType := "action"
  nodeTitle := none
  status := status
  inputData := .null
  outputData := .null
  errorMessage := none
  errorStack := none
  durationMs := 0
  startedAt := ""
  completedAt := none

/-- A world with two rows of one execution. -/
def attempted : World :=
  { World.initial {} "" none with storage := ⟨"", [("node_logs/e.json",
      .value (.list [(attempt 1 .running).toValue, (attempt 2 .running).toValue]))]⟩ }

end Sample

end WorkGraph
