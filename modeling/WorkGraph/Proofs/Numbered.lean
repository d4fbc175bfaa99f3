import WorkGraph.Proofs.Reread
import WorkGraph.Proofs.Twin

/-!
# Rows stay numbered

Rows are appended to the logs of executions and updated, with any fields. One call leaves rows that are numbered by
their places, or nothing that lasts is changed (`LogCall.perform_cases`); so the rows of each execution are as many as
were appended, whatever was called before (`LogCall.Tallied.run`). What a row keeps of the fields of a call is said field
by field, `NodeLog.columns`: a row is read if each of the fields fits (`NodeLog.isOk_read`), and a field that is not given
stays (`NodeLog.load_merged`). What comes of a next call follows from its fields and its number (`LogCall.next`), and
`numbered_run` puts this together.
-/

namespace WorkGraph

open Engine

/-! ## Fields that fit -/

namespace Entries

variable {α : Type} {m n : Entries α} {key : String}

theorem has_eq_false_iff : m.has key = false ↔ m.get? key = none := by
  rw [has, Option.isSome_eq_false_iff, Option.isNone_iff_eq_none]

/-- Of entries with different keys, those that are written over others are what is found. -/
theorem get?_merge (h : n.keys.Nodup) (key : String) : (merge m n).get? key = (n.get? key).or (m.get? key) := by
  induction n generalizing m with
  | nil => rfl
  | cons entry rest ih =>
    obtain ⟨k, v⟩ := entry
    obtain ⟨hfresh, hrest⟩ := List.nodup_cons.1 h
    show (merge (m.set k v) rest).get? key = _
    rw [ih hrest, get?_set, get?]
    by_cases hk : k = key
    · subst hk
      have hnone : get? rest k = none := by
        rw [← Option.not_isSome_iff_eq_none, ← mem_keys_iff_get?]
        exact hfresh
      rw [hnone, if_pos rfl, if_pos rfl]
      rfl
    · rw [if_neg (Ne.symm hk), if_neg hk]

end Entries

namespace Checked

variable {α β : Type}

def isOk : Checked α → Bool
  | ok _ => true
  | bad _ => false

theorem isOk_iff {a : Checked α} : a.isOk = true ↔ ∃ x, a = .ok x := by
  cases a <;> simp [isOk]

@[simp] theorem isOk_seq (f : Checked (α → β)) (a : Checked α) : (f <*> a).isOk = (f.isOk && a.isOk) := by
  cases f <;> cases a <;> rfl

@[simp] theorem isOk_map (f : α → β) (a : Checked α) : (f <$> a).isOk = a.isOk := by
  cases a <;> rfl

@[simp] theorem isOk_required (m : Entries Value) (key : String) (read : Value → Checked α) :
    (required m key read).isOk = (m.get? key).elim false fun v => (read v).isOk := by
  unfold required
  cases m.get? key with
  | none => rfl
  | some v => cases h : read v <;> simp [h, under, isOk]

@[simp] theorem isOk_optional (m : Entries Value) (key : String) (read : Value → Checked α) (default : α) :
    (optional m key read default).isOk = (m.get? key).elim true fun v => (read v).isOk := by
  unfold optional
  cases m.get? key with
  | none => rfl
  | some v => cases h : read v <;> simp [h, under, isOk]

theorem eq_ok_of_required {m : Entries Value} {key : String} {read : Value → Checked α} {a : α}
    (h : required m key read = .ok a) {v : Value} (hv : m.get? key = some v) : read v = .ok a := by
  rw [required, hv] at h
  exact under_eq_ok h

theorem eq_ok_of_optional {m : Entries Value} {key : String} {read : Value → Checked α} {default a : α}
    (h : optional m key read default = .ok a) {v : Value} (hv : m.get? key = some v) : read v = .ok a := by
  rw [optional, hv] at h
  exact under_eq_ok h

end Checked

namespace NodeLog

/-- The fields of a row, and what each keeps of a value that fits. -/
def columns : List (String × (Value → Checked Value)) :=
  [("id", fun v => Value.int <$> Checked.integer v), ("execution_id", fun v => Value.str <$> Checked.text v),
    ("node_id", fun v => Value.str <$> Checked.text v), ("node_type", fun v => Value.str <$> Checked.text v),
    ("node_title", fun v => Value.ofText? <$> Checked.text? v),
    ("status", fun v => (Value.str ·.name) <$> Checked.word RunStatus.ofName? v), ("input_data", Checked.any),
    ("output_data", Checked.any), ("error_message", fun v => Value.ofText? <$> Checked.text? v),
    ("error_stack", fun v => Value.ofText? <$> Checked.text? v),
    ("duration_ms", fun v => Value.int <$> Checked.integer v), ("started_at", fun v => Value.str <$> Checked.text v),
    ("completed_at", fun v => Value.ofText? <$> Checked.text? v)]

/-- The fields that a row cannot do without. -/
def needed : List String := ["id", "execution_id", "node_id", "node_type"]

variable {now : String} {m fields : Entries Value} {log new : NodeLog}

/-- A row is read if each of its fields fits, and none is missing that is needed. -/
theorem isOk_read (now : String) (m : Entries Value) :
    (read now m).isOk = columns.all fun c => (m.get? c.1).elim (!needed.contains c.1) fun v => (c.2 v).isOk := by
  simp [read, columns, needed, Checked.any, Bool.and_assoc]

/-- What a row keeps of the fields that it was read from. -/
theorem stored_of_read (h : read now m = .ok new) {c : String × (Value → Checked Value)} (hc : c ∈ columns) {v : Value}
    (hv : m.get? c.1 = some v) : c.2 v = .ok (Value.field new.entries c.1) := by
  -- from the last field back to the first
  obtain ⟨_, _, g₁₂, h₁₃, rfl⟩ := Checked.seq_eq_ok h
  obtain ⟨_, _, g₁₁, h₁₂, rfl⟩ := Checked.seq_eq_ok g₁₂
  obtain ⟨_, _, g₁₀, h₁₁, rfl⟩ := Checked.seq_eq_ok g₁₁
  obtain ⟨_, _, g₉, h₁₀, rfl⟩ := Checked.seq_eq_ok g₁₀
  obtain ⟨_, _, g₈, h₉, rfl⟩ := Checked.seq_eq_ok g₉
  obtain ⟨_, _, g₇, h₈, rfl⟩ := Checked.seq_eq_ok g₈
  obtain ⟨_, _, g₆, h₇, rfl⟩ := Checked.seq_eq_ok g₇
  obtain ⟨_, _, g₅, h₆, rfl⟩ := Checked.seq_eq_ok g₆
  obtain ⟨_, _, g₄, h₅, rfl⟩ := Checked.seq_eq_ok g₅
  obtain ⟨_, _, g₃, h₄, rfl⟩ := Checked.seq_eq_ok g₄
  obtain ⟨_, _, g₂, h₃, rfl⟩ := Checked.seq_eq_ok g₃
  obtain ⟨_, _, g₁, h₂, rfl⟩ := Checked.seq_eq_ok g₂
  obtain ⟨_, h₁, rfl⟩ := Checked.map_eq_ok g₁
  simp only [columns, List.mem_cons, List.not_mem_nil, or_false] at hc
  rcases hc with rfl | rfl | rfl | rfl | rfl | rfl | rfl | rfl | rfl | rfl | rfl | rfl | rfl
  · exact congrArg (Value.int <$> ·) (Checked.eq_ok_of_required h₁ hv)
  · exact congrArg (Value.str <$> ·) (Checked.eq_ok_of_required h₂ hv)
  · exact congrArg (Value.str <$> ·) (Checked.eq_ok_of_required h₃ hv)
  · exact congrArg (Value.str <$> ·) (Checked.eq_ok_of_required h₄ hv)
  · exact congrArg (Value.ofText? <$> ·) (Checked.eq_ok_of_optional h₅ hv)
  · exact congrArg ((Value.str ·.name) <$> ·) (Checked.eq_ok_of_optional h₆ hv)
  · exact Checked.eq_ok_of_optional h₇ hv
  · exact Checked.eq_ok_of_optional h₈ hv
  · exact congrArg (Value.ofText? <$> ·) (Checked.eq_ok_of_optional h₉ hv)
  · exact congrArg (Value.ofText? <$> ·) (Checked.eq_ok_of_optional h₁₀ hv)
  · exact congrArg (Value.int <$> ·) (Checked.eq_ok_of_optional h₁₁ hv)
  · exact congrArg (Value.str <$> ·) (Checked.eq_ok_of_optional h₁₂ hv)
  · exact congrArg (Value.ofText? <$> ·) (Checked.eq_ok_of_optional h₁₃ hv)

theorem load_eq_ok : load now (.map m) = .ok new ↔ read now m = .ok new :=
  Checked.orFault_eq_ok

/-- Each field is among those that are stored. -/
theorem get?_entries (log : NodeLog) {c : String × (Value → Checked Value)} (hc : c ∈ columns) :
    log.entries.get? c.1 = some (Value.field log.entries c.1) := by
  have hkey : c.1 ∈ log.entries.keys := by
    have hkeys : columns.map (·.1) = log.entries.keys := rfl
    rw [← hkeys]
    exact List.mem_map_of_mem hc
  obtain ⟨v, hv⟩ := Option.isSome_iff_exists.1 (Entries.mem_keys_iff_get?.1 hkey)
  rw [Value.field, hv, Option.getD_some]

/-- What is stored fits, and is kept as it is. -/
theorem stored_entries (log : NodeLog) {c : String × (Value → Checked Value)} (hc : c ∈ columns) :
    c.2 (Value.field log.entries c.1) = .ok (Value.field log.entries c.1) :=
  stored_of_read (load_eq_ok.1 (load_toValue "" log)) hc (get?_entries log hc)

/-- Whether the given values fit their fields. -/
def Fitting (fields : Entries Value) : Prop :=
  ∀ c ∈ columns, ∀ v, fields.get? c.1 = some v → (c.2 v).isOk = true

instance (fields : Entries Value) : Decidable (Fitting fields) :=
  decidable_of_iff (∀ c ∈ columns, (fields.get? c.1).all fun v => (c.2 v).isOk) <|
    forall₂_congr fun c _ => by cases fields.get? c.1 <;> simp

/-- Whether a row has the given fields, as far as it keeps them, and all others of an earlier one. -/
structure Revised (fields : Entries Value) (old new : NodeLog) : Prop where
  given : ∀ c ∈ columns, ∀ v, fields.get? c.1 = some v → c.2 v = .ok (Value.field new.entries c.1)
  kept : ∀ c ∈ columns, fields.get? c.1 = none → Value.field new.entries c.1 = Value.field old.entries c.1

/-- A row is read with fields written over it just if these fit, and then no other field is different. -/
theorem load_merged (hkeys : fields.keys.Nodup) (now : String) (log : NodeLog) :
    (Fitting fields → ∃ new, load now (.map (Entries.merge log.entries fields)) = .ok new) ∧
      ∀ new, load now (.map (Entries.merge log.entries fields)) = .ok new → Fitting fields ∧ Revised fields log new := by
  have hgiven {c : String × (Value → Checked Value)} {v : Value} (hv : fields.get? c.1 = some v) :
      (Entries.merge log.entries fields).get? c.1 = some v := by
    rw [Entries.get?_merge hkeys, hv, Option.some_or]
  have hkept {c : String × (Value → Checked Value)} (hc : c ∈ columns) (hv : fields.get? c.1 = none) :
      (Entries.merge log.entries fields).get? c.1 = some (Value.field log.entries c.1) := by
    rw [Entries.get?_merge hkeys, hv, Option.none_or, get?_entries log hc]
  constructor
  · intro hfit
    have hok : (read now (Entries.merge log.entries fields)).isOk = true := by
      rw [isOk_read, List.all_eq_true]
      intro c hc
      cases hv : fields.get? c.1 with
      | some v =>
        rw [hgiven hv]
        exact hfit c hc v hv
      | none =>
        rw [hkept hc hv]
        exact Checked.isOk_iff.2 ⟨_, stored_entries log hc⟩
    obtain ⟨new, hnew⟩ := Checked.isOk_iff.1 hok
    exact ⟨new, load_eq_ok.2 hnew⟩
  · intro new hnew
    have hread := load_eq_ok.1 hnew
    refine ⟨fun c hc v hv => Checked.isOk_iff.2 ⟨_, stored_of_read hread hc (hgiven hv)⟩, fun c hc v hv =>
      stored_of_read hread hc (hgiven hv), fun c hc hv => ?_⟩
    have hsame := stored_of_read hread hc (hkept hc hv)
    exact (Checked.ok.inj ((stored_entries log hc).symm.trans hsame)).symm

/-- A row keeps its number if none is given. -/
theorem Revised.id_eq (h : Revised fields log new) (hid : fields.has "id" = false) : new.id = log.id :=
  Number.int.inj (Value.num.inj (h.kept columns[0] List.mem_cons_self (Entries.has_eq_false_iff.1 hid)))

/-- Whether the given values fit their fields, and those that an appended row needs are given. -/
def Sufficient (fields : Entries Value) : Prop :=
  Fitting fields ∧ fields.has "node_id" = true ∧ fields.has "node_type" = true

instance (fields : Entries Value) : Decidable (Sufficient fields) :=
  inferInstanceAs (Decidable (_ ∧ _))

/-- A row is read behind its own fields just if the others suffice. -/
theorem exists_load_own_iff (execution : String) (id : Int) (hid : fields.has "id" = false)
    (hexecution : fields.has "execution_id" = false) :
    (∃ log, load now (.map ([("id", .int id), ("execution_id", .str execution)] ++ fields)) = .ok log) ↔
      Sufficient fields := by
  simp only [load_eq_ok]
  rw [← Checked.isOk_iff, isOk_read, List.all_eq_true]
  let own : Entries Value := [("id", .int id), ("execution_id", .str execution)]
  have hget (key : String) : Entries.get? (own ++ fields) key = (own.get? key).or (fields.get? key) :=
    Entries.get?_append own fields key
  have hfree {key : String} {v : Value} (hv : fields.get? key = some v) : own.get? key = none := by
    have hne : key ≠ "id" ∧ key ≠ "execution_id" := by
      refine ⟨?_, ?_⟩ <;> rintro rfl
      · rw [Entries.has_eq_false_iff.1 hid] at hv; cases hv
      · rw [Entries.has_eq_false_iff.1 hexecution] at hv; cases hv
    simp [own, Entries.get?, hne.1.symm, hne.2.symm]
  constructor
  · intro hall
    have hneeded {c : String × (Value → Checked Value)} (hc : c ∈ columns) (hkey : needed.contains c.1 = true)
        (hown : own.get? c.1 = none) : fields.has c.1 = true := by
      have hgiven := hall c hc
      rw [hget, hown, Option.none_or, hkey] at hgiven
      rw [Entries.has]
      cases hv : fields.get? c.1 with
      | none => rw [hv] at hgiven; cases hgiven
      | some v => rfl
    refine ⟨fun c hc v hv => ?_, hneeded (c := columns[2]) (List.getElem_mem _) rfl rfl,
      hneeded (c := columns[3]) (List.getElem_mem _) rfl rfl⟩
    have hgiven := hall c hc
    rwa [hget, hfree hv, Option.none_or, hv] at hgiven
  · rintro ⟨hfit, hnode, htype⟩ c hc
    rw [hget]
    cases hv : fields.get? c.1 with
    | some v =>
      rw [hfree hv]
      exact hfit c hc v hv
    | none =>
      rw [Option.or_none]
      cases hown : own.get? c.1 with
      | some v =>
        -- what a row has of its own is stored in it
        let log : NodeLog := { (default : NodeLog) with id, executionId := execution }
        have hlog : log.entries.get? c.1 = some v := by
          show Entries.get? (own ++ log.entries.drop 2) c.1 = some v
          rw [Entries.get?_append, hown, Option.some_or]
        have hstored := stored_entries log hc
        rw [Value.field, hlog, Option.getD_some] at hstored
        exact Checked.isOk_iff.2 ⟨v, hstored⟩
      | none =>
        -- of what is needed, a row has two fields of its own, and two are given
        show (!needed.contains c.1) = true
        rw [Bool.not_eq_true', ← Bool.not_eq_true, List.contains_iff_mem]
        intro hmem
        simp only [needed, List.mem_cons, List.not_mem_nil, or_false] at hmem
        rcases hmem with hkey | hkey | hkey | hkey
        · rw [hkey] at hown; cases hown
        · rw [hkey] at hown; cases hown
        · rw [hkey] at hv; rw [Entries.has, hv] at hnode; cases hnode
        · rw [hkey] at hv; rw [Entries.has, hv] at htype; cases htype

end NodeLog

/-! ## Rows that are appended and changed -/

namespace Counted

variable {logs others : List NodeLog}

/-- Rows with the same numbers are numbered alike. -/
theorem of_ids (h : Counted logs) (hids : others.map NodeLog.id = logs.map NodeLog.id) : Counted others := by
  have hlength : others.length = logs.length := by simpa using congrArg List.length hids
  intro i hi
  have hid : (others.map NodeLog.id)[i]? = (logs.map NodeLog.id)[i]? := by rw [hids]
  have hlog := h i (hlength ▸ hi)
  simp only [List.getElem?_map, List.getElem?_eq_getElem hi, List.getElem?_eq_getElem (hlength ▸ hi),
    Option.map_some, Option.some.injEq] at hid
  rw [hid, hlog]

theorem id_of_mem (h : Counted logs) {log : NodeLog} (hlog : log ∈ logs) : 1 ≤ log.id ∧ log.id ≤ logs.length := by
  obtain ⟨i, hi, rfl⟩ := List.mem_iff_getElem.1 hlog
  rw [h i hi]
  omega

end Counted

namespace Store

variable {w w' : World} {execution now : String} {id : Value} {fields : Entries Value} {logs : List NodeLog}
  {log new : NodeLog}

theorem unnamed_eq_ok {keys : List String} (h : ∀ key ∈ keys, fields.has key = false) :
    unnamed keys fields = .ok () := by
  have hnone : keys.find? fields.has = none :=
    List.find?_eq_none.2 fun key hkey => Bool.not_eq_true _ ▸ h key hkey
  rw [unnamed, hnone]

theorem has_of_unnamed {keys : List String} (h : unnamed keys fields = .ok ()) {key : String} (hkey : key ∈ keys) :
    fields.has key = false := by
  unfold unnamed at h
  split at h
  · next hnone => exact Bool.not_eq_true _ ▸ List.find?_eq_none.1 hnone key hkey
  · cases h

namespace NodeLogs

theorem eq_ok_of_appended {v rows : Value} (h : appended execution fields now v = .ok (log, rows)) :
    ∃ items, v = .list items ∧ unnamed ["id"] fields = .ok () ∧
      NodeLog.load now (.map ([("id", .int (items.length + 1)), ("execution_id", .str execution)] ++ fields)) = .ok log ∧
      rows = .list (items ++ [log.toValue]) := by
  obtain ⟨count, hcount, h₁⟩ := exists_of_bind h
  obtain ⟨_, hid, h₂⟩ := exists_of_bind h₁
  obtain ⟨row, hload, h₃⟩ := exists_of_bind h₂
  obtain ⟨more, hmore, hpair⟩ := exists_of_bind h₃
  obtain ⟨rfl, rfl⟩ := Prod.mk.inj (Except.ok.inj hpair)
  cases v with
  | list items =>
    obtain rfl := Except.ok.inj hcount
    exact ⟨items, rfl, hid, hload, (Except.ok.inj hmore).symm⟩
  | null | bool | num | str | map => cases hmore

/-- An append adds one row to a list, or nothing that lasts is changed. -/
theorem append_cases (execution : String) (fields : Entries Value) (w : World) :
    (∃ log rows w', run (append execution fields) w = (.ok log, w') ∧
      unnamed ["self", "execution_id"] fields = .ok () ∧ unnamed ["id"] fields = .ok () ∧
      w.storage.read (place execution) (.list []) = .ok (.list rows) ∧
      NodeLog.load w.clock.stamp
        (.map ([("id", .int (rows.length + 1)), ("execution_id", .str execution)] ++ fields)) = .ok log ∧
      Wrote (place execution) (.list (rows ++ [log.toValue])) w w') ∨
    ∃ fault w', run (append execution fields) w = (.error fault, w') ∧ Quiet w w' := by
  rw [append_eq]
  rcases guarded_cases .appendNodeLog ["self", "execution_id"] fields execution (appended execution fields) w with
    ⟨log, _, v, w', hr, hn, hv, hedited, hw⟩ | hfault
  · obtain ⟨rows, rfl, hid, hload, rfl⟩ := eq_ok_of_appended hedited
    exact .inl ⟨log, rows, w', hr, hn, hid, hv, hload, hw⟩
  · exact .inr hfault

/-- A row is passed over if its number is another. -/
theorem passed_toValue (h : (Value.int log.id).same id = false) : Passed id log.toValue :=
  ⟨log.entries, rfl, h⟩

/-- The row that is changed among the rows of a log. -/
theorem rows_of_change {changed : List Value}
    (h : change now id fields (logs.map NodeLog.toValue) = .ok (some (changed, new))) :
    ∃ init old rest, logs = init ++ old :: rest ∧
      NodeLog.load now (.map (Entries.merge old.entries fields)) = .ok new ∧
      changed = (init ++ new :: rest).map NodeLog.toValue := by
  obtain ⟨before, entries, after, hrows, -, -, hload, rfl⟩ := change_eq_some_iff.1 h
  obtain ⟨init, more, rfl, rfl, hmore⟩ := List.map_eq_append_iff.1 hrows
  obtain ⟨old, rest, rfl, hold, rfl⟩ := List.map_eq_cons_iff.1 hmore
  obtain rfl : old.entries = entries := Value.map.inj hold
  exact ⟨init, old, rest, rfl, hload, by rw [List.map_append, List.map_cons]⟩

/-- Rows that are numbered by their places are found by their numbers. -/
theorem change_counted (hc : Counted logs) {k : Nat} (hk : k < logs.length)
    (hl : NodeLog.load now (.map (Entries.merge logs[k].entries fields)) = .ok new) :
    change now (.int (k + 1)) fields (logs.map NodeLog.toValue) =
      .ok (some ((logs.set k new).map NodeLog.toValue, new)) := by
  have hsplit : logs = logs.take k ++ logs[k] :: logs.drop (k + 1) := by
    rw [← List.drop_eq_getElem_cons hk, List.take_append_drop]
  refine change_eq_some_iff.2 ⟨(logs.take k).map NodeLog.toValue, logs[k].entries,
    (logs.drop (k + 1)).map NodeLog.toValue, ?_, ?_, ?_, hl, ?_⟩
  · exact (congrArg (List.map NodeLog.toValue) hsplit).trans List.map_append
  · intro row hrow
    obtain ⟨log, hlog, rfl⟩ := List.mem_map.1 hrow
    obtain ⟨i, hi, rfl⟩ := List.mem_take_iff_getElem.1 hlog
    exact passed_toValue (by rw [Value.same_int, beq_eq_false_iff_ne, hc i (by omega)]; omega)
  · show (Value.int logs[k].id).same (.int (k + 1)) = true
    rw [hc k hk, Value.same_int, beq_self_eq_true]
  · rw [List.set_eq_take_append_cons_drop, if_pos hk, List.map_append, List.map_cons]

/-- A number that is no place is none of the rows. -/
theorem change_absent (now : String) (fields : Entries Value) {i : Int} (hc : Counted logs)
    (hi : i < 1 ∨ logs.length < i) : change now (.int i) fields (logs.map NodeLog.toValue) = .ok none := by
  refine change_of_passed fun row hrow => ?_
  obtain ⟨log, hlog, rfl⟩ := List.mem_map.1 hrow
  have hid := hc.id_of_mem hlog
  exact passed_toValue (by rw [Value.same_int, beq_eq_false_iff_ne]; omega)

theorem updated_of_change (execution : String) {rows changed : List Value}
    (h : change now id fields rows = .ok (some (changed, new))) :
    updated execution id fields now (.list rows) = .ok (new, .list changed) := by
  rw [updated, Value.members_list]
  show (change now id fields rows >>= _) = _
  rw [h]
  rfl

theorem updated_of_absent (execution : String) {rows : List Value} (h : change now id fields rows = .ok none) :
    updated execution id fields now (.list rows) = .error (.notFound "NodeLog" (execution ++ "#" ++ id.display)) := by
  rw [updated, Value.members_list]
  show (change now id fields rows >>= _) = _
  rw [h]
  rfl

end NodeLogs

end Store

/-! ## Calls one after the other -/

/-- A call that appends a row to the log of an execution, or updates a row. -/
inductive LogCall where
  | append (execution : String) (fields : Entries Value)
  | update (execution : String) (id : Value) (fields : Entries Value)

namespace LogCall

def perform : LogCall → Engine NodeLog
  | append execution fields => Store.NodeLogs.append execution fields
  | update execution id fields => Store.NodeLogs.update execution id fields

def execution : LogCall → String
  | append execution _ => execution
  | update execution _ _ => execution

def fields : LogCall → Entries Value
  | append _ fields => fields
  | update _ _ fields => fields

/-- Whether a call adds a row to the log of an execution if it returns. -/
def adds (execution : String) : LogCall → Bool
  | append other _ => other == execution
  | update .. => false

/-- Whether fields are given once each, and the number of the row is not. -/
structure Unnumbered (fields : Entries Value) : Prop where
  once : fields.keys.Nodup
  free : fields.has "id" = false

/-- Whether a call is for an execution whose id is its own file name, and leaves the numbers to the log. -/
structure Proper (call : LogCall) : Prop where
  safe : IsSafeText call.execution
  unnumbered : Unnumbered call.fields

/-- Makes calls one after the other, each so many ticks after the last one: what came of each, and the world in the
end. -/
def run : List (Int × LogCall) → World → List (LogCall × Except Fault NodeLog) × World
  | [], w => ([], w)
  | (ticks, call) :: rest, w =>
    let (result, w) := Engine.run call.perform { w with clock := w.clock.advance ticks }
    let (outcomes, w) := run rest w
    ((call, result) :: outcomes, w)

/-- How many rows were appended to the log of an execution. -/
def appended (execution : String) (outcomes : List (LogCall × Except Fault NodeLog)) : Nat :=
  outcomes.countP fun outcome => outcome.1.adds execution && outcome.2.isOk

variable {w : World} {logs : List NodeLog} {call : LogCall}

/-- A call leaves rows that are numbered by their places, or nothing that lasts is changed. -/
theorem perform_cases (hn : Unnumbered call.fields) (hl : HasLogs w.storage call.execution logs) (hc : Counted logs) :
    (∃ log others w', Engine.run call.perform w = (.ok log, w') ∧ Counted others ∧
      others.length = logs.length + (if call.adds call.execution then 1 else 0) ∧
      Wrote (Store.NodeLogs.place call.execution) (.list (others.map NodeLog.toValue)) w w') ∨
    ∃ fault w', Engine.run call.perform w = (.error fault, w') ∧ Quiet w w' := by
  have hrows {rows : List Value}
      (h : w.storage.read (Store.NodeLogs.place call.execution) (.list []) = .ok (.list rows)) :
      logs.map NodeLog.toValue = rows :=
    Value.list.inj (Except.ok.inj (hl.symm.trans h))
  cases call with
  | append execution fields =>
    refine (Store.NodeLogs.append_cases execution fields w).imp_left ?_
    rintro ⟨log, rows, w', hr, -, -, hread, hload, hw⟩
    obtain rfl := hrows hread
    have hid : log.id = logs.length + 1 := by
      rw [(NodeLog.own_of_load hload).1, List.length_map]
    refine ⟨log, logs ++ [log], w', hr, hc.append hid, ?_, ?_⟩
    · simp [adds, LogCall.execution]
    · rw [List.map_append]
      exact hw
  | update execution id fields =>
    refine (Store.NodeLogs.update_cases execution id fields w).imp_left ?_
    rintro ⟨new, rows, changed, w', hr, hread, hchange, hw⟩
    obtain rfl := hrows hread
    obtain ⟨init, old, rest, rfl, hload, rfl⟩ := Store.NodeLogs.rows_of_change hchange
    have hid := ((NodeLog.load_merged hn.once _ old).2 new hload).2.id_eq hn.free
    refine ⟨new, init ++ new :: rest, w', hr, hc.of_ids ?_, ?_, hw⟩
    · rw [List.map_append, List.map_append, List.map_cons, List.map_cons, hid]
    · simp [adds]

/-- Whether the log of each execution has so many rows, numbered by their places. Where it has any it can be written. -/
def Tallied (s : Storage) (count : String → Nat) : Prop :=
  ∀ execution, IsSafeText execution → ∃ logs, HasLogs s execution logs ∧ Counted logs ∧ logs.length = count execution ∧
    (logs ≠ [] → (Store.NodeLogs.place execution).Fits)

variable {count : String → Nat}

theorem tallied_zero (h : ∀ execution, w.storage.find? (Store.NodeLogs.place execution) = none) :
    Tallied w.storage fun _ => 0 := by
  intro execution _
  refine ⟨[], ?_, counted_nil, rfl, fun hne => absurd rfl hne⟩
  rw [HasLogs, Storage.read, h execution]
  rfl

/-- A call adds one to the rows of its execution, if it appends and returns, and to no others. -/
theorem Tallied.step (h : Tallied w.storage count) (hp : call.Proper) {result : Except Fault NodeLog} {u : World}
    (hr : Engine.run call.perform w = (result, u)) :
    Tallied u.storage fun execution => count execution + if call.adds execution && result.isOk then 1 else 0 := by
  obtain ⟨logs, hlogs, hcounted, hlength, -⟩ := h call.execution hp.safe
  intro execution hsafe
  rcases perform_cases hp.unnumbered hlogs hcounted with
    ⟨log, others, w', hdone, hothers, hmore, hw⟩ | ⟨fault, w', hfault, hq⟩
  · obtain ⟨rfl, rfl⟩ := Prod.mk.inj (hdone.symm.trans hr)
    by_cases he : call.execution = execution
    · subst he
      refine ⟨others, hw.read_self, hothers, ?_, fun _ => hw.fits⟩
      rw [hmore, hlength]
      simp [Except.isOk, Except.toBool]
    · have hadds : call.adds execution = false := by
        cases call with
        | append other fields => exact beq_eq_false_iff_ne.2 he
        | update => rfl
      obtain ⟨kept, hkept, hc, hlen, hfits⟩ := h execution hsafe
      refine ⟨kept, (hw.read_ne (hsafe.path_ne hp.safe (Ne.symm he) _ _)).trans hkept, hc, ?_, hfits⟩
      simpa [hadds] using hlen
  · obtain ⟨rfl, rfl⟩ := Prod.mk.inj (hfault.symm.trans hr)
    rw [hq.storage]
    simpa [Except.isOk, Except.toBool] using h execution hsafe

/-- Whatever is called, the rows are numbered by their places, and there are as many as were appended. -/
theorem Tallied.run (h : Tallied w.storage count) {calls : List (Int × LogCall)} (hp : ∀ call ∈ calls, call.2.Proper) :
    Tallied (LogCall.run calls w).2.storage fun execution =>
      count execution + appended execution (LogCall.run calls w).1 := by
  induction calls generalizing w count with
  | nil => exact h
  | cons call rest ih =>
    obtain ⟨ticks, call⟩ := call
    rcases hr : Engine.run call.perform { w with clock := w.clock.advance ticks } with ⟨result, u⟩
    have hu := Tallied.step (w := { w with clock := w.clock.advance ticks }) h (hp _ List.mem_cons_self) hr
    have hrest := ih hu fun call hcall => hp call (List.mem_cons_of_mem _ hcall)
    have hrun : LogCall.run ((ticks, call) :: rest) w =
        ((call, result) :: (LogCall.run rest u).1, (LogCall.run rest u).2) := by
      simp only [LogCall.run, hr]
    rw [hrun]
    intro execution hsafe
    obtain ⟨logs, hlogs, hc, hlength, hfits⟩ := hrest execution hsafe
    refine ⟨logs, hlogs, hc, ?_, hfits⟩
    simp only [hlength, appended, List.countP_cons]
    omega

/-- A call that raises has changed nothing that lasts. -/
theorem quiet_of_error {fault : Fault} {u : World} (hr : Engine.run call.perform w = (.error fault, u)) : Quiet w u := by
  have hcases : (∃ log w', Engine.run call.perform w = (.ok log, w')) ∨
      ∃ fault w', Engine.run call.perform w = (.error fault, w') ∧ Quiet w w' := by
    cases call with
    | append execution fields =>
      exact (Store.NodeLogs.append_cases execution fields w).imp_left fun ⟨log, _, w', hr, _⟩ => ⟨log, w', hr⟩
    | update execution id fields =>
      exact (Store.NodeLogs.update_cases execution id fields w).imp_left fun ⟨log, _, _, w', hr, _⟩ => ⟨log, w', hr⟩
  rcases hcases with ⟨log, w', hdone⟩ | ⟨fault, w', hfault, hq⟩
  · cases hdone.symm.trans hr
  · obtain ⟨-, rfl⟩ := Prod.mk.inj (hfault.symm.trans hr)
    exact hq

/-! ## The next call -/

/-- What comes of a next call with the given fields for an execution whose log has these rows. -/
structure Next (w : World) (execution : String) (logs : List NodeLog) (fields : Entries Value) : Prop where
  /-- Fields that suffice make a row behind the others. -/
  appended : w.Steady → (Store.NodeLogs.place execution).Fits →
    (∀ key ∈ ["self", "execution_id"], fields.has key = false) → NodeLog.Sufficient fields →
      ∃ log u, Engine.run (Store.NodeLogs.append execution fields) w = (.ok log, u) ∧
        HasLogs u.storage execution (logs ++ [log])
  /-- Fields that fit are written to the row of the number, and to no other, nor to another file. -/
  revised : w.Steady → (∀ key ∈ ["self", "execution_id", "log_id"], fields.has key = false) → NodeLog.Fitting fields →
    ∀ k (hk : k < logs.length), ∃ new u,
      Engine.run (Store.NodeLogs.update execution (.int (k + 1)) fields) w = (.ok new, u) ∧
        NodeLog.Revised fields logs[k] new ∧ HasLogs u.storage execution (logs.set k new) ∧
        ∀ place : Location, place.path ≠ (Store.NodeLogs.place execution).path →
          u.storage.find? place = w.storage.find? place
  /-- Another number is not found. -/
  absent : w.Steady → (∀ key ∈ ["self", "execution_id", "log_id"], fields.has key = false) →
    ∀ i : Int, i < 1 ∨ logs.length < i →
      Engine.run (Store.NodeLogs.update execution (.int i) fields) w =
        (.error (.notFound "NodeLog" (execution ++ "#" ++ (Value.int i).display)), w)
  /-- Fields that do not fit are refused. -/
  misfit : ¬NodeLog.Fitting fields → ∀ id, ∃ fault u,
    Engine.run (Store.NodeLogs.update execution id fields) w = (.error fault, u) ∧ u.storage = w.storage
  /-- Fields that do not make a row are refused. -/
  insufficient : ¬NodeLog.Sufficient fields → ∃ fault u,
    Engine.run (Store.NodeLogs.append execution fields) w = (.error fault, u) ∧ u.storage = w.storage

variable {execution : String} {fields : Entries Value}

theorem next (hn : Unnumbered fields) (hl : HasLogs w.storage execution logs) (hc : Counted logs)
    (hf : logs ≠ [] → (Store.NodeLogs.place execution).Fits) : Next w execution logs fields where
  appended hs hfits hkeys hfields := by
    have hexecution : fields.has "execution_id" = false := hkeys "execution_id" (by simp)
    have hid : Store.unnamed ["id"] fields = .ok () := Store.unnamed_eq_ok (List.forall_mem_singleton.2 hn.free)
    obtain ⟨log, hload⟩ :=
      (NodeLog.exists_load_own_iff execution (logs.length + 1) hn.free hexecution).2 hfields
    have hp := Store.NodeLogs.append_posted hl (Store.unnamed_eq_ok hkeys) hid hload
    rcases hr : Engine.run (Store.NodeLogs.append execution fields) w with ⟨result, u⟩
    rw [hr] at hp
    cases hp with
    | done hw => exact ⟨log, u, rfl, hw.read_self⟩
    | unheard hno _ => exact absurd trivial hno
    | lost hno _ => exact absurd ⟨hs, hfits⟩ hno
  revised hs hkeys hfields k hk := by
    obtain ⟨hfit, hrevised⟩ := NodeLog.load_merged hn.once w.clock.stamp logs[k]
    obtain ⟨new, hload⟩ := hfit hfields
    have hupdated := Store.NodeLogs.updated_of_change execution (Store.NodeLogs.change_counted hc hk hload)
    have hfits := hf (List.ne_nil_of_length_pos (Nat.zero_lt_of_lt hk))
    obtain ⟨u, hr, hw⟩ := Store.NodeLogs.run_guarded hs (Store.unnamed_eq_ok hkeys) hl hupdated hfits
    refine ⟨new, u, ?_, (hrevised new hload).2, hw.read_self, fun place hne => hw.find?_ne hne⟩
    rw [Store.NodeLogs.update_eq]
    exact hr
  absent hs hkeys i hi := by
    have hupdated := Store.NodeLogs.updated_of_absent execution
      (Store.NodeLogs.change_absent w.clock.stamp fields hc hi)
    rw [Store.NodeLogs.update_eq]
    exact Store.NodeLogs.run_guarded_error hs (Store.unnamed_eq_ok hkeys) hl hupdated
  misfit hfields id := by
    rcases Store.NodeLogs.update_cases execution id fields w with
      ⟨new, rows, changed, u, -, hread, hchange, -⟩ | ⟨fault, u, hr, hq⟩
    · obtain rfl := Value.list.inj (Except.ok.inj (hl.symm.trans hread))
      obtain ⟨_, old, _, -, hload, -⟩ := Store.NodeLogs.rows_of_change hchange
      exact absurd ((NodeLog.load_merged hn.once _ old).2 new hload).1 hfields
    · exact ⟨fault, u, hr, hq.storage⟩
  insufficient hfields := by
    rcases Store.NodeLogs.append_cases execution fields w with
      ⟨log, rows, u, -, hkeys, -, -, hload, -⟩ | ⟨fault, u, hr, hq⟩
    · have hexecution : fields.has "execution_id" = false := Store.has_of_unnamed hkeys (by simp)
      exact absurd ((NodeLog.exists_load_own_iff execution _ hn.free hexecution).1 ⟨log, hload⟩) hfields
    · exact ⟨fault, u, hr, hq.storage⟩

end LogCall

namespace Sample

def started : Entries Value :=
  [("node_id", .str "n"), ("node_type", .str "action")]

/-- There is no such status. -/
def unknown : Entries Value :=
  [("node_id", .str "n"), ("node_type", .str "action"), ("status", .str "done")]

/-- Two rows are appended to one log, and one to another. An append without a node is refused, and so is an update of a
number that is not there yet; the first row is updated. -/
def logCalls : List (Int × LogCall) :=
  [(0, .append "a.b" started), (7, .append "c" started), (0, .append "a.b" [("status", .str "running")]),
    (2, .update "a.b" (.int 2) [("output_data", .int 1)]), (3, .append "a.b" started),
    (1, .update "a.b" (.int 1) [("status", .str "success")])]

end Sample

end WorkGraph
