import WorkGraph.Proofs.Cycle
import WorkGraph.Proofs.Evaluation

/-!
# Loose equality

Equality by content does not depend on the order of its sides, and what can be written as a document is the same as
itself (`Value.Proper.same_comm`, `Value.Proper.same_self`); maps are compared entry by entry from one side only, which
is enough as their keys are distinct (`Value.sameEntries_symm`). Loose equality tries its cases in a fixed order, and
each of them asks the same of both sides, so that it inherits both laws, except that what has no double is not even
comparable with itself (`Condition.loose_equality`). A text can be such a thing (`Condition.text_unlike_itself`).
-/

namespace WorkGraph

namespace Value

/-- What can be written as a document: it has no number that is none, and no map has a key twice. -/
inductive Proper : Value → Prop where
  | null : Proper null
  | bool (b : Bool) : Proper (bool b)
  | num {n : Number} (h : n ≠ .float .nan) : Proper (num n)
  | str (s : String) : Proper (str s)
  | list {items : List Value} (h : ∀ item ∈ items, Proper item) : Proper (list items)
  | map {entries : List (String × Value)} (hkeys : (Entries.keys entries).Nodup) (h : ∀ entry ∈ entries, Proper entry.2) :
      Proper (map entries)

/-- What null is like. -/
inductive Vacant : Value → Prop where
  | null : Vacant null
  | no : Vacant (bool false)
  | zero : Vacant (int 0)
  | float (negative : Bool) : Vacant (num (.float (.zero negative)))
  | text : Vacant (str "")
  | list : Vacant (list [])
  | map : Vacant (map [])

variable {v w : Value}

/-! ## Equality by content -/

theorem sameEntries_iff {xs ys : List (String × Value)} :
    sameEntries xs ys = true ↔ ∀ k x, (k, x) ∈ xs → ∃ y, Entries.get? ys k = some y ∧ same x y = true := by
  induction xs with
  | nil => simp [sameEntries]
  | cons entry rest ih =>
    obtain ⟨k, x⟩ := entry
    rw [sameEntries, Bool.and_eq_true, ih]
    constructor
    · rintro ⟨hfirst, hrest⟩ key value hm
      rcases List.mem_cons.1 hm with he | hm
      · obtain ⟨rfl, rfl⟩ := Prod.mk.inj he
        cases hy : Entries.get? ys key with
        | none => rw [hy] at hfirst; cases hfirst
        | some y => rw [hy] at hfirst; exact ⟨y, rfl, hfirst⟩
      · exact hrest key value hm
    · intro h
      obtain ⟨y, hy, hsame⟩ := h k x List.mem_cons_self
      exact ⟨by rw [hy]; exact hsame, fun key value hm => h key value (List.mem_cons_of_mem _ hm)⟩

/-- Of two maps with as many keys, the second has no key that the first has not, if each entry of the first has its like
in the second. -/
theorem sameEntries_symm {xs ys : List (String × Value)} (hxs : (Entries.keys xs).Nodup) (hys : (Entries.keys ys).Nodup)
    (hlength : ys.length ≤ xs.length) (hcomm : ∀ x ∈ xs, ∀ y ∈ ys, same x.2 y.2 = same y.2 x.2)
    (h : sameEntries xs ys = true) : sameEntries ys xs = true := by
  rw [sameEntries_iff] at h ⊢
  have hsub : Entries.keys xs ⊆ Entries.keys ys := by
    intro key hkey
    obtain ⟨⟨k, x⟩, hm, rfl⟩ := List.mem_map.1 hkey
    obtain ⟨y, hy, -⟩ := h k x hm
    exact Entries.mem_keys_iff_get?.2 (Option.isSome_iff_exists.2 ⟨y, hy⟩)
  have hperm : (Entries.keys xs).Perm (Entries.keys ys) :=
    (hxs.subperm hsub).perm_of_length_le (by simpa [Entries.keys] using hlength)
  intro key y hm
  have hkey : key ∈ Entries.keys xs := hperm.mem_iff.2 (List.mem_map_of_mem hm)
  obtain ⟨x, hx⟩ := Option.isSome_iff_exists.1 (Entries.mem_keys_iff_get?.1 hkey)
  have hmx := Entries.mem_of_get? hx
  obtain ⟨other, hother, hsame⟩ := h key x hmx
  rw [Entries.get?_of_mem hys hm] at hother
  obtain rfl := Option.some.inj hother
  exact ⟨x, hx, by rw [← hcomm (key, x) hmx (key, y) hm]; exact hsame⟩

theorem sameItems_comm {xs ys : List Value} (hcomm : ∀ x ∈ xs, ∀ y ∈ ys, same x y = same y x) :
    sameItems xs ys = sameItems ys xs := by
  induction xs generalizing ys with
  | nil => cases ys <;> rfl
  | cons x xs ih =>
    cases ys with
    | nil => rfl
    | cons y ys =>
      rw [sameItems, sameItems, hcomm x List.mem_cons_self y List.mem_cons_self,
        ih fun x hx y hy => hcomm x (List.mem_cons_of_mem _ hx) y (List.mem_cons_of_mem _ hy)]

theorem sameItems_self {items : List Value} (h : ∀ item ∈ items, same item item = true) :
    sameItems items items = true := by
  induction items with
  | nil => rfl
  | cons item rest ih =>
    rw [sameItems, h item List.mem_cons_self, Bool.true_and]
    exact ih fun other hm => h other (List.mem_cons_of_mem _ hm)

theorem Proper.same_comm (hv : v.Proper) (hw : w.Proper) : v.same w = w.same v := by
  induction hv generalizing w with
  | null => cases hw <;> simp [same, isNull, asNumber?]
  | bool b => cases hw <;> simp [same, isNull, asNumber?, Number.same_comm]
  | num => cases hw <;> simp [same, isNull, asNumber?, Number.same_comm]
  | str s => cases hw <;> simp [same, isNull, asNumber?, Bool.beq_comm]
  | @list items hitems ih =>
    cases hw with
    | null | bool | num | str | map => simp [same, isNull, asNumber?]
    | list hothers =>
      rw [same, same]
      exact sameItems_comm fun x hx y hy => ih x hx (hothers y hy)
  | @map entries hkeys hentries ih =>
    cases hw with
    | null | bool | num | str | list => simp [same, isNull, asNumber?]
    | @map others hkeys' hothers =>
      have hcomm : ∀ x ∈ entries, ∀ y ∈ others, same x.2 y.2 = same y.2 x.2 := fun x hx y hy => ih x hx (hothers y hy)
      rw [same, same, Bool.eq_iff_iff, Bool.and_eq_true, Bool.and_eq_true, beq_iff_eq, beq_iff_eq]
      constructor
      · rintro ⟨hlength, h⟩
        exact ⟨hlength.symm, sameEntries_symm hkeys hkeys' hlength.ge hcomm h⟩
      · rintro ⟨hlength, h⟩
        exact ⟨hlength.symm, sameEntries_symm hkeys' hkeys hlength.ge (fun y hy x hx => (hcomm x hx y hy).symm) h⟩

theorem Proper.same_self (hv : v.Proper) : v.same v = true := by
  induction hv with
  | null => rfl
  | bool b => simp [same, asNumber?]
  | num h => simpa [same, asNumber?] using Number.same_self h
  | str s => simp
  | list _ ih =>
    rw [same]
    exact sameItems_self ih
  | @map entries hkeys _ ih =>
    rw [same, beq_self_eq_true, Bool.true_and, sameEntries_iff]
    exact fun k x hm => ⟨x, Entries.get?_of_mem hkeys hm, ih (k, x) hm⟩

/-! ## Loose equality -/

theorem equalsNull_iff : w.equalsNull = true ↔ w.Vacant := by
  constructor
  · intro h
    cases w with
    | null => exact .null
    | bool b =>
      obtain rfl : b = false := by simpa [equalsNull] using h
      exact .no
    | num n =>
      cases n with
      | int n =>
        obtain rfl : n = 0 := by simpa [equalsNull, Number.isZero] using h
        exact .zero
      | float x =>
        cases x with
        | nan => cases h
        | ranked negative rank hrank =>
          obtain rfl : rank = 0 := by cases negative <;> simpa [equalsNull, Number.isZero, Double.place?] using h
          exact .float negative
    | str s =>
      obtain rfl : s = "" := by simpa [equalsNull] using h
      exact .text
    | list items =>
      obtain rfl : items = [] := by simpa [equalsNull] using h
      exact .list
    | map entries =>
      obtain rfl : entries = [] := by simpa [equalsNull] using h
      exact .map
  · intro h
    cases h with
    | null | no | zero | text | list | map => rfl
    | float negative => cases negative <;> rfl

@[simp] theorem looseEquals_null_left (w : Value) : null.looseEquals w = .ok w.equalsNull := rfl

@[simp] theorem looseEquals_null_right (v : Value) : v.looseEquals null = .ok v.equalsNull := by
  cases v <;> rfl

/-- No number of a document, and none that a text writes, has a double that is none. -/
theorem Proper.ne_nan (hv : v.Proper) {x : Double} (hx : v.real = .ok x) : x ≠ .nan := by
  cases hv with
  | @num n hn =>
    cases n with
    | float y =>
      obtain rfl := Except.ok.inj hx
      exact fun h => hn (congrArg Number.float h)
    | int n =>
      rw [real, Number.toDouble?, Number.doubleOfInt?] at hx
      split at hx
      · obtain rfl := Except.ok.inj hx
        exact Double.noConfusion
      · cases hx
  | null | bool | str | list | map =>
    simp only [real] at hx
    split at hx
    · cases hx
    · split at hx
      · cases hx
      · obtain rfl := Except.ok.inj hx
        exact Double.ofDecimal_ne_nan _ _ _

/-- Loose equality asks the same of both sides. -/
theorem Proper.looseEquals_comm (hv : v.Proper) (hw : w.Proper) :
    (v.looseEquals w).toOption = (w.looseEquals v).toOption := by
  by_cases hvn : v = .null
  · rw [hvn, looseEquals_null_left, looseEquals_null_right]
  by_cases hwn : w = .null
  · rw [hwn, looseEquals_null_left, looseEquals_null_right]
  rw [looseEquals_of_not_null hvn hwn, looseEquals_of_not_null hwn hvn, Bool.or_comm w.isBool,
    Bool.and_comm w.isNumeric, Bool.or_comm w.isCollection]
  split
  · rw [Bool.beq_comm]
  split
  · cases v.real with
    | error => cases w.real <;> rfl
    | ok x =>
      cases w.real with
      | error => rfl
      | ok y => exact congrArg some (Double.same_comm x y)
  split
  · rw [hv.same_comm hw]
  · rw [Bool.beq_comm]

/-- What has a double, or needs none, is like itself. -/
theorem Proper.looseEquals_self (hv : v.Proper) (h : ¬v.Unreal) : v.looseEquals v = .ok true := by
  by_cases hvn : v = .null
  · rw [hvn]
    rfl
  rw [looseEquals_of_not_null hvn hvn, Bool.or_self, Bool.and_self, Bool.or_self]
  split
  · rw [beq_self_eq_true]
  split
  · next hn =>
    obtain ⟨x, hx⟩ := exists_real hn h
    rw [hx]
    exact congrArg Except.ok ((Double.same_self x).2 (hv.ne_nan hx))
  split
  · rw [hv.same_self]
  · rw [beq_self_eq_true]

theorem Unreal.looseEquals_self (h : v.Unreal) : ∃ fault, v.looseEquals v = .error fault ∧ Refusal fault :=
  (compared_looseEquals v v).2 ⟨h.isNumeric, h.isNumeric, .inl h⟩

end Value

namespace Condition

variable {s : Scope} {node : String}

/-! ## Opposite operators -/

/-- A condition with another operator. -/
def withOperator (config : Entries Value) (op : Operator) : Entries Value :=
  config.set "operator" (.str op.name)

theorem named_withOperator (config : Entries Value) (op : Operator) : named (withOperator config op) = .str op.name := by
  unfold named withOperator Value.field
  rw [Entries.get?_set_self]
  cases op <;> rfl

theorem asked_withOperator (config : Entries Value) (op : Operator) : asked (withOperator config op) = asked config := by
  rw [asked, withOperator, Entries.get?_set_ne _ _ (by decide), asked]

theorem fixed_withOperator (config : Entries Value) (op : Operator) : fixed (withOperator config op) = fixed config := by
  rw [fixed, withOperator, Entries.get?_set_ne _ _ (by decide), fixed]

/-- Two conditions that differ in their operators fail alike or have opposite results. -/
def Opposite (config : Entries Value) (op other : Operator) (out counter : Except Fault Value) : Prop :=
  (∃ fault, out = .error fault ∧ counter = .error fault) ∨
    ∃ v result, out = .ok (outcome config op v result) ∧ counter = .ok (outcome config other v !result)

/-- What a condition puts out with another operator. -/
theorem evaluate_withOperator (config : Entries Value) (op : Operator) {v : Value}
    (hv : Template.evaluate s (asked config) = .ok v) :
    evaluate (withOperator config op) s node = outcome config op v <$> op.holds v (fixed config) := by
  have houtcome : outcome (withOperator config op) op v = outcome config op v := by
    funext result
    rw [outcome, asked_withOperator, fixed_withOperator, outcome]
  rw [evaluate_of_operator (named_withOperator config op) ((asked_withOperator config op).symm ▸ hv), houtcome,
    fixed_withOperator]

theorem opposite_equals (config : Entries Value) (s : Scope) (node : String) :
    Opposite config .equals .notEquals (evaluate (withOperator config .equals) s node)
      (evaluate (withOperator config .notEquals) s node) := by
  cases hv : Template.evaluate s (asked config) with
  | error fault =>
    have hfault : ∀ op, evaluate (withOperator config op) s node = .error fault := fun op =>
      evaluate_of_field (named_withOperator config op) ((asked_withOperator config op).symm ▸ hv)
    exact .inl ⟨fault, hfault .equals, hfault .notEquals⟩
  | ok v =>
    rw [evaluate_withOperator config .equals hv, evaluate_withOperator config .notEquals hv, Operator.holds,
      Operator.holds]
    cases v.looseEquals (fixed config) with
    | error fault => exact .inl ⟨fault, rfl, rfl⟩
    | ok result => exact .inr ⟨v, result, rfl, rfl⟩

/-- The laws of loose equality: its outcome does not depend on the order of its sides, everything is like itself but
what counts as a number and has no double, null is like what is vacant, and a condition that asks for its opposite has
the opposite result. -/
theorem loose_equality {v w : Value} (hv : v.Proper) (hw : w.Proper) (config : Entries Value) (s : Scope)
    (node : String) :
    (v.looseEquals w).toOption = (w.looseEquals v).toOption ∧
      (¬v.Unreal → v.looseEquals v = .ok true) ∧
      (v.Unreal → ∃ fault, v.looseEquals v = .error fault ∧ Value.Refusal fault) ∧
      (∃ result, Value.null.looseEquals w = .ok result ∧ w.looseEquals .null = .ok result ∧
        (result = true ↔ w.Vacant)) ∧
      Opposite config .equals .notEquals (evaluate (withOperator config .equals) s node)
        (evaluate (withOperator config .notEquals) s node) :=
  ⟨hv.looseEquals_comm hw, hv.looseEquals_self, Value.Unreal.looseEquals_self,
    ⟨w.equalsNull, Value.looseEquals_null_left w, Value.looseEquals_null_right w, Value.equalsNull_iff⟩,
    opposite_equals config s node⟩

/-- A list with a truth value and one with a number, both of which are the same. -/
theorem loose_equality_sample :
    (Value.list [.bool true]).Proper ∧ (Value.list [.int 1]).Proper ∧
      ((Value.list [.bool true]).looseEquals (.list [.int 1])).toOption =
        ((Value.list [.int 1]).looseEquals (.list [.bool true])).toOption ∧
      (Value.list [.bool true]).looseEquals (.list [.bool true]) = .ok true := by
  have hv : (Value.list [.bool true]).Proper := .list (by simpa using .bool true)
  have hw : (Value.list [.int 1]).Proper := .list (by simpa using .num Number.noConfusion)
  obtain ⟨hcomm, hself, -⟩ := loose_equality hv hw [] (.live (.start .null)) ""
  exact ⟨hv, hw, hcomm, hself (by rintro ⟨⟩)⟩

/-- Not only integers are unlike themselves: a text is that counts as a number and has no double. -/
theorem text_unlike_itself :
    ∃ fault, (Value.str "\x1c5").looseEquals (.str "\x1c5") = .error fault ∧ Value.Refusal fault :=
  Value.Unreal.looseEquals_self (.separated (by decide +kernel) (by decide +kernel))

end Condition

end WorkGraph
