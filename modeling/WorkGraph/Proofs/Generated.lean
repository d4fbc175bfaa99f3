import Mathlib.Algebra.Group.Nat.Defs
import WorkGraph.Proofs.Writes

/-!
# The form of generated ids

An execution id is written with a day and a time in decimal digits, and with a number in eight hexadecimal digits. So all
ids are of one form, as long as years have four digits and numbers eight (`isGenerated_nextExecution`). Ids of this form are
of one length, and no character of theirs is replaced in a file name, so that the record of each can be written
(`IsGenerated.fits`), and those of two are in the order of the ids (`IsGenerated.lt_of_file_lt`).
-/

namespace WorkGraph

/-! ## Forms of texts -/

namespace Text

/-- Whether a character is a hexadecimal digit, in lower case. -/
def isHexDigit (c : Char) : Bool :=
  c.isDigit || (decide ('a' ≤ c) && decide (c ≤ 'f'))

/-- Whether a text has one character of each of the classes, in their order. -/
def isOfForm : (form : List (Char → Bool)) → List Char → Bool
  | [], [] => true
  | isIn :: form, c :: cs => isIn c && isOfForm form cs
  | _, _ => false

/-- The form of a text that is given. -/
def literally (s : String) : List (Char → Bool) :=
  s.toList.map fun c d => d == c

variable {form other : List (Char → Bool)} {cs ds : List Char}

theorem isOfForm_append (h : isOfForm form cs = true) (k : isOfForm other ds = true) :
    isOfForm (form ++ other) (cs ++ ds) = true := by
  induction form generalizing cs with
  | nil => cases cs with
    | nil => exact k
    | cons => cases h
  | cons isIn form ih => cases cs with
    | nil => cases h
    | cons c cs =>
      have h := Bool.and_eq_true_iff.1 h
      exact Bool.and_eq_true_iff.2 ⟨h.1, ih h.2⟩

theorem isOfForm_literally (s : String) : isOfForm (literally s) s.toList = true := by
  unfold literally
  induction s.toList with
  | nil => rfl
  | cons c cs ih => exact Bool.and_eq_true_iff.2 ⟨beq_self_eq_true c, ih⟩

/-- So many characters of one class. -/
theorem isOfForm_replicate {isIn : Char → Bool} {n : Nat} (hl : cs.length = n) (h : ∀ c ∈ cs, isIn c = true) :
    isOfForm (List.replicate n isIn) cs = true := by
  subst hl
  induction cs with
  | nil => rfl
  | cons c cs ih =>
    rw [List.forall_mem_cons] at h
    exact Bool.and_eq_true_iff.2 ⟨h.1, ih h.2⟩

theorem length_of_isOfForm (h : isOfForm form cs = true) : cs.length = form.length := by
  induction form generalizing cs with
  | nil => cases cs with
    | nil => rfl
    | cons => cases h
  | cons isIn form ih => cases cs with
    | nil => cases h
    | cons c cs => exact congrArg Nat.succ (ih (Bool.and_eq_true_iff.1 h).2)

/-- What starts with given characters by its form starts with them. -/
theorem prefix_of_isOfForm {s : String} (h : isOfForm (literally s ++ form) cs = true) : s.toList <+: cs := by
  unfold literally at h
  generalize s.toList = text at h ⊢
  induction text generalizing cs with
  | nil => exact List.nil_prefix
  | cons c rest ih => cases cs with
    | nil => cases h
    | cons d cs =>
      have h := Bool.and_eq_true_iff.1 h
      rw [eq_of_beq h.1]
      exact List.cons_prefix_cons.2 ⟨rfl, ih h.2⟩

/-- What all classes of a form imply is so of each character. -/
theorem forall_of_isOfForm {P : Char → Prop} (h : isOfForm form cs = true)
    (hform : ∀ isIn ∈ form, ∀ c, isIn c = true → P c) : ∀ c ∈ cs, P c := by
  induction form generalizing cs with
  | nil => cases cs with
    | nil => exact fun _ hc => nomatch hc
    | cons => cases h
  | cons isIn form ih => cases cs with
    | nil => cases h
    | cons c cs =>
      have h := Bool.and_eq_true_iff.1 h
      rw [List.forall_mem_cons] at hform
      exact List.forall_mem_cons.2 ⟨hform.1 c h.1, ih h.2 hform.2⟩

end Text

/-! ## The form of ids -/

/-- The form of the ids that are given out: a day and a time in decimal digits, and eight hexadecimal ones. -/
def idForm : List (Char → Bool) :=
  Text.literally "exec_" ++ (List.replicate 8 Char.isDigit ++ Text.literally "_" ++ List.replicate 6 Char.isDigit ++
    Text.literally "_" ++ List.replicate 8 Text.isHexDigit)

/-- Whether an id is of the form of those that are given out. -/
def IsGenerated (id : String) : Prop :=
  Text.isOfForm idForm id.toList = true

instance (id : String) : Decidable (IsGenerated id) :=
  inferInstanceAs (Decidable (_ = true))

theorem isSafe_of_isHexDigit {c : Char} (h : Text.isHexDigit c = true) : isSafe c = true := by
  rcases Bool.or_eq_true_iff.1 h with h | h
  · exact isSafe_of_isDigit h
  · simp only [Bool.and_eq_true, decide_eq_true_eq] at h
    have hle : c.toNat ≤ 102 := h.2
    have hge : 97 ≤ c.toNat := h.1
    have : ∀ n : Fin 128, 97 ≤ n.val → n.val ≤ 102 → isSafe (Char.ofNat n.val) = true := by decide
    have := this ⟨c.toNat, by omega⟩ hge hle
    rwa [Char.ofNat_toNat] at this

namespace IsGenerated

variable {id : String}

theorem length_eq (h : IsGenerated id) : id.toList.length = 29 :=
  Text.length_of_isOfForm h

theorem isSafeText (h : IsGenerated id) : IsSafeText id := by
  refine Text.forall_of_isOfForm h fun isIn hin c hc => ?_
  simp only [idForm, Text.literally, List.mem_append, List.mem_replicate] at hin
  have hletter {s : String} (hs : IsSafeText s) (hin : isIn ∈ s.toList.map fun c d => d == c) : isSafe c = true := by
    obtain ⟨d, hd, rfl⟩ := List.mem_map.1 hin
    rw [eq_of_beq hc]
    exact hs d hd
  rcases hin with hin | (((⟨-, rfl⟩ | hin) | ⟨-, rfl⟩) | hin) | ⟨-, rfl⟩
  · exact hletter (isSafeText_of_all (by decide)) hin
  · exact isSafe_of_isDigit hc
  · exact hletter isSafeText_mark hin
  · exact isSafe_of_isDigit hc
  · exact hletter isSafeText_mark hin
  · exact isSafe_of_isHexDigit hc

theorem starts (h : IsGenerated id) : "exec_".toList <+: id.toList :=
  Text.prefix_of_isOfForm h

end IsGenerated

/-- Of texts that are as long as each other, what stands behind both does not decide. -/
theorem Text.lt_of_append_lt {cs ds rest : List Char} (hl : cs.length = ds.length) (h : cs ++ rest < ds ++ rest) :
    cs < ds := by
  induction cs generalizing ds with
  | nil =>
    obtain rfl := List.eq_nil_of_length_eq_zero hl.symm
    exact absurd h (List.lt_irrefl _)
  | cons c cs ih => cases ds with
    | nil => cases hl
    | cons d ds =>
      rw [List.cons_append, List.cons_append, List.cons_lt_cons_iff] at h
      exact List.cons_lt_cons_iff.2 (h.imp_right fun h => ⟨h.1, ih (Nat.succ.inj hl) h.2⟩)

/-- Generated ids are in the order of their files. -/
theorem IsGenerated.lt_of_file_lt {a b : String} (ha : IsGenerated a) (hb : IsGenerated b)
    (h : a ++ ".json" < b ++ ".json") : a < b := by
  rw [String.lt_iff, String.toList_append, String.toList_append] at h
  exact String.lt_iff.2 (Text.lt_of_append_lt (ha.length_eq.trans hb.length_eq.symm) h)

/-- A character has at most four bytes. -/
theorem Text.utf8ByteSize_ofList_le (cs : List Char) : (String.ofList cs).utf8ByteSize ≤ 4 * cs.length := by
  induction cs with
  | nil => exact Nat.le_refl 0
  | cons c cs ih =>
    have hc := c.utf8Size_le_four
    rw [String.ofList_cons, String.utf8ByteSize_append, String.utf8ByteSize_singleton, List.length_cons]
    omega

/-- The record of a generated id can be written. -/
theorem IsGenerated.fits {id : String} (h : IsGenerated id) : (Store.Executions.place id).Fits := by
  have hid := Text.utf8ByteSize_ofList_le id.toList
  have hend : ".json".utf8ByteSize = 5 := by decide
  rw [String.ofList_toList, h.length_eq] at hid
  refine (Location.fits_ofRecord (by decide)).2 ?_
  rw [safeName_eq_self h.isSafeText, String.utf8ByteSize_append, hend, nameLimit]
  omega

/-! ## Ids that are given out -/

namespace Text

theorem isHexDigit_of_mem_hex {width n : Nat} {c : Char} (h : c ∈ hex width n) : isHexDigit c = true := by
  induction width generalizing n with
  | zero => cases h
  | succ w ih =>
    rcases List.mem_append.1 h with h | h
    · exact ih h
    · rw [List.mem_singleton.1 h]
      have : ∀ d : Fin 16, isHexDigit (hexDigit d) = true := by decide +kernel
      exact this ⟨n % 16, Nat.mod_lt n (by omega)⟩

/-- A number that has no more digits is written with just so many. -/
theorem length_hexAtLeast {width n : Nat} (hw : 0 < width) (h : n < 2 ^ (4 * width)) :
    (hexAtLeast width n).length = width := by
  have hlog : n.log2 < 4 * width := by
    by_cases hn : n = 0
    · rw [hn, Nat.log2_zero]
      omega
    · exact (Nat.log2_lt hn).2 h
  rw [hexAtLeast, length_hex]
  omega

/-- A number is written with so many digits if it has no more. -/
theorem isOfForm_padded {width : Nat} {n : Int} (hw : 0 < width) (h : n.natAbs < 10 ^ width) :
    isOfForm (List.replicate width Char.isDigit) (padded width n).toList = true := by
  have hdigits : (toString n.natAbs).toList = Nat.toDigits 10 n.natAbs := by
    rw [Nat.toString_eq_ofList_toDigits, String.toList_ofList]
  have hlength := (Nat.length_toDigits_le_iff (b := 10) (by decide) hw).2 h
  refine isOfForm_replicate ?_ fun c hc => ?_
  · rw [padded, String.toList_append, String.toList_ofList, List.length_append, List.length_replicate,
      ← String.length_toList, hdigits]
    omega
  · rw [padded, String.toList_append, String.toList_ofList, List.mem_append, List.mem_replicate, hdigits] at hc
    rcases hc with ⟨-, rfl⟩ | hc
    · decide
    · exact Nat.isDigit_of_mem_toDigits (by decide) (by decide) hc

/-- Three numbers with nothing between them. -/
theorem isOfForm_digits {i j k : Nat} {l m n : Int} (hl : 0 < i ∧ l.natAbs < 10 ^ i) (hm : 0 < j ∧ m.natAbs < 10 ^ j)
    (hn : 0 < k ∧ n.natAbs < 10 ^ k) : isOfForm (List.replicate (i + j + k) Char.isDigit)
      (padded i l ++ "" ++ padded j m ++ "" ++ padded k n).toList = true := by
  have hform := isOfForm_append (isOfForm_append (isOfForm_padded hl.1 hl.2) (isOfForm_padded hm.1 hm.2))
    (isOfForm_padded hn.1 hn.2)
  simpa [List.replicate_append_replicate, Nat.add_assoc] using hform

end Text

/-- Months and days have two digits at most. -/
theorem Date.ofDay_bounds (n : Int) :
    0 ≤ (ofDay n).month ∧ (ofDay n).month < 100 ∧ 0 ≤ (ofDay n).day ∧ (ofDay n).day < 100 := by
  have hge : 0 ≤ (n + 719468).fmod 146097 := Int.fmod_nonneg_of_pos _ (by decide)
  have hlt : (n + 719468).fmod 146097 < 146097 := Int.fmod_lt_of_pos _ (by decide)
  unfold ofDay
  dsimp only
  generalize (n + 719468).fmod 146097 = day at hge hlt
  split <;> omega

/-- The year that a clock shows. -/
def Clock.year (c : Clock) : Int :=
  (Date.ofDay (firstDay + (c.microseconds.fdiv 1000000).fdiv 86400)).year

theorem Clock.isOfForm_written {c : Clock} (h : 0 ≤ c.year ∧ c.year < 10000) :
    Text.isOfForm (List.replicate 8 Char.isDigit ++ Text.literally "_" ++ List.replicate 6 Char.isDigit)
      (c.written "" "_" "").toList = true := by
  have hdate := Date.ofDay_bounds (firstDay + (c.microseconds.fdiv 1000000).fdiv 86400)
  have hge : 0 ≤ (c.microseconds.fdiv 1000000).fmod 86400 := Int.fmod_nonneg_of_pos _ (by decide)
  have hlt : (c.microseconds.fdiv 1000000).fmod 86400 < 86400 := Int.fmod_lt_of_pos _ (by decide)
  unfold year at h
  rw [written, String.toList_append, String.toList_append]
  refine Text.isOfForm_append (Text.isOfForm_append ?_ (Text.isOfForm_literally "_")) ?_
  · exact Text.isOfForm_digits (i := 4) (j := 2) (k := 2) (by omega) (by omega) (by omega)
  · exact Text.isOfForm_digits (i := 2) (j := 2) (k := 2) (by omega) (by omega) (by omega)

/-- The ids that are given out are of their form. -/
theorem isGenerated_nextExecution {w : World} (hy : 0 ≤ w.clock.year ∧ w.clock.year < 10000)
    (hn : w.issued + 1 < 2 ^ 32) : IsGenerated w.nextExecution := by
  have hnumber : Text.isOfForm (List.replicate 8 Text.isHexDigit) (Text.hexAtLeast 8 (w.issued + 1)) = true :=
    Text.isOfForm_replicate (Text.length_hexAtLeast (by decide) hn) fun c hc => Text.isHexDigit_of_mem_hex hc
  have hform := Text.isOfForm_append (Text.isOfForm_append (Clock.isOfForm_written hy)
    (Text.isOfForm_literally "_")) hnumber
  have hform := Text.isOfForm_append (Text.isOfForm_literally "exec_") hform
  simpa [IsGenerated, idForm, World.nextExecution] using hform

example : IsGenerated "exec_20250101_000000_0000002f" := by decide

end WorkGraph
