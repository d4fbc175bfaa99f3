import WorkGraph.World

/-!
# Execution ids

An execution id is made of the time and of a running number, so that no id is given out twice (`numbered_unique`), and
all of its characters may stand in a file name (`numbered_nextExecution`), so that different ids name different files
(`path_inj`).
-/

namespace WorkGraph

/-! ## Hexadecimal digits -/

namespace Text

theorem hexDigit_cases {d : Nat} (h : d < 16) :
    isSafe (hexDigit d) = true ∧ hexDigit d ≠ '_' ∧ (hexDigit d).toNat = if d < 10 then 48 + d else 87 + d := by
  have : ∀ d : Fin 16, isSafe (hexDigit d) = true ∧ hexDigit d ≠ '_' ∧
      (hexDigit d).toNat = if d.val < 10 then 48 + d.val else 87 + d.val := by decide +kernel
  exact this ⟨d, h⟩

theorem hexDigit_inj {c d : Nat} (hc : c < 16) (hd : d < 16) (h : hexDigit c = hexDigit d) : c = d := by
  have e : (hexDigit c).toNat = (hexDigit d).toNat := by rw [h]
  rw [(hexDigit_cases hc).2.2, (hexDigit_cases hd).2.2] at e
  split at e <;> split at e <;> omega

theorem mem_hex {width n : Nat} {c : Char} (h : c ∈ hex width n) : isSafe c = true ∧ c ≠ '_' := by
  induction width generalizing n with
  | zero => simp [hex] at h
  | succ w ih =>
    rcases List.mem_append.1 h with h | h
    · exact ih h
    · rw [List.mem_singleton.1 h]
      have := hexDigit_cases (Nat.mod_lt n (show 0 < 16 by omega))
      exact ⟨this.1, this.2.1⟩

/-- So many digits tell numbers apart that have no more digits. -/
theorem hex_inj {width m n : Nat} (hm : m < Nat.pow 16 width) (hn : n < Nat.pow 16 width)
    (h : hex width m = hex width n) :
    m = n := by
  induction width generalizing m n with
  | zero => simp at hm hn; omega
  | succ w ih =>
    have hl := List.append_inj_left' h rfl
    have hr := List.append_inj_right' h rfl
    have hm : m < Nat.pow 16 w * 16 := hm
    have hn : n < Nat.pow 16 w * 16 := hn
    have hq : m / 16 = n / 16 := ih (by omega) (by omega) hl
    have hd := hexDigit_inj (Nat.mod_lt m (by omega)) (Nat.mod_lt n (by omega)) (List.singleton_inj.1 hr)
    omega

theorem lt_hexAtLeast (width n : Nat) : n < Nat.pow 16 (max width (n.log2 / 4 + 1)) := by
  have h₁ : n < 2 ^ (n.log2 + 1) := Nat.lt_log2_self
  have h₂ : 2 ^ (n.log2 + 1) ≤ 2 ^ (4 * (n.log2 / 4 + 1)) := Nat.pow_le_pow_right (by omega) (by omega)
  have h₃ : (16 : Nat) ^ (n.log2 / 4 + 1) ≤ 16 ^ max width (n.log2 / 4 + 1) :=
    Nat.pow_le_pow_right (by omega) (by omega)
  rw [Nat.pow_mul] at h₂
  exact Nat.lt_of_lt_of_le h₁ (Nat.le_trans h₂ h₃)

/-- The digits of a number tell it apart from any other. -/
theorem hexAtLeast_inj {width m n : Nat} (h : hexAtLeast width m = hexAtLeast width n) : m = n := by
  have hl := congrArg List.length h
  simp only [hexAtLeast, length_hex] at hl
  have hm := lt_hexAtLeast width m
  have hn := lt_hexAtLeast width n
  unfold hexAtLeast at h
  rw [hl] at h hm
  exact hex_inj hm hn h

end Text

/-! ## Safe texts -/

/-- A text that is its own file name. -/
def IsSafeText (s : String) : Prop := ∀ c ∈ s.toList, isSafe c = true

theorem safeName_eq_self {s : String} (h : IsSafeText s) : safeName s = s := by
  have : s.toList.map (fun c => if isSafe c then c else '_') = s.toList := by
    conv => rhs; rw [← List.map_id s.toList]
    exact List.map_congr_left fun c hc => by simp [h c hc]
  rw [safeName, this, String.ofList_toList]

theorem isSafeText_append {s t : String} (hs : IsSafeText s) (ht : IsSafeText t) : IsSafeText (s ++ t) := by
  intro c hc
  rw [String.toList_append, List.mem_append] at hc
  exact hc.elim (hs c) (ht c)

theorem isSafe_of_isDigit {c : Char} (h : c.isDigit = true) : isSafe c = true := by
  have hlt : c.toNat < 128 := by
    simp only [Char.isDigit, Bool.and_eq_true, decide_eq_true_eq] at h
    have hle : c.val.toNat ≤ 57 := UInt32.le_iff_toNat_le.1 h.2
    exact Nat.lt_of_le_of_lt hle (by omega)
  simp [isSafe, Text.isAlphanumeric, hlt, Char.isAlphanum, h]

theorem isSafeText_padded (width : Nat) (n : Int) : IsSafeText (padded width n) := by
  intro c hc
  simp only [padded, String.toList_append, String.toList_ofList, List.mem_append, List.mem_replicate] at hc
  rcases hc with ⟨-, rfl⟩ | hc
  · decide
  · rw [Nat.toString_eq_ofList_toDigits, String.toList_ofList] at hc
    exact isSafe_of_isDigit (Nat.isDigit_of_mem_toDigits (by omega) (by omega) hc)

theorem isSafeText_of_all {s : String} (h : s.toList.all isSafe = true) : IsSafeText s :=
  List.all_eq_true.1 h

theorem isSafeText_empty : IsSafeText "" :=
  isSafeText_of_all (by decide)

theorem isSafeText_mark : IsSafeText "_" :=
  isSafeText_of_all (by decide)

/-- Three numbers with nothing between them. -/
theorem isSafeText_digits (i j k : Nat) (l m n : Int) :
    IsSafeText (padded i l ++ "" ++ padded j m ++ "" ++ padded k n) :=
  isSafeText_append (isSafeText_append (isSafeText_append (isSafeText_append (isSafeText_padded i l)
    isSafeText_empty) (isSafeText_padded j m)) isSafeText_empty) (isSafeText_padded k n)

theorem isSafeText_written (c : Clock) : IsSafeText (c.written "" "_" "") :=
  isSafeText_append (isSafeText_append (isSafeText_digits _ _ _ _ _ _) isSafeText_mark)
    (isSafeText_digits _ _ _ _ _ _)

/-! ## Numbered ids -/

namespace World

/-- The id that the next execution gets. -/
def nextExecution (w : World) : String :=
  "exec_" ++ w.clock.written "" "_" "" ++ "_" ++ String.ofList (Text.hexAtLeast 8 (w.issued + 1))

end World

theorem Engine.run_freshExecutionId (w : World) :
    run freshExecutionId w = (.ok w.nextExecution, { w with issued := w.issued + 1 }) := rfl

/-- Whether an id is the one of a number. -/
def Numbered (n : Nat) (id : String) : Prop :=
  IsSafeText id ∧ ∃ front, id = front ++ "_" ++ String.ofList (Text.hexAtLeast 8 n)

theorem numbered_nextExecution (w : World) : Numbered (w.issued + 1) w.nextExecution := by
  refine ⟨?_, "exec_" ++ w.clock.written "" "_" "", rfl⟩
  have he : IsSafeText "exec_" := isSafeText_of_all (by decide)
  have hh : IsSafeText (String.ofList (Text.hexAtLeast 8 (w.issued + 1))) := by
    intro c hc
    rw [String.toList_ofList] at hc
    exact (Text.mem_hex hc).1
  exact isSafeText_append (isSafeText_append (isSafeText_append he (isSafeText_written _)) isSafeText_mark) hh

/-- What stands behind the last of the marks. -/
theorem behind_mark {α : Type} {mark : α} : ∀ {a b c d : List α}, mark ∉ b → mark ∉ d →
    a ++ mark :: b = c ++ mark :: d → b = d
  | [], _, [], _, _, _, h => (List.cons.inj h).2
  | [], b, _ :: c, d, hb, _, h => by
    simp only [List.nil_append, List.cons_append, List.cons.injEq] at h
    exact absurd (h.2 ▸ by simp) hb
  | _ :: a, b, [], d, _, hd, h => by
    simp only [List.nil_append, List.cons_append, List.cons.injEq] at h
    exact absurd (h.2 ▸ by simp) hd
  | _ :: a, b, _ :: c, d, hb, hd, h => by
    simp only [List.cons_append, List.cons.injEq] at h
    exact behind_mark hb hd h.2

/-- An id has one number. -/
theorem numbered_unique {m n : Nat} {id : String} (hm : Numbered m id) (hn : Numbered n id) : m = n := by
  obtain ⟨-, a, ha⟩ := hm
  obtain ⟨-, b, hb⟩ := hn
  have h := congrArg String.toList (ha.symm.trans hb)
  simp only [String.toList_append, String.toList_ofList, List.append_assoc] at h
  exact Text.hexAtLeast_inj (behind_mark (fun hx => (Text.mem_hex hx).2 rfl) (fun hx => (Text.mem_hex hx).2 rfl) h)

/-- Whether an id is among the first so many. -/
def Issued (count : Nat) (id : String) : Prop :=
  ∃ n, n ≤ count ∧ Numbered n id

theorem Issued.mono {k l : Nat} {id : String} (h : Issued k id) (hl : k ≤ l) : Issued l id := by
  obtain ⟨n, hn, hid⟩ := h
  exact ⟨n, Nat.le_trans hn hl, hid⟩

theorem Issued.isSafeText {k : Nat} {id : String} (h : Issued k id) : IsSafeText id := by
  obtain ⟨n, -, hid⟩ := h
  exact hid.1

theorem Issued.safeName {k : Nat} {id : String} (h : Issued k id) : safeName id = id :=
  safeName_eq_self h.isSafeText

theorem issued_nextExecution (w : World) : Issued (w.issued + 1) w.nextExecution :=
  ⟨_, Nat.le_refl _, numbered_nextExecution w⟩

/-- The next id is a new one. -/
theorem not_issued_nextExecution (w : World) : ¬Issued w.issued w.nextExecution := by
  rintro ⟨n, hn, hid⟩
  have := numbered_unique hid (numbered_nextExecution w)
  omega

/-! ## Places of records -/

namespace Location

theorem path_ofRecord (folder : Folder) (id extension : String) :
    (ofRecord folder id extension).path.toList =
      folder.name.toList ++ '/' :: ((safeName id).toList ++ extension.toList) := by
  simp [ofRecord, String.toList_append]

/-- Records of different folders have different places. -/
theorem folder_eq_of_path {f g : Folder} {a b x y : String} (h : (ofRecord f a x).path = (ofRecord g b y).path) :
    f = g := by
  have h := congrArg String.toList h
  rw [path_ofRecord, path_ofRecord] at h
  cases f <;> cases g <;> first | rfl | simp [Folder.name] at h

/-- Within a folder the place tells the name. -/
theorem path_inj {f : Folder} {a b x : String} (h : (ofRecord f a x).path = (ofRecord f b x).path) :
    safeName a = safeName b := by
  have h := congrArg String.toList h
  rw [path_ofRecord, path_ofRecord] at h
  have h := (List.cons.inj (List.append_cancel_left h)).2
  exact String.toList_inj.1 (List.append_cancel_right h)

end Location

/-! ## Places of workflows -/

theorem Text.pieces_of_not_mem {separator : Char} {cs : List Char} (h : separator ∉ cs) : pieces separator cs = [cs] := by
  induction cs with
  | nil => rfl
  | cons c cs ih =>
    rw [List.mem_cons, not_or] at h
    have hc : (c == separator) = false := by simpa using Ne.symm h.1
    simp only [pieces, hc, ih h.2, Bool.false_eq_true, if_false]

namespace Location

/-- The file of a workflow whose id has no slash is one of the folder of workflows. -/
theorem path_ofWorkflow {id : String} (h : '/' ∉ id.toList) :
    (ofWorkflow id).path.toList = Folder.workflows.name.toList ++ '/' :: (id.toList ++ ".json".toList) := by
  have hslash : '/' ∉ (id ++ ".json").toList := by
    rw [String.toList_append, List.mem_append, not_or]
    exact ⟨h, by decide⟩
  have hlong : 5 ≤ (id ++ ".json").toList.length := by
    rw [String.toList_append, List.length_append]
    exact Nat.le_add_left _ _
  have hempty : id ++ ".json" ≠ "" := by
    intro he
    rw [he] at hlong
    exact absurd hlong (by decide)
  have hpoint : id ++ ".json" ≠ "." := by
    intro he
    rw [he] at hlong
    exact absurd hlong (by decide)
  have hsegments : segments (id ++ ".json") = [id ++ ".json"] := by
    rw [segments, Text.pieces_of_not_mem hslash]
    simp [hempty, hpoint]
  have hhead : ((id ++ ".json").toList.head? == some '/') = false := by
    cases hl : (id ++ ".json").toList with
    | nil => rfl
    | cons c cs =>
      rw [hl, List.mem_cons, not_or] at hslash
      simpa using Ne.symm hslash.1
  unfold ofWorkflow ofPath
  rw [hsegments, hhead]
  simp [Directory.follow, Directory.file, String.toList_append, Folder.name]

/-- It is none of a record. -/
theorem ofWorkflow_ne_ofRecord {id : String} (h : '/' ∉ id.toList) {folder : Folder} (hf : folder ≠ .workflows)
    (other extension : String) : (ofRecord folder other extension).path ≠ (ofWorkflow id).path := by
  intro hp
  have hp := congrArg String.toList hp
  rw [path_ofWorkflow h, path_ofRecord] at hp
  cases folder <;> first | exact hf rfl | simp [Folder.name] at hp

end Location

/-- Different ids that are their own file names have different places. -/
theorem IsSafeText.path_ne {a b : String} (ha : IsSafeText a) (hb : IsSafeText b) (hne : a ≠ b) (folder : Folder)
    (extension : String) : (Location.ofRecord folder a extension).path ≠ (Location.ofRecord folder b extension).path := by
  intro hp
  have hs := Location.path_inj hp
  rw [safeName_eq_self ha, safeName_eq_self hb] at hs
  exact hne hs

/-- The records of different executions have different places. -/
theorem Issued.path_ne {k l : Nat} {a b : String} (ha : Issued k a) (hb : Issued l b) (hne : a ≠ b) (folder : Folder)
    (extension : String) : (Location.ofRecord folder a extension).path ≠ (Location.ofRecord folder b extension).path :=
  ha.isSafeText.path_ne hb.isSafeText hne folder extension

end WorkGraph
