import Mathlib.Data.List.TakeWhile
import WorkGraph.Template
import WorkGraph.Proofs.Address

/-!
# The slots of a template

A text can be read as a template in one way only (`Template.reading_iff`): each place where a path stands between double
braces is a slot, and every other character is itself (`Template.Reading`). A template is filled with the text of the
value of each slot, all else as it is, and what is put in is not read again; a slot with nothing but blanks around it
stands for the value itself (`Template.slots_filled`).
-/

namespace WorkGraph

/-! ## Blanks around a text -/

namespace Text

theorem strip_append_of_blank {before cs : List Char} (h : ∀ c ∈ before, isBlank c = true) :
    strip (before ++ cs) = strip cs := by
  induction before with
  | nil => rfl
  | cons c before ih =>
    rw [List.cons_append, strip_blank_cons _ (h c List.mem_cons_self)]
    exact ih fun d hd => h d (List.mem_cons_of_mem c hd)

theorem stripEnd_append_of_blank {cs after : List Char} (h : ∀ c ∈ after, isBlank c = true) :
    stripEnd (cs ++ after) = stripEnd cs := by
  rw [stripEnd, List.reverse_append, List.dropWhile_append_of_pos (by simpa using h)]
  rfl

/-- Of a text with blanks around it, the text is left. -/
theorem strip_around {before cs after : List Char} (hbefore : ∀ c ∈ before, isBlank c = true)
    (hafter : ∀ c ∈ after, isBlank c = true) (hne : cs ≠ []) (hhead : ∀ c, cs.head? = some c → isBlank c = false)
    (hlast : ∀ c, cs.getLast? = some c → isBlank c = false) : strip (before ++ cs ++ after) = cs := by
  rw [List.append_assoc, strip_append_of_blank hbefore]
  obtain ⟨c, rest, rfl⟩ := List.exists_cons_of_ne_nil hne
  have hc : isBlank c = false := hhead c rfl
  have hkept : (c :: rest ++ after).dropWhile isBlank = c :: rest ++ after := by simp [hc]
  have hself := strip_of_ends hne hhead hlast
  rw [strip, List.dropWhile_cons_of_neg (by simp [hc])] at hself
  rw [strip, hkept, stripEnd_append_of_blank hafter, hself]

/-- Only blanks are stripped. -/
theorem exists_strip (cs : List Char) :
    ∃ before after, (∀ c ∈ before, isBlank c = true) ∧ (∀ c ∈ after, isBlank c = true) ∧
      cs = before ++ strip cs ++ after := by
  refine ⟨cs.takeWhile isBlank, ((cs.dropWhile isBlank).reverse.takeWhile isBlank).reverse, ?_, ?_, ?_⟩
  · intro c hc
    exact List.mem_takeWhile_imp hc
  · intro c hc
    exact List.mem_takeWhile_imp (List.mem_reverse.1 hc)
  · have hend : strip cs ++ ((cs.dropWhile isBlank).reverse.takeWhile isBlank).reverse = cs.dropWhile isBlank := by
      rw [strip, stripEnd, ← List.reverse_append, List.takeWhile_append_dropWhile, List.reverse_reverse]
    rw [List.append_assoc, hend, List.takeWhile_append_dropWhile]

end Text

namespace Template

/-! ## Readings -/

/-- What can stand between the braces of a slot: some characters, none of them a brace. -/
def IsPath (path : List Char) : Prop :=
  path ≠ [] ∧ ∀ c ∈ path, isBrace c = false

/-- A text taken apart into its slots and single characters: the parts make up the text, each slot has a path between
its braces, and every place of the text where a path stands between double braces is a slot. -/
structure Reading (cs : List Char) (ps : List Part) : Prop where
  source : ps.flatMap Part.source = cs
  paths : ∀ path, .slot path ∈ ps → IsPath path
  places : ∀ before path after, IsPath path → cs = before ++ (Part.slot path).source ++ after →
    ∃ front back, ps = front ++ .slot path :: back ∧ front.flatMap Part.source = before

variable {cs path after : List Char} {ps : List Part}

theorem slot?_of_isPath (h : IsPath path) (after : List Char) :
    slot? (path ++ '}' :: '}' :: after) = some (path, after) := by
  obtain ⟨c, rest, rfl⟩ := List.exists_cons_of_ne_nil h.1
  have hpath : ∀ d ∈ c :: rest, (!isBrace d) = true := by simpa using h.2
  have hbrace : (!isBrace '}') = false := by decide
  have htake : (c :: rest ++ '}' :: '}' :: after).takeWhile (!isBrace ·) = c :: rest := by
    rw [List.takeWhile_append_of_pos hpath, List.takeWhile_cons_of_neg (by simp [hbrace]), List.append_nil]
  have hdrop : (c :: rest ++ '}' :: '}' :: after).dropWhile (!isBrace ·) = '}' :: '}' :: after := by
    rw [List.dropWhile_append_of_pos hpath, List.dropWhile_cons_of_neg (by simp [hbrace])]
  unfold slot?
  simp only [htake, hdrop]

theorem isPath_of_slot? (h : slot? cs = some (path, after)) : IsPath path := by
  have hpath : path = cs.takeWhile (!isBrace ·) ∧ path ≠ [] := by
    unfold slot? at h
    simp only at h
    split at h
    · next hne _ =>
      simp only [Option.some.injEq, Prod.mk.injEq] at h
      refine ⟨h.1.symm, ?_⟩
      rw [← h.1, hne]
      simp
    · simp at h
  refine ⟨hpath.2, ?_⟩
  intro c hc
  rw [hpath.1] at hc
  simpa using List.mem_takeWhile_imp hc

/-- A slot in front is the first part. -/
theorem parts_slot (h : IsPath path) (after : List Char) :
    parts ((Part.slot path).source ++ after) = .slot path :: parts after := by
  have hs : (Part.slot path).source ++ after = '{' :: '{' :: (path ++ '}' :: '}' :: after) := by
    simp [Part.source]
  rw [hs, parts]
  split
  · next path' after' h' =>
    rw [slot?_of_isPath h] at h'
    obtain ⟨rfl, rfl⟩ := Prod.mk.inj (Option.some.inj h')
    rfl
  · next h' =>
    rw [slot?_of_isPath h] at h'
    cases h'

/-- A character with which no slot begins is itself. -/
theorem parts_verbatim {c : Char} (h : ∀ path after, IsPath path → c :: cs ≠ (Part.slot path).source ++ after) :
    parts (c :: cs) = .verbatim c :: parts cs := by
  rw [parts.eq_def]
  split
  · next heq => cases heq
  · next rest heq =>
    obtain ⟨rfl, rfl⟩ := List.cons.inj heq
    split
    · next path after hs =>
      refine absurd ?_ (h path after (isPath_of_slot? hs))
      rw [eq_of_slot? hs]
      simp [Part.source]
    · rfl
  · next c' rest _ heq =>
    obtain ⟨rfl, rfl⟩ := List.cons.inj heq
    rfl

/-- A text is empty, or begins with a slot, or with a character with which no slot begins. -/
theorem parts_cases (cs : List Char) :
    cs = [] ∨
      (∃ path after, IsPath path ∧ cs = (Part.slot path).source ++ after ∧ parts cs = .slot path :: parts after) ∨
      ∃ c rest, cs = c :: rest ∧ (∀ path after, IsPath path → cs ≠ (Part.slot path).source ++ after) ∧
        parts cs = .verbatim c :: parts rest := by
  cases cs with
  | nil => exact .inl rfl
  | cons c rest =>
    by_cases h : ∃ path after, IsPath path ∧ c :: rest = (Part.slot path).source ++ after
    · obtain ⟨path, after, hp, he⟩ := h
      refine .inr (.inl ⟨path, after, hp, he, ?_⟩)
      rw [he]
      exact parts_slot hp after
    · have hno : ∀ path after, IsPath path → c :: rest ≠ (Part.slot path).source ++ after :=
        fun path after hp he => h ⟨path, after, hp, he⟩
      exact .inr (.inr ⟨c, rest, rfl, hno, parts_verbatim hno⟩)

/-! ## One reading -/

/-- An open brace stands only at the start of a slot. -/
theorem open_not_mem (hp : IsPath path) : '{' ∉ path ++ ['}', '}'] := by
  rw [List.mem_append, not_or]
  constructor
  · intro hm
    exact absurd (hp.2 '{' hm) (by decide)
  · decide

/-- A slot that begins within another one is that one. -/
theorem place_of_slot {before path' after' : List Char} (hp : IsPath path) (hp' : IsPath path')
    (h : (Part.slot path).source ++ after = before ++ (Part.slot path').source ++ after') :
    before = [] ∧ path' = path ∧ after' = after ∨
      ∃ behind, before = (Part.slot path).source ++ behind ∧ after = behind ++ (Part.slot path').source ++ after' := by
  rw [List.append_assoc] at h
  rcases List.append_eq_append_iff.1 h with ⟨behind, hb, ha⟩ | ⟨inside, hin, ha⟩
  · exact .inr ⟨behind, hb, by rw [ha, List.append_assoc]⟩
  · match before, hin with
    | [], hin =>
      have hslot : slot? (path ++ '}' :: '}' :: after) = slot? (path' ++ '}' :: '}' :: after') := by
        have h : '{' :: '{' :: (path ++ '}' :: '}' :: after) = '{' :: '{' :: (path' ++ '}' :: '}' :: after') := by
          simpa [Part.source] using h
        exact congrArg slot? (List.cons.inj (List.cons.inj h).2).2
      rw [slot?_of_isPath hp, slot?_of_isPath hp'] at hslot
      obtain ⟨rfl, rfl⟩ := Prod.mk.inj (Option.some.inj hslot)
      exact .inl ⟨rfl, rfl, rfl⟩
    | [b], hin =>
      -- it would begin with the second brace, and the path with a brace
      have hin : '{' :: (path ++ ['}', '}']) = inside := (List.cons.inj hin).2
      obtain ⟨c, rest, rfl⟩ := List.exists_cons_of_ne_nil hp.1
      have ha : '{' :: '{' :: (path' ++ '}' :: '}' :: after') = '{' :: c :: (rest ++ '}' :: '}' :: after) := by
        simpa [Part.source, ← hin] using ha
      have hc : '{' = c := (List.cons.inj (List.cons.inj ha).2).1
      refine absurd (open_not_mem hp) (not_not_intro ?_)
      rw [hc]
      exact List.mem_cons_self
    | b :: b' :: before, hin =>
      -- it would begin behind both braces, where there is no other one
      have hbehind : path ++ ['}', '}'] = before ++ inside := (List.cons.inj (List.cons.inj hin).2).2
      cases inside with
      | nil => exact .inr ⟨[], by simpa using hin.symm, by simpa using ha.symm⟩
      | cons c inside =>
        have hc : '{' = c := by
          rw [Part.source, List.cons_append] at ha
          exact (List.cons.inj ha).1
        refine absurd (open_not_mem hp) (not_not_intro ?_)
        rw [hc, hbehind]
        simp

theorem Part.source_ne_nil (part : Part) : part.source ≠ [] := by
  cases part <;> simp [Part.source]

/-- Only no parts make up nothing. -/
theorem eq_nil_of_source (h : ps.flatMap Part.source = []) : ps = [] := by
  cases ps with
  | nil => rfl
  | cons part ps => exact absurd (List.append_eq_nil_iff.1 h).1 part.source_ne_nil

namespace Reading

theorem nil : Reading [] [] where
  source := rfl
  paths := by simp
  places := by
    intro before path after _ h
    simp [Part.source] at h

/-- A slot in front of a text that is read. -/
theorem slot (hp : IsPath path) (h : Reading after ps) :
    Reading ((Part.slot path).source ++ after) (.slot path :: ps) where
  source := by rw [List.flatMap_cons, h.source]
  paths := by
    intro path' hm
    rcases List.mem_cons.1 hm with he | hm
    · obtain rfl := Part.slot.inj he
      exact hp
    · exact h.paths path' hm
  places := by
    intro before path' after' hp' he
    rcases place_of_slot hp hp' he with ⟨rfl, rfl, rfl⟩ | ⟨behind, rfl, ha⟩
    · exact ⟨[], ps, rfl, rfl⟩
    · obtain ⟨front, back, rfl, hf⟩ := h.places behind path' after' hp' ha
      exact ⟨.slot path :: front, back, rfl, by rw [List.flatMap_cons, hf]⟩

/-- A character with which no slot begins, in front of a text that is read. -/
theorem verbatim {c : Char} (hno : ∀ path after, IsPath path → c :: cs ≠ (Part.slot path).source ++ after)
    (h : Reading cs ps) : Reading (c :: cs) (.verbatim c :: ps) where
  source := by rw [List.flatMap_cons, h.source]; rfl
  paths := by
    intro path hm
    rcases List.mem_cons.1 hm with he | hm
    · cases he
    · exact h.paths path hm
  places := by
    intro before path after hp he
    cases before with
    | nil => exact absurd he (hno path after hp)
    | cons b before =>
      obtain ⟨hc, he⟩ : c = b ∧ cs = before ++ (Part.slot path).source ++ after := List.cons.inj he
      obtain ⟨front, back, rfl, hf⟩ := h.places before path after hp he
      exact ⟨.verbatim c :: front, back, rfl, by rw [List.flatMap_cons, hf, hc]; rfl⟩

theorem tail {part : Part} (h : Reading cs (part :: ps)) : Reading (ps.flatMap Part.source) ps where
  source := rfl
  paths := fun path hm => h.paths path (List.mem_cons_of_mem part hm)
  places := by
    intro before path after hp he
    have hsource : cs = part.source ++ before ++ (Part.slot path).source ++ after := by
      rw [← h.source, List.flatMap_cons, he]
      simp
    obtain ⟨front, back, heq, hf⟩ := h.places _ path after hp hsource
    cases front with
    | nil => exact absurd (List.append_eq_nil_iff.1 hf.symm).1 part.source_ne_nil
    | cons first front =>
      obtain ⟨rfl, rfl⟩ := List.cons.inj heq
      rw [List.flatMap_cons] at hf
      exact ⟨front, back, rfl, List.append_cancel_left hf⟩

end Reading

theorem reading_parts (cs : List Char) : Reading cs (parts cs) := by
  induction hn : cs.length using Nat.strongRecOn generalizing cs with
  | ind n ih =>
    subst hn
    rcases parts_cases cs with rfl | ⟨path, after, hp, rfl, heq⟩ | ⟨c, rest, rfl, hno, heq⟩
    · rw [parts]
      exact .nil
    · rw [heq]
      refine .slot hp (ih _ ?_ after rfl)
      simp [Part.source]
      omega
    · rw [heq]
      exact .verbatim hno (ih _ (by simp) rest rfl)

/-- A text can be read in one way only. -/
theorem reading_iff : Reading cs ps ↔ ps = parts cs := by
  constructor
  · intro h
    induction ps generalizing cs with
    | nil =>
      rw [← h.source, List.flatMap_nil, parts]
    | cons part ps ih =>
      have hrest := ih h.tail
      have hsource : part.source ++ ps.flatMap Part.source = cs := h.source
      rcases parts_cases cs with rfl | ⟨path, after, hp, rfl, heq⟩ | ⟨c, rest, rfl, hno, heq⟩
      · exact absurd (List.append_eq_nil_iff.1 hsource).1 part.source_ne_nil
      · obtain ⟨front, back, hps, hf⟩ := h.places [] path after hp rfl
        obtain rfl : front = [] := eq_nil_of_source hf
        obtain ⟨rfl, rfl⟩ := List.cons.inj hps
        rw [List.append_cancel_left hsource] at hrest
        rw [heq, ← hrest]
      · cases part with
        | slot path => exact absurd hsource.symm (hno path _ (h.paths path List.mem_cons_self))
        | verbatim c' =>
          obtain ⟨rfl, hrest'⟩ : c' = c ∧ ps.flatMap Part.source = rest := List.cons.inj hsource
          rw [heq, ← hrest', ← hrest]
  · rintro rfl
    exact reading_parts cs

/-! ## Texts without slots -/

/-- Characters other than an open brace are themselves. -/
theorem parts_append {before : List Char} (h : ∀ c ∈ before, c ≠ '{') (cs : List Char) :
    parts (before ++ cs) = before.map .verbatim ++ parts cs := by
  induction before with
  | nil => rfl
  | cons c before ih =>
    have hno : ∀ path after, IsPath path → c :: (before ++ cs) ≠ (Part.slot path).source ++ after := by
      intro path after _ he
      exact h c List.mem_cons_self (List.cons.inj he).1
    rw [List.cons_append, parts_verbatim hno, ih fun d hd => h d (List.mem_cons_of_mem c hd)]
    rfl

theorem hasSlotStart_iff (cs : List Char) : hasSlotStart cs = true ↔ ['{', '{'] <:+: cs := by
  fun_induction hasSlotStart cs with
  | case1 rest => simpa using ⟨[], rest, rfl⟩
  | case2 c rest h ih =>
    rw [ih, List.infix_cons_iff]
    constructor
    · exact Or.inr
    · rintro (⟨after, ha⟩ | hin)
      · obtain ⟨hc, hrest⟩ : '{' = c ∧ '{' :: after = rest := List.cons.inj ha
        exact (h after hc.symm hrest.symm).elim
      · exact hin
  | case3 => simp

/-- A text without two open braces side by side is verbatim. -/
theorem parts_of_no_start {cs : List Char} (h : hasSlotStart cs = false) : parts cs = cs.map .verbatim := by
  induction cs with
  | nil => rw [parts]; rfl
  | cons c rest ih =>
    have hno : ∀ path after, IsPath path → c :: rest ≠ (Part.slot path).source ++ after := by
      intro path after _ he
      rw [he] at h
      cases h
    have hrest : hasSlotStart rest = false := by
      rw [Bool.eq_false_iff, ne_eq, hasSlotStart_iff] at h ⊢
      exact fun hin => h (List.infix_cons hin)
    rw [parts_verbatim hno, ih hrest]
    rfl

theorem mapM_verbatim (s : Scope) (cs : List Char) :
    (cs.map .verbatim).mapM (Part.fill s) = .ok (cs.map String.singleton) := by
  induction cs with
  | nil => rfl
  | cons c cs ih =>
    rw [List.map_cons, List.mapM_cons, ih]
    rfl

theorem toList_join_singleton (cs : List Char) : (String.join (cs.map String.singleton)).toList = cs := by
  simp [String.toList_join, List.flatMap_map]

/-- The parts of every template are filled, also of one that has no slots. -/
theorem fillText_eq (s : Scope) (t : String) : fillText s t = String.join <$> (parts t.toList).mapM (Part.fill s) := by
  unfold fillText
  split
  · rfl
  · next h =>
    rw [parts_of_no_start (by simpa using h), mapM_verbatim]
    exact congrArg Except.ok (String.toList_inj.1 (toList_join_singleton t.toList).symm)

/-! ## One slot alone -/

/-- A text that is one slot with nothing but blanks around it. -/
structure Alone (cs before path after : List Char) : Prop where
  isPath : IsPath path
  before_blank : ∀ c ∈ before, Text.isBlank c = true
  after_blank : ∀ c ∈ after, Text.isBlank c = true
  eq : cs = before ++ (Part.slot path).source ++ after

theorem Part.source_slot (path : List Char) : (Part.slot path).source = '{' :: '{' :: (path ++ ['}', '}']) := rfl

/-- Stripped, such a text is the slot. -/
theorem single?_iff_strip : single? cs = some path ↔ IsPath path ∧ Text.strip cs = (Part.slot path).source := by
  constructor
  · intro h
    unfold single? at h
    split at h
    · next rest hstrip =>
      split at h
      · next path' hslot =>
        obtain rfl := Option.some.inj h
        refine ⟨isPath_of_slot? hslot, ?_⟩
        rw [hstrip, eq_of_slot? hslot, Part.source_slot]
      · cases h
    · cases h
  · rintro ⟨hp, hstrip⟩
    unfold single?
    rw [hstrip, Part.source_slot]
    simp only [slot?_of_isPath hp []]

theorem single?_iff : single? cs = some path ↔ ∃ before after, Alone cs before path after := by
  rw [single?_iff_strip]
  constructor
  · rintro ⟨hp, hstrip⟩
    obtain ⟨before, after, hbefore, hafter, heq⟩ := Text.exists_strip cs
    rw [hstrip] at heq
    exact ⟨before, after, hp, hbefore, hafter, heq⟩
  · rintro ⟨before, after, h⟩
    refine ⟨h.isPath, ?_⟩
    rw [h.eq, Text.strip_around h.before_blank h.after_blank (Part.source_ne_nil _)]
    · intro c hc
      obtain rfl : '{' = c := Option.some.inj hc
      decide
    · intro c hc
      have hlast : (Part.slot path).source = '{' :: '{' :: (path ++ ['}']) ++ ['}'] := by simp [Part.source]
      rw [hlast, List.getLast?_concat] at hc
      obtain rfl : '}' = c := Option.some.inj hc
      decide

/-- The value of the slot stands between the blanks. -/
theorem Alone.fillText {t : String} {before : List Char} (h : Alone t.toList before path after) (s : Scope) :
    fillText s t =
      (fun v => String.ofList before ++ v.templateText ++ String.ofList after) <$> s.resolve path := by
  have hbrace : ∀ {cs : List Char}, (∀ c ∈ cs, Text.isBlank c = true) → ∀ c ∈ cs, c ≠ '{' := by
    rintro cs hcs c hc rfl
    exact absurd (hcs _ hc) (by decide)
  have hafter := parts_append (hbrace h.after_blank) []
  have hparts : parts t.toList = before.map .verbatim ++ (.slot path :: after.map .verbatim) := by
    rw [parts, List.append_nil, List.append_nil] at hafter
    rw [h.eq, List.append_assoc, parts_append (hbrace h.before_blank), parts_slot h.isPath, hafter]
  have hjoin : ∀ cs : List Char, String.join (cs.map String.singleton) = String.ofList cs := fun cs =>
    String.toList_inj.1 (by rw [toList_join_singleton, String.toList_ofList])
  rw [fillText_eq, hparts, List.mapM_append, List.mapM_cons, mapM_verbatim, mapM_verbatim]
  cases hv : s.resolve path with
  | error fault => simp [Part.fill, hv, bind, Except.bind, Functor.map, Except.map]
  | ok v =>
    have hslot : Part.fill s (.slot path) = .ok v.templateText := by rw [Part.fill, hv]; rfl
    rw [hslot]
    refine congrArg Except.ok ?_
    rw [String.join_append, hjoin, String.join_cons, hjoin]
    exact (String.append_assoc).symm

/-- A template is read in one way. It is filled with the text of the value of each slot in its place, and all else
stays as it is. A slot with nothing but blanks around it stands for the value whose text is put in, and any other
template with two open braces side by side for the filled text. -/
theorem slots_filled (s : Scope) (t : String) :
    (∃ ps, Reading t.toList ps ∧ (∀ qs, Reading t.toList qs → qs = ps) ∧
      fillText s t = String.join <$> ps.mapM (Part.fill s)) ∧
    (∀ before path after, Alone t.toList before path after →
      evaluate s (.str t) = s.resolve path ∧
        fillText s t =
          (fun v => String.ofList before ++ v.templateText ++ String.ofList after) <$> s.resolve path) ∧
    ((∀ before path after, ¬Alone t.toList before path after) → ['{', '{'] <:+: t.toList →
      evaluate s (.str t) = .str <$> fillText s t) := by
  refine ⟨⟨parts t.toList, reading_parts _, fun qs => reading_iff.1, fillText_eq s t⟩, ?_, ?_⟩
  · intro before path after h
    refine ⟨?_, h.fillText s⟩
    simp only [evaluate, single?_iff.2 ⟨before, after, h⟩]
  · intro hno hstart
    have hsingle : single? t.toList = none := by
      refine Option.eq_none_iff_forall_ne_some.2 fun path hp => ?_
      obtain ⟨before, after, h⟩ := single?_iff.1 hp
      exact hno before path after h
    rw [← hasSlotStart_iff] at hstart
    simp only [evaluate, hsingle, hstart, if_true]

/-- Braces around a slot stay, and so do those without a path. -/
example : parts "\x7b\x7b\x7ba\x7d\x7d\x7d\x7b\x7b\x7d\x7d".toList =
    [.verbatim '{', .slot ['a'], .verbatim '}', .verbatim '{', .verbatim '{', .verbatim '}', .verbatim '}'] := by
  decide +kernel

end Template

end WorkGraph
