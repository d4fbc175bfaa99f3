import Mathlib
import WorkGraph.Path
import WorkGraph.Proofs.Identifier

/-!
# Every position has a path

Tokens that can be written (`Writable`) are read again from the path that they write, as long as no index is longer than
the limit of digits (`split_render`). So the path of a position in a document leads to what stands there, and where
there is nothing, to null (`get_render`). An index beyond the limit makes the path unreadable in every document
(`not_every_index`).
-/

namespace WorkGraph

/-! ## Digits and blanks -/

namespace Text

theorem digit?_of_isDigit {c : Char} (h : c.isDigit = true) : digit? c = some (c.toNat - '0'.toNat) := by
  obtain ⟨hfrom, hto⟩ := Char.isDigit_iff_toNat.1 h
  have hnine : '9'.toNat < '0'.toNat + 10 := by decide
  have hlt : c.toNat < '0'.toNat + 10 := Nat.lt_of_le_of_lt hto hnine
  have hzero : (decide ('0'.toNat ≤ c.toNat) && decide (c.toNat < '0'.toNat + 10)) = true := by
    rw [decide_eq_true hfrom, decide_eq_true hlt]
    rfl
  have hfirst : (zeros.find? fun start => decide (start ≤ c.toNat) && decide (c.toNat < start + 10)) =
      some '0'.toNat := List.find?_cons_of_pos hzero
  rw [digit?, hfirst]
  rfl

theorem isDigit_of_isDigit {c : Char} (h : c.isDigit = true) : isDigit c = true := by
  rw [isDigit, digit?_of_isDigit h]
  rfl

/-- The digits that write a number are read as that number. -/
theorem readDigits_toDigits (n : Nat) : readDigits (Nat.toDigits 10 n) = n := by
  have hread : ∀ (cs : List Char) (total : Nat), (∀ c ∈ cs, c.isDigit = true) →
      cs.foldl (fun total c => total * 10 + (digit? c).getD 0) total = Nat.ofDigitChars 10 cs total := by
    intro cs
    induction cs with
    | nil => intro total _; simp
    | cons c cs ih =>
      intro total h
      rw [List.foldl_cons, Nat.ofDigitChars_cons, digit?_of_isDigit (h c List.mem_cons_self), Nat.mul_comm]
      exact ih _ fun d hd => h d (List.mem_cons_of_mem c hd)
  rw [readDigits, hread _ _ fun c hc => Nat.isDigit_of_mem_toDigits (by omega) (by omega) hc]
  exact Nat.ofDigitChars_ten_toDigits

/-- A text with other characters at its ends has nothing to strip. -/
theorem strip_of_ends {cs : List Char} (hne : cs ≠ []) (hhead : ∀ c, cs.head? = some c → isBlank c = false)
    (hlast : ∀ c, cs.getLast? = some c → isBlank c = false) : strip cs = cs := by
  obtain ⟨c, rest, rfl⟩ := List.exists_cons_of_ne_nil hne
  have hsplit := List.dropLast_concat_getLast hne
  exact strip_eq_self (hhead c rfl) (hlast _ (List.getLast?_eq_some_getLast hne)) hsplit.symm

/-- The first separator ends the first piece. -/
theorem pieces_append {separator : Char} {cs : List Char} (h : separator ∉ cs) (rest : List Char) :
    pieces separator (cs ++ separator :: rest) = cs :: pieces separator rest := by
  induction cs with
  | nil => simp [pieces]
  | cons c cs ih =>
    rw [List.mem_cons, not_or] at h
    have hc : (c == separator) = false := by simpa using Ne.symm h.1
    simp only [List.cons_append, pieces, hc, ih h.2, Bool.false_eq_true, if_false]

end Text

namespace Path

/-! ## Positions -/

/-- One step down: into a list at an index, into a map by a key, or by the key that an index writes. -/
inductive Member : Value → Token → Value → Prop where
  | item {items : List Value} {n : Nat} {w : Value} (h : items[n]? = some w) : Member (.list items) (.index n) w
  | field {entries : Entries Value} {name : String} {w : Value} (h : entries.get? name = some w) :
      Member (.map entries) (.key name) w
  | numbered {entries : Entries Value} {i : Int} {w : Value} (h : entries.get? (toString i) = some w) :
      Member (.map entries) (.index i) w

/-- What stands at a position of a document. -/
inductive Position : Value → List Token → Value → Prop where
  | here (v : Value) : Position v [] v
  | into {v u w : Value} {token : Token} {rest : List Token} (h : Member v token u) (hr : Position u rest w) :
      Position v (token :: rest) w

theorem step_of_member {v w : Value} {token : Token} (h : Member v token w) : step v token = .ok w := by
  cases h with
  | @item items n w h =>
    have hn : ¬(n : Int) < 0 := Int.not_lt.2 (Int.natCast_nonneg n)
    simp [step, Path.item, hn, h]
  | field h => simp [step, Value.field, h]
  | numbered h => simp only [step, Value.field, h, Option.getD_some]

/-- Without a member there, a step that does not count from the end leads to null. -/
theorem step_of_no_member {v : Value} {token : Token} (hpos : ∀ i, token = .index i → 0 ≤ i)
    (h : ∀ w, ¬Member v token w) : step v token = .ok .null := by
  cases v with
  | list items =>
    cases token with
    | key name => rfl
    | index i =>
      obtain ⟨n, rfl⟩ := Int.eq_ofNat_of_zero_le (hpos i rfl)
      have hnone : items[n]? = none := Option.eq_none_iff_forall_ne_some.2 fun w hw => h w (.item hw)
      have hn : ¬(n : Int) < 0 := Int.not_lt.2 (Int.natCast_nonneg n)
      simp [step, Path.item, hn, hnone]
  | map entries =>
    cases token with
    | key name =>
      have hnone : Entries.get? entries name = none :=
        Option.eq_none_iff_forall_ne_some.2 fun w hw => h w (.field hw)
      simp [step, Value.field, hnone]
    | index i =>
      have hnone : Entries.get? entries (toString i) = none :=
        Option.eq_none_iff_forall_ne_some.2 fun w hw => h w (.numbered hw)
      simp only [step, Value.field, hnone, Option.getD_none]
  | _ => cases token <;> rfl

/-- A walk ends at what stands at its position. -/
theorem walk_of_position {v w : Value} {tokens : List Token} (h : Position v tokens w) : walk v tokens = .ok w := by
  induction h with
  | here v => rfl
  | into hm _ ih => rw [walk_cons, step_of_member hm]; exact ih

/-- A walk to a position with nothing there ends at null. -/
theorem walk_of_no_position {v : Value} {tokens : List Token} (hpos : ∀ i, .index i ∈ tokens → 0 ≤ i)
    (h : ∀ w, ¬Position v tokens w) : walk v tokens = .ok .null := by
  induction tokens generalizing v with
  | nil => exact absurd (.here v) (h v)
  | cons token rest ih =>
    rw [walk_cons]
    by_cases hm : ∃ u, Member v token u
    · obtain ⟨u, hu⟩ := hm
      rw [step_of_member hu]
      apply ih
      · intro i hi
        exact hpos i (List.mem_cons_of_mem token hi)
      · intro w hw
        exact h w (.into hu hw)
    · rw [step_of_no_member _ fun w hw => hm ⟨w, hw⟩]
      · exact walk_null rest
      · rintro i rfl
        exact hpos i List.mem_cons_self

/-- An empty list has no members. -/
theorem not_position_nil {token : Token} {rest : List Token} {w : Value} :
    ¬Position (.list []) (token :: rest) w := by
  intro h
  cases h with
  | into hm _ =>
    cases hm with
    | item h => simp at h

/-! ## Tokens that can be written -/

/-- Whether a path can write a key: it is not empty and has none of the marks of a path. -/
structure Plain (name : String) : Prop where
  ne_nil : name.toList ≠ []
  no_point : '.' ∉ name.toList
  no_bracket : ∀ c ∈ name.toList, isBracket c = false

/-- Tokens that a path can write: keys are plain, indexes count from the front, and no blank stands at an end. -/
structure Writable (tokens : List Token) : Prop where
  ne_nil : tokens ≠ []
  plain : ∀ name, .key name ∈ tokens → Plain name
  nonneg : ∀ i, .index i ∈ tokens → 0 ≤ i
  first : ∀ name, tokens.head? = some (.key name) → ∀ c, name.toList.head? = some c → Text.isBlank c = false
  last : ∀ name, tokens.getLast? = some (.key name) → ∀ c, name.toList.getLast? = some c → Text.isBlank c = false

/-- Tokens whose indexes keep to the limit of digits. -/
def Short (tokens : List Token) : Prop :=
  ∀ i, .index i ∈ tokens → i.toNat < 10 ^ Checked.digitLimit

/-- A number in brackets. -/
def bracketed (n : Nat) : List Char :=
  '[' :: (Nat.toDigits 10 n ++ [']'])

/-- The text of tokens as they continue a path. -/
def spelled (tokens : List Token) : List Char :=
  tokens.flatMap (·.text.toList)

@[simp] theorem text_key (name : String) : (Token.key name).text.toList = '.' :: name.toList := by
  rw [Token.text, String.toList_append]
  rfl

@[simp] theorem text_index (n : Nat) : (Token.index n).text.toList = bracketed n := by
  have hn : toString (n : Int) = toString n := rfl
  rw [Token.text, hn, Nat.toString_eq_ofList_toDigits]
  simp [bracketed, String.toList_append]

@[simp] theorem spelled_cons (token : Token) (rest : List Token) :
    spelled (token :: rest) = token.text.toList ++ spelled rest := rfl

theorem toList_join_text (tokens : List Token) : (String.join (tokens.map Token.text)).toList = spelled tokens := by
  rw [String.toList_join, List.flatMap_map]
  rfl

/-- The key in front of a path is written without its point. -/
theorem render_key (name : String) (rest : List Token) :
    (render (.key name :: rest)).toList = name.toList ++ spelled rest := by
  rw [render, String.toList_append, toList_join_text]

theorem render_index (i : Int) (rest : List Token) :
    (render (.index i :: rest)).toList = spelled (.index i :: rest) :=
  toList_join_text (.index i :: rest)

/-! ## Reading what was written -/

/-- A token as it is read from its text. -/
def reread : Token → Except Fault Token
  | .key name => .ok (.key name)
  | .index i => index (Nat.toDigits 10 i.toNat)

theorem index_of_lt {n : Nat} (h : n < 10 ^ Checked.digitLimit) : index (Nat.toDigits 10 n) = .ok (.index n) := by
  have hlength : (Nat.toDigits 10 n).length ≤ Checked.digitLimit :=
    (Nat.length_toDigits_le_iff (by omega) (by decide)).2 h
  rw [index, if_neg (Nat.not_lt.2 hlength), Text.readDigits_toDigits]

theorem index_of_le {n : Nat} (h : 10 ^ Checked.digitLimit ≤ n) :
    index (Nat.toDigits 10 n) = .error (.unconvertible (.digits (Nat.toDigits 10 n).length)) := by
  have hlength : ¬(Nat.toDigits 10 n).length ≤ Checked.digitLimit := fun hle =>
    Nat.not_lt.2 h ((Nat.length_toDigits_le_iff (by omega) (by decide)).1 hle)
  rw [index, if_pos (Nat.not_le.1 hlength)]

theorem brackets_digits {digits : List Char} (h : ∀ c ∈ digits, Text.isDigit c = true) (rest : List Char) :
    ∀ {before : List Char}, before ++ digits ≠ [] →
      brackets (some before) (digits ++ ']' :: rest) = (brackets none rest).map ((before ++ digits) :: ·) := by
  induction digits with
  | nil =>
    intro before hne
    have hbefore : before.isEmpty = false := by
      rw [List.append_nil] at hne
      simpa using hne
    have hbracket : Text.isDigit ']' = false := by decide
    simp [brackets, hbracket, hbefore]
  | cons c digits ih =>
    intro before _
    rw [List.cons_append, brackets, if_pos (h c List.mem_cons_self),
      ih (fun d hd => h d (List.mem_cons_of_mem c hd)) (by simp)]
    simp

/-- Numbers in brackets are read as their digits. -/
theorem brackets_bracketed (numbers : List Nat) :
    brackets none (numbers.flatMap bracketed) = some (numbers.map (Nat.toDigits 10)) := by
  induction numbers with
  | nil => rfl
  | cons n numbers ih =>
    have hdigits : ∀ c ∈ Nat.toDigits 10 n, Text.isDigit c = true := fun c hc =>
      Text.isDigit_of_isDigit (Nat.isDigit_of_mem_toDigits (by omega) (by omega) hc)
    have hne : [] ++ Nat.toDigits 10 n ≠ [] := by simp
    rw [List.flatMap_cons, bracketed, List.cons_append, brackets, if_pos (by decide), List.append_assoc,
      List.singleton_append, brackets_digits hdigits _ hne, ih]
    rfl

theorem takeWhile_name {name : List Char} (hname : ∀ c ∈ name, isBracket c = false) (numbers : List Nat) :
    (name ++ numbers.flatMap bracketed).takeWhile (!isBracket ·) = name := by
  rw [List.takeWhile_append_of_pos (by simpa using hname)]
  cases numbers with
  | nil => simp
  | cons n numbers =>
    have hopen : isBracket '[' = true := by decide
    simp [bracketed, hopen]

/-- The tokens that a piece writes: its name, if it has one, and its numbers. -/
def pieceOf (name : List Char) (numbers : List Nat) : List Token :=
  (if name.isEmpty then [] else [.key (String.ofList name)]) ++ numbers.map fun (n : Nat) => .index n

/-- A piece is read as the tokens that it writes. -/
theorem pieceTokens_eq {name : List Char} (hname : ∀ c ∈ name, isBracket c = false) (numbers : List Nat) :
    pieceTokens (name ++ numbers.flatMap bracketed) = (pieceOf name numbers).mapM reread := by
  have hnumbers : (numbers.map fun (n : Nat) => Token.index n).mapM reread =
      (numbers.map (Nat.toDigits 10)).mapM index := by
    rw [List.mapM_map, List.mapM_map]
    rfl
  rw [pieceTokens, takeWhile_name hname]
  simp only [List.drop_left, brackets_bracketed, pieceOf, List.mapM_append, hnumbers]
  cases name with
  | nil => rfl
  | cons c cs => rfl

/-- The tokens of all pieces of a text, blanks and all. -/
def readPieces (cs : List Char) : Except Fault (List Token) :=
  List.flatten <$> (Text.pieces '.' cs).mapM pieceTokens

theorem readPieces_single {piece : List Char} (h : '.' ∉ piece) : readPieces piece = pieceTokens piece := by
  rw [readPieces, Text.pieces_of_not_mem h, List.mapM_cons]
  cases pieceTokens piece with
  | error fault => rfl
  | ok tokens => simp [pure, Except.pure, bind, Except.bind, Functor.map, Except.map]

theorem readPieces_append {piece : List Char} (h : '.' ∉ piece) (rest : List Char) :
    readPieces (piece ++ '.' :: rest) = do
      let front ← pieceTokens piece
      return front ++ (← readPieces rest) := by
  rw [readPieces, Text.pieces_append h, List.mapM_cons, readPieces]
  cases pieceTokens piece with
  | error fault => rfl
  | ok front => cases (Text.pieces '.' rest).mapM pieceTokens <;> rfl

theorem no_point_piece {name : List Char} (hname : '.' ∉ name) (numbers : List Nat) :
    '.' ∉ name ++ numbers.flatMap bracketed := by
  rw [List.mem_append, not_or]
  refine ⟨hname, ?_⟩
  intro hp
  obtain ⟨n, -, hn⟩ := List.mem_flatMap.1 hp
  simp only [bracketed, List.mem_cons, List.mem_append, List.not_mem_nil, or_false] at hn
  rcases hn with hn | hn | hn
  · exact absurd hn (by decide)
  · exact absurd (Nat.isDigit_of_mem_toDigits (by omega) (by omega) hn) (by decide)
  · exact absurd hn (by decide)

/-- The piece that is being written, and the tokens behind it, are read one by one. -/
theorem readPieces_spelled {tokens : List Token} (hplain : ∀ name, .key name ∈ tokens → Plain name)
    (hnonneg : ∀ i, .index i ∈ tokens → 0 ≤ i) :
    ∀ {name : List Char} (_ : '.' ∉ name) (_ : ∀ c ∈ name, isBracket c = false) (numbers : List Nat),
      readPieces (name ++ numbers.flatMap bracketed ++ spelled tokens) =
        (pieceOf name numbers ++ tokens).mapM reread := by
  induction tokens with
  | nil =>
    intro name hpoint hname numbers
    rw [spelled, List.flatMap_nil, List.append_nil, List.append_nil, readPieces_single (no_point_piece hpoint numbers),
      pieceTokens_eq hname]
  | cons token rest ih =>
    intro name hpoint hname numbers
    have hplain' : ∀ name, .key name ∈ rest → Plain name := fun name h => hplain name (List.mem_cons_of_mem token h)
    have hnonneg' : ∀ i, .index i ∈ rest → 0 ≤ i := fun i h => hnonneg i (List.mem_cons_of_mem token h)
    cases token with
    | key key =>
      -- the point ends the piece, and the key begins the next
      have hkey := hplain key List.mem_cons_self
      have hrest := ih hplain' hnonneg' hkey.no_point hkey.no_bracket []
      have hpiece : pieceOf key.toList [] = [.key key] := by
        simp [pieceOf, hkey.ne_nil]
      rw [hpiece, List.flatMap_nil, List.append_nil] at hrest
      rw [spelled_cons, text_key, List.cons_append, readPieces_append (no_point_piece hpoint numbers),
        pieceTokens_eq hname, hrest]
      exact List.mapM_append.symm
    | index i =>
      -- the index belongs to the piece
      obtain ⟨n, rfl⟩ := Int.eq_ofNat_of_zero_le (hnonneg i List.mem_cons_self)
      have hrest := ih hplain' hnonneg' hpoint hname (numbers ++ [n])
      have hpiece : pieceOf name (numbers ++ [n]) = pieceOf name numbers ++ [.index n] := by
        simp [pieceOf]
      rw [hpiece, List.flatMap_append, List.flatMap_singleton] at hrest
      rw [spelled_cons, text_index]
      simpa using hrest

/-! ## The ends of a path -/

namespace Writable

variable {tokens : List Token}

/-- Its text begins with the first token. -/
theorem head_render (h : Writable tokens) :
    ∀ c, (render tokens).toList.head? = some c → Text.isBlank c = false := by
  intro c hc
  obtain ⟨token, rest, rfl⟩ := List.exists_cons_of_ne_nil h.ne_nil
  cases token with
  | key name =>
    rw [render_key, List.head?_append_of_ne_nil _ (h.plain name List.mem_cons_self).ne_nil] at hc
    exact h.first name rfl c hc
  | index i =>
    obtain ⟨n, rfl⟩ := Int.eq_ofNat_of_zero_le (h.nonneg i List.mem_cons_self)
    rw [render_index, spelled_cons, text_index, bracketed] at hc
    obtain rfl : '[' = c := by simpa using hc
    decide

theorem render_eq (h : Writable tokens) :
    (render tokens).toList = spelled tokens ∨ '.' :: (render tokens).toList = spelled tokens := by
  obtain ⟨token, rest, rfl⟩ := List.exists_cons_of_ne_nil h.ne_nil
  cases token with
  | key name => right; simp [render_key]
  | index i => left; rw [render_index]

theorem render_ne_nil (h : Writable tokens) : (render tokens).toList ≠ [] := by
  obtain ⟨token, rest, rfl⟩ := List.exists_cons_of_ne_nil h.ne_nil
  cases token with
  | key name => rw [render_key]; simp [(h.plain name List.mem_cons_self).ne_nil]
  | index i =>
    obtain ⟨n, rfl⟩ := Int.eq_ofNat_of_zero_le (h.nonneg i List.mem_cons_self)
    simp [render_index, bracketed]

/-- Its text ends with the last token. -/
theorem getLast_render (h : Writable tokens) :
    ∀ c, (render tokens).toList.getLast? = some c → Text.isBlank c = false := by
  intro c hc
  have hspelled : (spelled tokens).getLast? = some c := by
    rcases h.render_eq with he | he
    · rw [← he]; exact hc
    · rw [← he, List.getLast?_cons_of_ne_nil h.render_ne_nil]; exact hc
  obtain ⟨front, token, rfl⟩ := (List.eq_nil_or_concat tokens).resolve_left h.ne_nil
  rw [spelled, List.concat_eq_append, List.flatMap_append, List.flatMap_singleton] at hspelled
  have hmem : token ∈ front.concat token := by simp
  cases token with
  | key name =>
    rw [text_key, List.getLast?_append_of_ne_nil _ (by simp),
      List.getLast?_cons_of_ne_nil (h.plain name hmem).ne_nil] at hspelled
    exact h.last name (by simp) c hspelled
  | index i =>
    obtain ⟨n, rfl⟩ := Int.eq_ofNat_of_zero_le (h.nonneg i hmem)
    rw [text_index, bracketed, ← List.cons_append, ← List.append_assoc, List.getLast?_concat] at hspelled
    obtain rfl : ']' = c := by simpa using hspelled
    decide

/-- Each token is read again. -/
theorem split_render (h : Writable tokens) : split (render tokens) = tokens.mapM reread := by
  have hstrip := Text.strip_of_ends h.render_ne_nil h.head_render h.getLast_render
  have hread : split (render tokens) = readPieces (render tokens).toList := by
    rw [split, splitChars, hstrip, readPieces]
    rfl
  rw [hread]
  obtain ⟨token, rest, rfl⟩ := List.exists_cons_of_ne_nil h.ne_nil
  cases token with
  | key name =>
    have hname := h.plain name List.mem_cons_self
    have hpiece : pieceOf name.toList [] = [.key name] := by
      simp [pieceOf, hname.ne_nil]
    have hrest := readPieces_spelled (fun n hn => h.plain n (List.mem_cons_of_mem _ hn))
      (fun i hi => h.nonneg i (List.mem_cons_of_mem _ hi)) hname.no_point hname.no_bracket []
    rw [hpiece, List.flatMap_nil, List.append_nil] at hrest
    rw [render_key]
    exact hrest
  | index i =>
    have hrest := readPieces_spelled h.plain h.nonneg (List.not_mem_nil (a := '.')) (by simp) []
    rw [render_index]
    exact hrest

end Writable

/-- Tokens within the limit of digits are read as they are. -/
theorem mapM_reread_of_short {tokens : List Token} (hnonneg : ∀ i, .index i ∈ tokens → 0 ≤ i) (h : Short tokens) :
    tokens.mapM reread = .ok tokens := by
  induction tokens with
  | nil => rfl
  | cons token rest ih =>
    have hrest := ih (fun i hi => hnonneg i (List.mem_cons_of_mem token hi)) fun i hi =>
      h i (List.mem_cons_of_mem token hi)
    have htoken : reread token = .ok token := by
      cases token with
      | key name => rfl
      | index i =>
        obtain ⟨n, rfl⟩ := Int.eq_ofNat_of_zero_le (hnonneg i List.mem_cons_self)
        exact index_of_lt (h n List.mem_cons_self)
    rw [List.mapM_cons, htoken, hrest]
    rfl

/-- An index beyond the limit of digits cannot be read. -/
theorem mapM_reread_of_not_short {tokens : List Token} (h : ¬Short tokens) :
    ∃ fault, tokens.mapM reread = .error fault := by
  induction tokens with
  | nil => exact absurd (fun i hi => by simp at hi) h
  | cons token rest ih =>
    rw [List.mapM_cons]
    cases htoken : reread token with
    | error fault => exact ⟨fault, rfl⟩
    | ok token' =>
      have hrest : ¬Short rest := by
        intro hs
        apply h
        intro i hi
        rcases List.mem_cons.1 hi with rfl | hi
        · apply Nat.not_le.1
          intro hle
          rw [reread, index_of_le hle] at htoken
          cases htoken
        · exact hs i hi
      obtain ⟨fault, hf⟩ := ih hrest
      exact ⟨fault, by rw [hf]; rfl⟩

/-- A path with such an index cannot be followed, in no document. -/
theorem Writable.unreadable {tokens : List Token} (h : Writable tokens) (hlong : ¬Short tokens) :
    ∃ fault, split (render tokens) = .error fault ∧ ∀ v, get v (render tokens) = .error fault := by
  obtain ⟨fault, hfault⟩ := mapM_reread_of_not_short hlong
  have hsplit : split (render tokens) = .error fault := by
    rw [h.split_render, hfault]
  refine ⟨fault, hsplit, ?_⟩
  intro v
  rw [get, hsplit]
  rfl

theorem writable_index (n : Nat) : Writable [.index n] := by
  refine ⟨by simp, ?_, ?_, ?_, ?_⟩
  · intro name hname
    simp at hname
  · intro i hi
    obtain rfl : i = n := by simpa using hi
    exact Int.natCast_nonneg n
  · intro name hname
    simp at hname
  · intro name hname
    simp at hname

theorem not_short_index {n : Nat} (h : 10 ^ Checked.digitLimit ≤ n) : ¬Short [.index n] := by
  intro hshort
  have hn := hshort n (List.mem_singleton_self _)
  rw [Int.toNat_natCast] at hn
  exact Nat.not_lt.2 h hn

/-- Tokens are written to a path that leads, in every document, to what stands at their position, and to null where
nothing stands; unless an index is beyond the limit of digits, for then no document can be read by the path. -/
theorem get_render {tokens : List Token} (h : Writable tokens) :
    (Short tokens → split (render tokens) = .ok tokens ∧
      (∀ v w, Position v tokens w → get v (render tokens) = .ok w) ∧
      ∀ v, (∀ w, ¬Position v tokens w) → get v (render tokens) = .ok .null) ∧
    (¬Short tokens → ∃ fault, split (render tokens) = .error fault ∧ ∀ v, get v (render tokens) = .error fault) := by
  constructor
  · intro hshort
    have hsplit : split (render tokens) = .ok tokens := by
      rw [h.split_render, mapM_reread_of_short h.nonneg hshort]
    have hget : ∀ v, get v (render tokens) = walk v tokens := by
      intro v
      rw [get, hsplit]
      rfl
    refine ⟨hsplit, ?_, ?_⟩
    · intro v w hw
      rw [hget, walk_of_position hw]
    · intro v hno
      rw [hget, walk_of_no_position h.nonneg hno]
  · intro hlong
    exact h.unreadable hlong

/-- A key written in digits, below two indexes. -/
def sampleTokens : List Token :=
  [.key "items", .index 1, .index 0, .key "7"]

theorem writable_sampleTokens : Writable sampleTokens := by
  have hplain : Plain "items" ∧ Plain "7" :=
    ⟨⟨by decide, by decide, by simp [isBracket]⟩, ⟨by decide, by decide, by simp [isBracket]⟩⟩
  refine ⟨by simp [sampleTokens], ?_, ?_, ?_, ?_⟩
  · intro name hname
    simp only [sampleTokens, List.mem_cons, Token.key.injEq, reduceCtorEq, false_or, List.not_mem_nil,
      or_false] at hname
    rcases hname with rfl | rfl
    · exact hplain.1
    · exact hplain.2
  · intro i hi
    simp only [sampleTokens, List.mem_cons, Token.index.injEq, reduceCtorEq, false_or, List.not_mem_nil, or_false] at hi
    omega
  · intro name hname c hc
    obtain rfl : "items" = name := by simpa [sampleTokens] using hname
    obtain rfl : 'i' = c := by simpa using hc
    decide
  · intro name hname c hc
    obtain rfl : "7" = name := by simpa [sampleTokens] using hname
    obtain rfl : '7' = c := by simpa using hc
    decide

/-- The path of the sample in a document that has its position, and in one that ends before it. -/
theorem get_render_sample :
    Writable sampleTokens ∧ Short sampleTokens ∧ split "items[1][0].7" = .ok sampleTokens ∧
      get (.map [("items", .list [.null, .list [.map [("7", .str "x")]]])]) "items[1][0].7" = .ok (.str "x") ∧
      get (.map [("items", .list [])]) "items[1][0].7" = .ok .null := by
  have hshort : Short sampleTokens := by
    intro i hi
    have hone : i.toNat ≤ 1 := by
      simp only [sampleTokens, List.mem_cons, Token.index.injEq, reduceCtorEq, false_or, List.not_mem_nil,
        or_false] at hi
      omega
    exact Nat.lt_of_le_of_lt hone (Nat.one_lt_pow (by decide) (by omega))
  have hpath : render sampleTokens = "items[1][0].7" := by decide
  obtain ⟨hsplit, hthere, hnowhere⟩ := (get_render writable_sampleTokens).1 hshort
  rw [hpath] at hsplit hthere hnowhere
  refine ⟨writable_sampleTokens, hshort, hsplit, hthere _ _ ?_, hnowhere _ ?_⟩
  · have h0 : Member (.list [.map [("7", .str "x")]]) (.index 0) (.map [("7", .str "x")]) :=
      Member.item (n := 0) rfl
    have h1 : Member (.list [.null, .list [.map [("7", .str "x")]]]) (.index 1) (.list [.map [("7", .str "x")]]) :=
      Member.item (n := 1) rfl
    exact .into (.field rfl) (.into h1 (.into h0 (.into (.field rfl) (.here _))))
  · intro w hw
    cases hw with
    | into h hr =>
      cases h with
      | field h =>
        obtain rfl := Option.some.inj h
        exact not_position_nil hr

/-- One index, the first beyond the limit of digits. -/
def longTokens : List Token :=
  [.index (10 ^ Checked.digitLimit : Nat)]

/-- It is past the end of an empty list, but its path does not lead to null. -/
theorem not_every_index :
    Writable longTokens ∧ (∀ w, ¬Position (.list []) longTokens w) ∧
      split (render longTokens) ≠ .ok longTokens ∧ get (.list []) (render longTokens) ≠ .ok .null := by
  obtain ⟨fault, hsplit, hget⟩ := (writable_index _).unreadable (not_short_index (Nat.le_refl _))
  refine ⟨writable_index _, fun w => not_position_nil, ?_, ?_⟩
  · rw [longTokens, hsplit]
    intro h
    cases h
  · rw [longTokens, hget]
    intro h
    cases h

end Path

end WorkGraph
