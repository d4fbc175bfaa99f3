import WorkGraph.Proofs.Producers
import WorkGraph.Proofs.Slots

/-!
# When a condition can be evaluated

The field of a condition is resolved, unless its text writes an index beyond the limit of digits
(`Template.overlong_of_evaluate`). Operators that compare numbers go over doubles, and some values count as numbers and
have none (`Value.Unreal`); every other comparison has a result (`Condition.Operator.exists_holds`). So the outcome of a
condition with a supported operator is told by its field and its fixed value, and that of any other by its operator
(`Condition.evaluated_or_refused`). Numbers without doubles and operators that are lists or maps are what keeps an
unsupported operator from being the only reason for a fault (`Condition.not_only_unsupported`).
-/

namespace WorkGraph

/-! ## Indexes beyond the limit of digits -/

/-- A fault of a step over a list is that of one of its members. -/
theorem exists_of_mapM_error {α β : Type} {f : α → Except Fault β} {as : List α} {fault : Fault}
    (h : as.mapM f = .error fault) : ∃ a ∈ as, f a = .error fault := by
  induction as with
  | nil => cases h
  | cons a rest ih =>
    rw [List.mapM_cons] at h
    cases ha : f a with
    | error other =>
      rw [ha] at h
      obtain rfl := Except.error.inj h
      exact ⟨a, List.mem_cons_self, ha⟩
    | ok b =>
      rw [ha] at h
      cases hrest : rest.mapM f with
      | ok bs => simp [bind, Except.bind, pure, Except.pure, hrest] at h
      | error other =>
        simp only [bind, Except.bind, hrest, Except.error.injEq] at h
        obtain ⟨b, hb, hfault⟩ := ih (h ▸ hrest)
        exact ⟨b, List.mem_cons_of_mem a hb, hfault⟩

namespace Text

theorem length_strip_le (cs : List Char) : (strip cs).length ≤ cs.length := by
  obtain ⟨before, after, -, -, hcs⟩ := exists_strip cs
  have hlength := congrArg List.length hcs
  simp only [List.length_append] at hlength
  omega

theorem length_le_of_mem_pieces {separator : Char} {cs piece : List Char} (h : piece ∈ pieces separator cs) :
    piece.length ≤ cs.length := by
  rw [← join_pieces separator cs]
  generalize pieces separator cs = parts at h
  induction parts with
  | nil => cases h
  | cons first rest ih =>
    rcases List.mem_cons.1 h with rfl | h
    · cases rest <;> simp [List.intercalate, List.intersperse]
    · cases rest with
      | nil => cases h
      | cons second rest =>
        have hrest := ih h
        simp only [List.intercalate, List.intersperse_cons_cons, List.flatten_cons, List.length_append] at hrest ⊢
        omega

end Text

namespace Path

/-- A fault that says of an index among so many characters that it is beyond the limit of digits. -/
def Overlong (length : Nat) (fault : Fault) : Prop :=
  ∃ count, fault = .unconvertible (.digits count) ∧ Checked.digitLimit < count ∧ count ≤ length

variable {fault : Fault}

theorem Overlong.mono {m n : Nat} (h : Overlong m fault) (hmn : m ≤ n) : Overlong n fault := by
  obtain ⟨count, hf, hlimit, hcount⟩ := h
  exact ⟨count, hf, hlimit, Nat.le_trans hcount hmn⟩

/-- The digits of an index stand within its brackets. -/
theorem length_of_brackets {inside : Option (List Char)} {cs : List Char} {runs : List (List Char)}
    (h : brackets inside cs = some runs) : ∀ run ∈ runs, run.length ≤ (inside.getD []).length + cs.length := by
  induction cs generalizing inside runs with
  | nil =>
    cases inside with
    | none =>
      obtain rfl := Option.some.inj h
      simp
    | some digits => cases h
  | cons c cs ih =>
    intro run hrun
    rw [List.length_cons]
    cases inside with
    | none =>
      rw [brackets] at h
      split at h
      · have hlength := ih h run hrun
        simp only [Option.getD_some, Option.getD_none, List.length_nil] at hlength ⊢
        omega
      · split at h
        · obtain rfl := Option.some.inj h
          cases hrun
        · cases h
    | some digits =>
      rw [brackets] at h
      rw [Option.getD_some]
      split at h
      · have hlength := ih h run hrun
        simp only [Option.getD_some, List.length_append, List.length_singleton] at hlength
        omega
      · split at h
        · obtain ⟨others, hothers, rfl⟩ := Option.map_eq_some_iff.1 h
          rcases List.mem_cons.1 hrun with rfl | hrun
          · omega
          · have hlength := ih hothers run hrun
            simp only [Option.getD_none, List.length_nil] at hlength
            omega
        · cases h

theorem overlong_of_pieceTokens {piece : List Char} (h : pieceTokens piece = .error fault) :
    Overlong piece.length fault := by
  unfold pieceTokens at h
  dsimp only at h
  split at h
  · cases h
  · next runs hruns =>
    cases hindexes : runs.mapM index with
    | ok indexes => rw [hindexes] at h; cases h
    | error other =>
      rw [hindexes] at h
      obtain rfl := Except.error.inj h
      obtain ⟨run, hrun, hindex⟩ := exists_of_mapM_error hindexes
      have hlength := length_of_brackets hruns run hrun
      rw [List.length_drop, Option.getD_none, List.length_nil] at hlength
      unfold index at hindex
      split at hindex
      · next hlimit =>
        obtain rfl := Except.error.inj hindex
        exact ⟨run.length, rfl, hlimit, by omega⟩
      · cases hindex

theorem overlong_of_splitChars {cs : List Char} (h : splitChars cs = .error fault) : Overlong cs.length fault := by
  unfold splitChars at h
  cases hpieces : (Text.pieces '.' (Text.strip cs)).mapM pieceTokens with
  | ok parts => rw [hpieces] at h; cases h
  | error other =>
    rw [hpieces] at h
    obtain rfl := Except.error.inj h
    obtain ⟨piece, hpiece, htokens⟩ := exists_of_mapM_error hpieces
    exact (overlong_of_pieceTokens htokens).mono
      (Nat.le_trans (Text.length_le_of_mem_pieces hpiece) (Text.length_strip_le cs))

/-- A path that was read is followed. -/
theorem overlong_of_get {v : Value} {path : String} (h : get v path = .error fault) :
    Overlong path.toList.length fault := by
  cases hsplit : split path with
  | error other =>
    rw [get_unreadable hsplit] at h
    obtain rfl := Except.error.inj h
    exact overlong_of_splitChars hsplit
  | ok tokens =>
    obtain ⟨w, hw⟩ := exists_get hsplit v
    rw [hw] at h
    cases h

end Path

namespace Scope

variable {fault : Fault}

theorem overlong_of_firstField {s : Scope} {field : String} {nodes : List String}
    (h : s.firstField field nodes = .error fault) : Path.Overlong field.toList.length fault := by
  induction nodes with
  | nil => cases h
  | cons node rest ih =>
    rw [firstField] at h
    cases hroot : s.root node with
    | null | bool | num | str | list => rw [hroot] at h; exact ih h
    | map output =>
      rw [hroot] at h
      dsimp only at h
      cases hfield : fieldOf output field with
      | error other =>
        rw [hfield] at h
        obtain rfl := Except.error.inj h
        unfold fieldOf at hfield
        dsimp only at hfield
        split at hfield
        · exact Path.overlong_of_get hfield
        · cases hfield
      | ok value =>
        rw [hfield] at h
        change (if value.isNull then s.firstField field rest else pure value) = _ at h
        split at h
        · exact ih h
        · cases h

/-- What a running context is asked for is found or null, unless an index is too long. -/
theorem overlong_of_resolve {c : Context} {path : List Char} (h : (live c).resolve path = .error fault) :
    Path.Overlong path.length fault := by
  refine Path.Overlong.mono ?_ (Text.length_strip_le path)
  unfold resolve at h
  generalize Text.strip path = path at h
  unfold resolveTrimmed at h
  dsimp only at h
  split at h
  · cases h
  · split at h
    · split at h
      · cases h
      · refine (overlong_of_firstField h).mono ?_
        rw [String.toList_ofList, cutAtPoint, List.length_drop, List.length_drop]
        omega
    · cases htokens : Path.splitChars path with
      | error other =>
        rw [htokens] at h
        obtain rfl := Except.error.inj h
        exact Path.overlong_of_splitChars htokens
      | ok tokens =>
        rw [htokens] at h
        have hsplit : Path.split (String.ofList path) = .ok tokens := by rw [Path.split, String.toList_ofList, htokens]
        have hnonneg := Path.nonneg_of_split hsplit
        cases tokens with
        | nil => cases h
        | cons token rest =>
          cases token with
          | index i => cases h
          | key name =>
            change (if ((live c).root name).isNull then pure .null else Path.walk ((live c).root name) rest) = _ at h
            obtain ⟨w, hw⟩ := Path.exists_walk (fun i hi => hnonneg i (List.mem_cons_of_mem _ hi)) ((live c).root name)
            rw [hw] at h
            split at h <;> cases h

end Scope

namespace Template

variable {c : Context} {fault : Fault}

theorem overlong_of_fillText {t : String} (h : fillText (.live c) t = .error fault) :
    Path.Overlong t.toList.length fault := by
  rw [fillText_eq] at h
  cases hparts : (parts t.toList).mapM (Part.fill (.live c)) with
  | ok texts => rw [hparts] at h; cases h
  | error other =>
    rw [hparts] at h
    obtain rfl := Except.error.inj h
    obtain ⟨part, hpart, hfill⟩ := exists_of_mapM_error hparts
    cases part with
    | verbatim => cases hfill
    | slot path =>
      have hlength : path.length ≤ t.toList.length := by
        rw [← source_parts t.toList]
        obtain ⟨front, back, hsplit⟩ := List.append_of_mem hpart
        rw [hsplit, List.flatMap_append, List.flatMap_cons, Part.source_slot]
        simp only [List.length_append, List.length_cons]
        omega
      rw [Part.fill] at hfill
      cases hresolve : (Scope.live c).resolve path with
      | ok v => rw [hresolve] at hfill; cases hfill
      | error other =>
        rw [hresolve] at hfill
        obtain rfl := Except.error.inj hfill
        exact (Scope.overlong_of_resolve hresolve).mono hlength

/-- An expression has a value in every running context, unless it is a text with an index that is too long. -/
theorem overlong_of_evaluate {v : Value} (h : evaluate (.live c) v = .error fault) :
    ∃ text, v = .str text ∧ Path.Overlong text.toList.length fault := by
  cases v with
  | null | bool | num | list | map => cases h
  | str text =>
    refine ⟨text, rfl, ?_⟩
    rw [evaluate] at h
    split at h
    · next path hsingle =>
      refine (Scope.overlong_of_resolve h).mono (Nat.le_trans ?_ (Text.length_strip_le text.toList))
      rw [(single?_iff_strip.1 hsingle).2, Part.source_slot]
      simp only [List.length_append, List.length_cons]
      omega
    · split at h
      · cases hfill : fillText (.live c) text with
        | ok filled => rw [hfill] at h; cases h
        | error other =>
          rw [hfill] at h
          obtain rfl := Except.error.inj h
          exact overlong_of_fillText hfill
      · exact Scope.overlong_of_resolve h

end Template

/-! ## Numbers without a double -/

namespace Value

/-- What counts as a number and has no double: an integer out of their range, and a text with an information separator
beside its numeral. -/
inductive Unreal : Value → Prop where
  | oversized {n : Int} (h : Number.inRange n = false) : Unreal (.num (.int n))
  | separated {s : String} (hn : (numeral? s).isSome = true) (h : s.toList.any Text.isSeparator = true) :
      Unreal (.str s)

/-- A fault that says of a value that it has no double. -/
def Refusal (fault : Fault) : Prop :=
  fault = .tooLarge ∨ ∃ text, fault = .unconvertible (.real text)

variable {v w : Value}

theorem Unreal.isNumeric (h : v.Unreal) : v.isNumeric = true := by
  cases h with
  | oversized => rfl
  | separated hn => exact hn

theorem Unreal.real (h : v.Unreal) : ∃ fault, v.real = .error fault ∧ Refusal fault := by
  cases h with
  | oversized hr =>
    refine ⟨.tooLarge, ?_, .inl rfl⟩
    rw [Value.real, Number.toDouble?, Number.doubleOfInt?, if_neg (by simp [hr])]
    rfl
  | @separated s hn hs =>
    obtain ⟨n, hnumeral⟩ := Option.isSome_iff_exists.1 hn
    exact ⟨.unconvertible (.real s), by simp [Value.real, hnumeral, hs], .inr ⟨s, rfl⟩⟩

/-- Every other number has one. -/
theorem exists_real (hn : v.isNumeric = true) (h : ¬v.Unreal) : ∃ x, v.real = .ok x := by
  cases v with
  | null | bool | list | map => cases hn
  | num n =>
    cases n with
    | float x => exact ⟨x, rfl⟩
    | int n =>
      cases hr : Number.inRange n with
      | false => exact absurd (.oversized hr) h
      | true => exact ⟨_, by rw [real, Number.toDouble?, Number.doubleOfInt?, if_pos hr]; rfl⟩
  | str s =>
    obtain ⟨n, hnumeral⟩ := Option.isSome_iff_exists.1 (show (numeral? s).isSome = true from hn)
    cases hs : s.toList.any Text.isSeparator with
    | true => exact absurd (.separated hn hs) h
    | false => exact ⟨n.real, by simp [real, hnumeral, hs]⟩

/-! ## Comparing numbers -/

/-- Two values that count as numbers, one of which has no double. -/
structure Incomparable (v w : Value) : Prop where
  left : v.isNumeric = true
  right : w.isNumeric = true
  unreal : v.Unreal ∨ w.Unreal

/-- An outcome of a comparison that has a result unless a double is missing. -/
def Compared (v w : Value) (out : Except Fault Bool) : Prop :=
  (¬v.Incomparable w → ∃ b, out = .ok b) ∧ (v.Incomparable w → ∃ fault, out = .error fault ∧ Refusal fault)

/-- Values that are not both numbers are comparable. -/
theorem Compared.of_ok (h : (v.isNumeric && w.isNumeric) = false) {out : Except Fault Bool} (hout : ∃ b, out = .ok b) :
    Compared v w out := by
  refine ⟨fun _ => hout, fun hi => ?_⟩
  rw [hi.left, hi.right] at h
  cases h

/-- Of two numbers the doubles are compared. -/
theorem Compared.of_reals (h : (v.isNumeric && w.isNumeric) = true) (relation : Double → Double → Bool) :
    Compared v w (do
      let x ← v.real
      let y ← w.real
      return relation x y) := by
  obtain ⟨hv, hw⟩ := Bool.and_eq_true_iff.1 h
  constructor
  · intro hi
    obtain ⟨x, hx⟩ := exists_real hv fun hu => hi ⟨hv, hw, .inl hu⟩
    obtain ⟨y, hy⟩ := exists_real hw fun hu => hi ⟨hv, hw, .inr hu⟩
    exact ⟨relation x y, by rw [hx, hy]; rfl⟩
  · intro hi
    by_cases hu : v.Unreal
    · obtain ⟨fault, hfault, hr⟩ := hu.real
      exact ⟨fault, by rw [hfault]; rfl, hr⟩
    · obtain ⟨x, hx⟩ := exists_real hv hu
      obtain ⟨fault, hfault, hr⟩ := (hi.unreal.resolve_left hu).real
      exact ⟨fault, by rw [hx, hfault]; rfl, hr⟩

theorem compared_comparesBy (relation : Double → Double → Bool) (v w : Value) :
    Compared v w (v.comparesBy relation w) := by
  unfold comparesBy
  split
  · next h => exact .of_reals h relation
  · next h => exact .of_ok (by simpa using h) ⟨false, rfl⟩

/-- The cases that remain between values that are not null. -/
theorem looseEquals_of_not_null (hv : v ≠ null) (hw : w ≠ null) :
    v.looseEquals w =
      if v.isBool || w.isBool then .ok (v.isEmpty == w.isEmpty)
      else if v.isNumeric && w.isNumeric then do
        let x ← v.real
        let y ← w.real
        return x.same y
      else if v.isCollection || w.isCollection then .ok (v.same w)
      else .ok (v.display == w.display) := by
  have hplain : ∀ {u : Value}, u ≠ null → u.isNull = false := by
    intro u hu
    cases u with
    | null => exact absurd rfl hu
    | bool | num | str | list | map => rfl
  unfold looseEquals
  rw [hplain hv, hplain hw]
  rfl

/-- Numbers are neither null nor truth values, so that two of them are compared as doubles. -/
theorem looseEquals_of_isNumeric (h : (v.isNumeric && w.isNumeric) = true) :
    v.looseEquals w = do
      let x ← v.real
      let y ← w.real
      return x.same y := by
  have hplain : ∀ {u : Value}, u.isNumeric = true → u ≠ null ∧ u.isBool = false := by
    intro u hu
    cases u with
    | null | bool | list | map => cases hu
    | num | str => exact ⟨Value.noConfusion, rfl⟩
  obtain ⟨hv, hw⟩ := Bool.and_eq_true_iff.1 h
  rw [looseEquals_of_not_null (hplain hv).1 (hplain hw).1, (hplain hv).2, (hplain hw).2, h]
  rfl

theorem compared_looseEquals (v w : Value) : Compared v w (v.looseEquals w) := by
  cases h : v.isNumeric && w.isNumeric with
  | true =>
    rw [looseEquals_of_isNumeric h]
    exact .of_reals h Double.same
  | false =>
    refine .of_ok h ?_
    unfold looseEquals
    rw [h, if_neg Bool.false_ne_true]
    repeat' split
    all_goals exact ⟨_, rfl⟩

end Value

namespace Condition

/-! ## Operators -/

namespace Operator

/-- Whether an operator compares numbers as doubles. -/
def comparesNumbers : Operator → Bool
  | equals | notEquals | greaterThan | lessThan => true
  | contains | .exists | empty => false

/-- Whether an operator compares two values as numbers of which one has no double. -/
def Refuses (op : Operator) (v w : Value) : Prop :=
  op.comparesNumbers = true ∧ v.Incomparable w

variable {op : Operator} {v w : Value}

theorem compared_holds (h : op.comparesNumbers = true) (v w : Value) : v.Compared w (op.holds v w) := by
  cases op with
  | equals => exact Value.compared_looseEquals v w
  | greaterThan | lessThan => exact Value.compared_comparesBy _ v w
  | contains | «exists» | empty => cases h
  | notEquals =>
    obtain ⟨hok, herror⟩ := Value.compared_looseEquals v w
    constructor
    · intro hi
      obtain ⟨b, hb⟩ := hok hi
      exact ⟨!b, by rw [holds, hb]; rfl⟩
    · intro hi
      obtain ⟨fault, hfault, hr⟩ := herror hi
      exact ⟨fault, by rw [holds, hfault]; rfl, hr⟩

theorem exists_holds (h : ¬op.Refuses v w) : ∃ b, op.holds v w = .ok b := by
  cases hc : op.comparesNumbers with
  | true => exact (compared_holds hc v w).1 fun hi => h ⟨hc, hi⟩
  | false =>
    cases op with
    | equals | notEquals | greaterThan | lessThan => cases hc
    | contains | «exists» | empty => exact ⟨_, rfl⟩

theorem Refuses.holds (h : op.Refuses v w) : ∃ fault, op.holds v w = .error fault ∧ Value.Refusal fault :=
  (compared_holds h.1 v w).2 h.2

theorem ofName?_eq_none {name : String} (h : ∀ op : Operator, name ≠ op.name) : ofName? name = none := by
  cases hf : ofName? name with
  | none => rfl
  | some op =>
    have hname := List.find?_some hf
    exact absurd (beq_iff_eq.1 hname).symm (h op)

end Operator

/-! ## Outcomes -/

variable {config : Entries Value} {node : String} {s : Scope}

/-- The field that a condition asks for, as its author wrote it. -/
def asked (config : Entries Value) : Value :=
  (config.get? "field").getD (.str "")

/-- The value that a condition compares with. -/
def fixed (config : Entries Value) : Value :=
  (config.get? "value").getD (.str "")

/-- The name of an operator that a condition gives; an operator that counts as nothing is as good as none. -/
def named (config : Entries Value) : Value :=
  (Value.field config "operator").orElse (.str Operator.equals.name)

/-- What a condition node puts out: the result, and what it was computed from. -/
def outcome (config : Entries Value) (op : Operator) (fieldValue : Value) (result : Bool) : Value :=
  .map [("result", .bool result), ("field", asked config), ("field_value", fieldValue), ("operator", .str op.name),
    ("compare_value", fixed config)]

/-- The fault of a node whose operator is no supported one. -/
def unsupported (node : String) (operator : Value) : Fault :=
  .failed
    { kind := .configuration
      node
      type := NodeType.condition.name
      message := "Unsupported condition operator '" ++ operator.display ++
        "'. Supported: equals, not_equals, contains, greater_than, less_than, exists, empty"
      output := .null }

theorem operator_unsupported (node : String) (v : Value) : operator.unsupported node v = .error (unsupported node v) := by
  have hsupported : "'. Supported: " ++ String.intercalate ", " (Operator.all.map Operator.name) =
      "'. Supported: equals, not_equals, contains, greater_than, less_than, exists, empty" := by decide +kernel
  unfold operator.unsupported unsupported
  rw [String.append_assoc, hsupported]

theorem operator_of_named {op : Operator} (h : named config = .str op.name) :
    operator node (Value.field config "operator") = .ok op := by
  rw [operator, show (Value.field config "operator").orElse _ = _ from h]
  dsimp only
  rw [Operator.ofName?_name]
  rfl

theorem evaluate_of_operator {op : Operator} (h : named config = .str op.name) {v : Value}
    (hv : Template.evaluate s (asked config) = .ok v) :
    evaluate config s node = outcome config op v <$> op.holds v (fixed config) := by
  unfold evaluate
  dsimp only
  rw [operator_of_named h, show Template.evaluate s ((config.get? "field").getD (.str "")) = .ok v from hv]
  show (op.holds v (fixed config) >>= _) = _
  cases op.holds v (fixed config) <;> rfl

theorem evaluate_of_field {op : Operator} (h : named config = .str op.name) {fault : Fault}
    (hv : Template.evaluate s (asked config) = .error fault) : evaluate config s node = .error fault := by
  unfold evaluate
  dsimp only
  rw [operator_of_named h, show Template.evaluate s ((config.get? "field").getD (.str "")) = .error fault from hv]
  rfl

/-- What names no operator is refused before the field is resolved: as unsupported if it can be looked up, and as
nothing to look up by if it is a list or a map. -/
theorem evaluate_of_unsupported (h : ∀ op : Operator, named config ≠ .str op.name) :
    evaluate config s node =
      .error (if (named config).isKey then unsupported node (named config) else .misuse (.asKey (named config).kindName)) := by
  have hop : operator node (Value.field config "operator") =
      .error (if (named config).isKey then unsupported node (named config)
        else .misuse (.asKey (named config).kindName)) := by
    rw [operator, show (Value.field config "operator").orElse _ = named config from rfl]
    generalize named config = name at h
    cases name with
    | list | map => rfl
    | null | bool | num => exact operator_unsupported node _
    | str name =>
      dsimp only
      rw [Operator.ofName?_eq_none fun op he => h op (congrArg Value.str he)]
      exact operator_unsupported node _
  unfold evaluate
  dsimp only
  rw [hop]
  rfl

end Condition

end WorkGraph
