import WorkGraph.Fault
import WorkGraph.Json.Reader
import WorkGraph.Text.Blank

/-!
# Reading records from documents

A record is read field by field, and every field that does not fit is reported, not only the first: `Checked` is a value
or the list of all misfits, and its `<*>` collects those of both sides (`seq_bad_bad`). The readers take a document to
the type of a field; integers are read from integral doubles, truth values and numerals as well.
-/

namespace WorkGraph

/-- A value, or everything that keeps it from being one. -/
inductive Checked (α : Type) where
  | ok (value : α)
  | bad (misfits : List Misfit)

namespace Checked

variable {α β : Type}

instance : Applicative Checked where
  pure := ok
  seq f x := match f, x () with
    | ok f, ok a => ok (f a)
    | ok _, bad m => bad m
    | bad m, ok _ => bad m
    | bad m, bad n => bad (m ++ n)

/-- The misfits seen from outside a key. -/
def under (key : String) : Checked α → Checked α
  | ok a => ok a
  | bad misfits => bad (misfits.map (Misfit.under key))

/-- A single problem in place. -/
def problem (p : FieldProblem) : Checked α :=
  bad [⟨[], p⟩]

/-- The value of a record of the given name, or a fault. -/
def orFault (record : String) : Checked α → Except Fault α
  | ok a => .ok a
  | bad misfits => .error (.misfit record misfits)

@[simp] theorem seq_ok_ok (f : α → β) (a : α) : (ok f <*> ok a : Checked β) = ok (f a) := rfl

@[simp] theorem seq_bad_bad (m n : List Misfit) : ((bad m : Checked (α → β)) <*> bad n) = bad (m ++ n) := rfl

@[simp] theorem seq_bad_ok (m : List Misfit) (a : α) : ((bad m : Checked (α → β)) <*> ok a) = bad m := rfl

@[simp] theorem seq_ok_bad (f : α → β) (m : List Misfit) : (ok f <*> (bad m : Checked α)) = bad m := rfl

@[simp] theorem map_ok (f : α → β) (a : α) : (f <$> ok a : Checked β) = ok (f a) := rfl

@[simp] theorem map_bad (f : α → β) (m : List Misfit) : (f <$> (bad m : Checked α)) = bad m := rfl

@[simp] theorem pure_eq (a : α) : (pure a : Checked α) = ok a := rfl

@[simp] theorem under_ok (key : String) (a : α) : (ok a).under key = ok a := rfl

/-! ## Readers of one value -/

/-- Any value at all. -/
def any (v : Value) : Checked Value := ok v

def text : Value → Checked String
  | .str s => ok s
  | _ => problem .notText

/-- A text or null. -/
def text? : Value → Checked (Option String)
  | .null => ok none
  | .str s => ok (some s)
  | _ => problem .notText

def map : Value → Checked (Entries Value)
  | .map entries => ok entries
  | _ => problem .notMap

@[simp] theorem text_str (s : String) : text (.str s) = ok s := rfl

@[simp] theorem text?_ofText? (s : Option String) : text? (Value.ofText? s) = ok s := by
  cases s <;> rfl

/-- A word of a fixed list. -/
def word (read : String → Option α) : Value → Checked α
  | .str s => (read s).elim (problem .notListed) ok
  | _ => problem .notListed

theorem word_str {read : String → Option α} {s : String} {a : α} (h : read s = some a) :
    word read (.str s) = ok a := by
  simp [word, h]

/-- The members of a list, their misfits under their positions. -/
def items (read : Value → Checked α) : (position : Nat) → List Value → Checked (List α)
  | _, [] => ok []
  | position, v :: rest => List.cons <$> (read v).under (toString position) <*> items read (position + 1) rest

/-- Members that are read back one by one are read back as a list. -/
theorem items_map {write : α → Value} {read : Value → Checked α} (h : ∀ a, read (write a) = ok a) (position : Nat)
    (members : List α) : items read position (members.map write) = ok members := by
  induction members generalizing position with
  | nil => rfl
  | cons a rest ih => simp [items, h, ih]

/-- A list of such values. -/
def list (read : Value → Checked α) : Value → Checked (List α)
  | .list members => items read 0 members
  | _ => problem .notList

/-! ## Integers -/

/-- The most characters of an integer in a text. -/
def digitLimit : Nat := 4300

/-- An integer with an optional minus sign and no leading zero. -/
def plainInteger? (cs : List Char) : Option Int :=
  let negative := cs.head? == some '-'
  let digits := if negative then cs.drop 1 else cs
  if digits.isEmpty || !digits.all Char.isDigit || (digits.head? == some '0' && digits.length != 1) then none
  else
    let magnitude : Int := Json.decimalOf digits
    some (if negative then -magnitude else magnitude)

/-- Whether an integer in front of a text is too long, its sign included. -/
def isOverlong (cs : List Char) : Bool :=
  let digits := (if cs.head? == some '-' then cs.drop 1 else cs).takeWhile Char.isDigit
  digits.head? != some '0' && !digits.isEmpty &&
    decide (digitLimit < digits.length + (if cs.head? == some '-' then 1 else 0))

/-- What follows zeros and underscores in front: from the first other digit on, or from before a point on. Of zeros
alone the last character is left. -/
def behindZeros (last : Char) : List Char → Option (List Char)
  | [] => some [last]
  | c :: rest =>
    if c == '0' || c == '_' then behindZeros c rest
    else if c == '.' then some (last :: c :: rest)
    else if c.isDigit then some (c :: rest)
    else none

/-- A text that starts with a digit, without zeros in front. -/
def dropZeros : List Char → Option (List Char)
  | [] => none
  | c :: rest => if c == '0' then behindZeros c rest else if c.isDigit then some (c :: rest) else none

/-- Without a point and zeros behind it. -/
def dropPoint (cs : List Char) : List Char :=
  let whole := cs.takeWhile (· != '.')
  match cs.drop whole.length with
  | '.' :: zeros => if zeros.all (· == '0') then whole else cs
  | _ => cs

/-- Without single underscores between other characters. -/
def dropUnderscores (cs : List Char) : List Char :=
  let doubled := (cs.zip (cs.drop 1)).any fun pair => pair.1 == '_' && pair.2 == '_'
  if cs.head? == some '_' || cs.getLast? == some '_' || doubled then cs else cs.filter (· != '_')

/-- The minus sign of a text, and what follows a sign. A plus sign goes with no minus sign. -/
def cutSign (cs : List Char) : List Char × List Char :=
  match cs with
  | '+' :: rest => ([], rest)
  | '-' :: rest => (['-'], rest)
  | _ => ([], cs)

/-- The integer that a text writes: blanks around it, a plus sign, zeros in front, zeros behind a point and single
underscores do not matter. -/
def tidiedInteger? (cs : List Char) : Option Int := do
  let outer (c : Char) : Bool := Text.isBlank c && !Text.isSeparator c
  let (sign, rest) := cutSign ((cs.dropWhile outer).reverse.dropWhile outer).reverse
  let cs := sign ++ dropUnderscores (dropPoint (← dropZeros rest))
  if digitLimit < cs.length then none else plainInteger? cs

/-- The integer of a text; some texts that are not written plainly count as well. -/
def integerText (s : String) : Checked Int :=
  let cs := s.toList
  if isOverlong cs then problem .oversizedInteger
  else match (plainInteger? cs).or (tidiedInteger? cs) with
    | some n => ok n
    | none => problem .unreadableInteger

/-- An integer, a truth value as one or zero, a double without a fraction, or a numeral. -/
def integer : Value → Checked Int
  | .bool b => ok (if b then 1 else 0)
  | .num (.int n) => ok n
  | .num (.float x) =>
    match x.toBinary? with
    | none => problem .infiniteInteger
    | some b =>
      if !b.isWhole then problem .fractionalInteger
      else if b.truncate.natAbs < twoPow 63 then ok b.truncate
      else problem .oversizedInteger
  | .str s => integerText s
  | _ => problem .notInteger

@[simp] theorem integer_int (n : Int) : integer (.int n) = ok n := rfl

/-! ## Fields of a record -/

/-- A field that must be present. -/
def required (entries : Entries Value) (key : String) (read : Value → Checked α) : Checked α :=
  match entries.get? key with
  | none => bad [⟨[key], .missing⟩]
  | some v => (read v).under key

/-- A field with a default. -/
def optional (entries : Entries Value) (key : String) (read : Value → Checked α) (default : α) : Checked α :=
  match entries.get? key with
  | none => ok default
  | some v => (read v).under key

@[simp] theorem required_cons_self (rest : Entries Value) (key : String) (v : Value) (read : Value → Checked α) :
    required ((key, v) :: rest) key read = (read v).under key := by
  simp [required, Entries.get?]

theorem required_cons_ne {k key : String} (rest : Entries Value) (v : Value) (read : Value → Checked α) (h : k ≠ key) :
    required ((k, v) :: rest) key read = required rest key read := by
  simp [required, Entries.get?, h]

@[simp] theorem optional_cons_self (rest : Entries Value) (key : String) (v : Value) (read : Value → Checked α)
    (default : α) : optional ((key, v) :: rest) key read default = (read v).under key := by
  simp [optional, Entries.get?]

theorem optional_cons_ne {k key : String} (rest : Entries Value) (v : Value) (read : Value → Checked α) (default : α)
    (h : k ≠ key) : optional ((k, v) :: rest) key read default = optional rest key read default := by
  simp [optional, Entries.get?, h]

/-- The first of several spellings of a field that is present, even with null. -/
def spelled (entries : Entries Value) (read : Value → Checked α) (default : α) : List String → Checked α
  | [] => ok default
  | key :: others =>
    match entries.get? key with
    | some v => (read v).under key
    | none => spelled entries read default others

/-- A record is a map. -/
def record (read : Entries Value → Checked α) : Value → Checked α
  | .map entries => read entries
  | _ => problem .notRecord

end Checked

end WorkGraph
