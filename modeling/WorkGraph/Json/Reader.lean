import WorkGraph.Value.Basic

/-!
# Reading interchange text

`Json.read` reads one value from a text, with blanks around it. Integers keep all their digits; a number with a point
or an exponent is a double; of two equal keys the later value counts. A text that is no value is refused with the first
position where it cannot go on (`ReadError`), and `ReadError.message` says so with line and column.
-/

namespace WorkGraph.Json

/-- Why a text is refused. -/
inductive Problem where
  | value
  | propertyName
  | colon
  | comma
  | extra
  | unterminated
  | control
  | escape
  | unicodeEscape
  | byteOrderMark
  deriving DecidableEq, Repr

/-- The sentence for a problem. -/
def Problem.text : Problem → String
  | .value => "Expecting value"
  | .propertyName => "Expecting property name enclosed in double quotes"
  | .colon => "Expecting ':' delimiter"
  | .comma => "Expecting ',' delimiter"
  | .extra => "Extra data"
  | .unterminated => "Unterminated string starting at"
  | .control => "Invalid control character at"
  | .escape => "Invalid \\escape"
  | .unicodeEscape => "Invalid \\uXXXX escape"
  | .byteOrderMark => "Unexpected UTF-8 BOM (decode using utf-8-sig)"

/-- A problem and the position of the character where it shows. -/
structure ReadError where
  problem : Problem
  position : Nat
  deriving DecidableEq, Repr

/-- The problem with line, column and position in the text that was read. -/
def ReadError.message (e : ReadError) (source : List Char) : String :=
  let before := source.take e.position
  let line := before.count '\n' + 1
  let column := (before.reverse.takeWhile (· != '\n')).length + 1
  e.problem.text ++ ": line " ++ toString line ++ " column " ++ toString column ++
    " (char " ++ toString e.position ++ ")"

/-- What is left to read, with its position. -/
structure Cursor where
  rest : List Char
  position : Nat

namespace Cursor

def skip (c : Cursor) (n : Nat) : Cursor :=
  ⟨c.rest.drop n, c.position + n⟩

/-- The four blanks that may stand between tokens. -/
def isSpace (c : Char) : Bool :=
  c == ' ' || c == '\t' || c == '\n' || c == '\r'

/-- The cursor behind the blanks. -/
def skipSpace (c : Cursor) : Cursor :=
  c.skip (c.rest.takeWhile isSpace).length

def startsWith (c : Cursor) (word : String) : Bool :=
  word.toList.isPrefixOf c.rest

def fail {α : Type} (c : Cursor) (problem : Problem) : Except ReadError α :=
  .error ⟨problem, c.position⟩

end Cursor

/-! ## Texts -/

/-- The value of a hexadecimal digit. -/
def hexValue? (c : Char) : Option Nat :=
  if '0' ≤ c ∧ c ≤ '9' then some (c.toNat - 48)
  else if 'a' ≤ c ∧ c ≤ 'f' then some (c.toNat - 87)
  else if 'A' ≤ c ∧ c ≤ 'F' then some (c.toNat - 55)
  else none

/-- The unit that the first four characters write in hexadecimal. -/
def unit? (cs : List Char) : Option Nat :=
  match cs.take 4 with
  | [a, b, c, d] => do
    return (((← hexValue? a) * 16 + (← hexValue? b)) * 16 + (← hexValue? c)) * 16 + (← hexValue? d)
  | _ => none

/-- The character of a short escape. -/
def shortEscape? (c : Char) : Option Char :=
  match c with
  | '"' => some '"'
  | '\\' => some '\\'
  | '/' => some '/'
  | 'b' => some (Char.ofNat 8)
  | 'f' => some (Char.ofNat 12)
  | 'n' => some '\n'
  | 'r' => some '\r'
  | 't' => some '\t'
  | _ => none

/-- The character of a unit; half of a pair on its own has none and reads as the replacement character. -/
def unitChar (n : Nat) : Char :=
  if 0xD800 ≤ n ∧ n < 0xE000 then Char.ofNat 0xFFFD else Char.ofNat n

/-- The character of a unit escape, and how many characters it takes. Two escapes in a row can write one character. -/
def escapedUnit (rest : List Char) (first : Nat) : Char × Nat :=
  let second? := match rest.drop 4 with
    | '\\' :: 'u' :: more => unit? more
    | _ => none
  match second? with
  | some second =>
    if 0xD800 ≤ first ∧ first < 0xDC00 ∧ 0xDC00 ≤ second ∧ second < 0xE000 then
      (Char.ofNat (0x10000 + (first - 0xD800) * 0x400 + (second - 0xDC00)), 10)
    else (unitChar first, 4)
  | none => (unitChar first, 4)

/-- The text up to its closing quote. `start` is the position of the opening quote; `fuel` is more than the number of
characters left. -/
def readText (start : Nat) : (fuel : Nat) → Cursor → List Char → Except ReadError (String × Cursor)
  | 0, _, _ => .error ⟨.unterminated, start⟩
  | fuel + 1, c, read =>
    match c.rest with
    | [] => .error ⟨.unterminated, start⟩
    | '"' :: _ => .ok (String.ofList read.reverse, c.skip 1)
    | '\\' :: [] => .error ⟨.unterminated, start⟩
    | '\\' :: 'u' :: more =>
      if (more.drop 4).isEmpty then (c.skip 1).fail .unicodeEscape
      else match unit? more with
        | none => (c.skip 1).fail .unicodeEscape
        | some unit =>
          let (char, taken) := escapedUnit more unit
          readText start fuel (c.skip (2 + taken)) (char :: read)
    | '\\' :: e :: _ =>
      match shortEscape? e with
      | none => c.fail .escape
      | some char => readText start fuel (c.skip 2) (char :: read)
    | char :: _ =>
      if char.toNat < 32 then c.fail .control
      else readText start fuel (c.skip 1) (char :: read)

/-! ## Numbers -/

/-- A run of ASCII digits in front. -/
def digitsOf (cs : List Char) : List Char :=
  cs.takeWhile Char.isDigit

/-- The number that ASCII digits write. -/
def decimalOf (digits : List Char) : Nat :=
  digits.foldl (fun total c => total * 10 + (c.toNat - 48)) 0

/-- The parts of a number in front of the cursor: sign, whole digits, digits behind the point, exponent. -/
structure NumberParts where
  negative : Bool
  whole : List Char
  fraction : Option (List Char)
  exponent : Option Int
  length : Nat

/-- The longest number in front; none when no digit follows. A leading zero stands alone. -/
def numberParts? (cs : List Char) : Option NumberParts :=
  let negative := cs.head? == some '-'
  let unsigned := if negative then cs.drop 1 else cs
  let whole := if unsigned.head? == some '0' then ['0'] else digitsOf unsigned
  if whole.isEmpty then none
  else
    let afterWhole := unsigned.drop whole.length
    let fraction := match afterWhole with
      | '.' :: more => if (digitsOf more).isEmpty then none else some (digitsOf more)
      | _ => none
    let afterFraction := fraction.elim afterWhole fun digits => afterWhole.drop (1 + digits.length)
    let (exponent, exponentLength) : Option Int × Nat := match afterFraction with
      | e :: more =>
        if e == 'e' || e == 'E' then
          let signed := more.head? == some '-' || more.head? == some '+'
          let digits := digitsOf (if signed then more.drop 1 else more)
          if digits.isEmpty then (none, 0)
          else
            let magnitude : Int := decimalOf digits
            (some (if more.head? == some '-' then -magnitude else magnitude),
              1 + (if signed then 1 else 0) + digits.length)
        else (none, 0)
      | [] => (none, 0)
    some { negative, whole, fraction, exponent
           length := (if negative then 1 else 0) + whole.length + fraction.elim 0 (·.length + 1) + exponentLength }

/-- The number that the parts write: an integer unless there is a point or an exponent. -/
def NumberParts.number (p : NumberParts) : Number :=
  match p.fraction, p.exponent with
  | none, none => .int (if p.negative then -(decimalOf p.whole : Int) else decimalOf p.whole)
  | fraction, exponent =>
    let digits := fraction.getD []
    .float (.ofDecimal p.negative (decimalOf (p.whole ++ digits)) (exponent.getD 0 - digits.length))

/-! ## Values -/

/-- A constant or a number in front of the cursor. -/
def readScalar (c : Cursor) : Except ReadError (Value × Cursor) :=
  if c.startsWith "null" then .ok (.null, c.skip 4)
  else if c.startsWith "true" then .ok (.bool true, c.skip 4)
  else if c.startsWith "false" then .ok (.bool false, c.skip 5)
  else if c.startsWith "NaN" then .ok (.num (.float .nan), c.skip 3)
  else if c.startsWith "Infinity" then .ok (.num (.float (.infinity false)), c.skip 8)
  else if c.startsWith "-Infinity" then .ok (.num (.float (.infinity true)), c.skip 9)
  else match numberParts? c.rest with
    | none => c.fail .value
    | some parts => .ok (.num parts.number, c.skip parts.length)

mutual

/-- A value in front of the cursor. Every step takes a character, so `fuel` beyond twice their number is enough. -/
def readValue : (fuel : Nat) → Cursor → Except ReadError (Value × Cursor)
  | 0, c => c.fail .value
  | fuel + 1, c =>
    match c.rest with
    | '"' :: more => do
      let (s, c) ← readText c.position (more.length + 1) (c.skip 1) []
      return (.str s, c)
    | '[' :: _ =>
      let inner := (c.skip 1).skipSpace
      if inner.rest.head? == some ']' then .ok (.list [], inner.skip 1)
      else readItems fuel inner []
    | '{' :: _ =>
      let inner := (c.skip 1).skipSpace
      if inner.rest.head? == some '}' then .ok (.map [], inner.skip 1)
      else readMembers fuel inner []
    | _ => readScalar c

/-- The items of a list from one of them on. -/
def readItems : (fuel : Nat) → Cursor → List Value → Except ReadError (Value × Cursor)
  | 0, c, _ => c.fail .value
  | fuel + 1, c, items => do
    let (item, after) ← readValue fuel c
    let next := after.skipSpace
    match next.rest with
    | ']' :: _ => return (.list (items ++ [item]), next.skip 1)
    | ',' :: _ => readItems fuel (next.skip 1).skipSpace (items ++ [item])
    | _ => next.fail .comma

/-- The entries of a map from one of them on. -/
def readMembers : (fuel : Nat) → Cursor → Entries Value → Except ReadError (Value × Cursor)
  | 0, c, _ => c.fail .value
  | fuel + 1, c, entries =>
    match c.rest with
    | '"' :: more => do
      let (key, afterKey) ← readText c.position (more.length + 1) (c.skip 1) []
      let beforeColon := afterKey.skipSpace
      if beforeColon.rest.head? == some ':' then
        let (value, after) ← readValue fuel (beforeColon.skip 1).skipSpace
        let next := after.skipSpace
        let entries := Entries.set entries key value
        match next.rest with
        | '}' :: _ => return (.map entries, next.skip 1)
        | ',' :: _ => readMembers fuel (next.skip 1).skipSpace entries
        | _ => next.fail .comma
      else beforeColon.fail .colon
    | _ => c.fail .propertyName

end

/-- The value that a whole text writes. -/
def readChars (source : List Char) : Except ReadError Value :=
  if source.head? == some (Char.ofNat 0xFEFF) then .error ⟨.byteOrderMark, 0⟩
  else do
    let (value, after) ← readValue (2 * source.length + 2) (Cursor.skipSpace ⟨source, 0⟩)
    let finish := after.skipSpace
    if finish.rest.isEmpty then return value else finish.fail .extra

/-- The value that a text writes. -/
def read (source : String) : Except ReadError Value :=
  readChars source.toList

end WorkGraph.Json
