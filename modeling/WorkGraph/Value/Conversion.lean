import WorkGraph.Value.Numeral

/-!
# Conversion to numbers

`Conversion.integer` and `Conversion.double` are the numbers that whole texts write: blanks around the number and single
underscores between its digits do not count, and digits of any script do. `Value.toInteger` and `Value.toDouble` convert
any value; a double loses its fraction, and texts of other things than numbers are refused.
-/

namespace WorkGraph

namespace Conversion

/-- What counts of a text: all but the blanks around it. An information separator is no such blank. -/
def core (s : String) : List Char :=
  let outer (c : Char) : Bool := Text.isBlank c && !Text.isSeparator c
  ((s.toList.dropWhile outer).reverse.dropWhile outer).reverse

/-- The value of a digit; beyond nine, letters are digits. -/
def digit? (c : Char) : Option Nat :=
  if c.isLower then some (c.toNat - 87)
  else if c.isUpper then some (c.toNat - 55)
  else Text.digit? c

/-- The letter that stands behind a zero in front of the digits of a base. -/
def baseLetter? (base : Nat) : Option Char :=
  if base == 2 then some 'b' else if base == 8 then some 'o' else if base == 16 then some 'x' else none

/-- Behind the mark of a base, if it is written; one underscore may follow it. -/
def overMark (base : Nat) (cs : List Char) : List Char :=
  match cs with
  | '0' :: letter :: rest =>
    if (baseLetter? base).any (· == letter.toLower) then (if rest.head? == some '_' then rest.drop 1 else rest) else cs
  | _ => cs

/-- Whether underscores stand singly, and only between other characters. -/
def joined (cs : List Char) : Bool :=
  cs.head? != some '_' && cs.getLast? != some '_' &&
    !(cs.zip (cs.drop 1)).any fun pair => pair.1 == '_' && pair.2 == '_'

/-- The number that digits of a base write; none where a character is no such digit. -/
def natural? (base : Nat) (digits : List Char) : Option Nat :=
  if digits.isEmpty then none
  else digits.foldlM (fun n c => (digit? c).bind fun d => if d < base then some (base * n + d) else none) 0

/-- The integer that a text writes in a base. Only powers of two are bases of numbers of any length. -/
def integer (base : Nat) (s : String) : Except Fault Int :=
  let (negative, rest) := Numeral.splitSign (core s)
  let text := overMark base rest
  let digits := text.filter (· != '_')
  match if joined text then natural? base digits else none with
  | none => .error (.unconvertible (.integer base s))
  | some n =>
    if base == 10 && decide (Checked.digitLimit < digits.length) then .error (.unconvertible (.digits digits.length))
    else .ok (if negative then -(n : Int) else n)

/-- The words that stand for no fraction. -/
def special? (word : String) : Option Double :=
  if word == "inf" || word == "infinity" then some (.infinity false)
  else if word == "nan" then some .nan
  else none

/-- Whether underscores stand only between digits. -/
def betweenDigits (cs : List Char) : Bool :=
  cs.head? != some '_' && cs.getLast? != some '_' &&
    !(cs.zip (cs.drop 1)).any fun pair =>
      (pair.1 == '_' && !Text.isDigit pair.2) || (pair.2 == '_' && !Text.isDigit pair.1)

/-- The double that a text writes. -/
def double (s : String) : Except Fault Double :=
  let text := core s
  let (negative, rest) := Numeral.splitSign text
  match special? (String.ofList (rest.map Char.toLower)) with
  | some x => .ok (if negative then x.negate else x)
  | none =>
    match if betweenDigits text then Numeral.ofChars? (text.filter (· != '_')) else none with
    | some n => .ok n.real
    | none => .error (.unconvertible (.real s))

end Conversion

namespace Value

/-- The integer that a value converts to. -/
def toInteger : Value → Except Fault Int
  | bool b => .ok (if b then 1 else 0)
  | num (.int n) => .ok n
  | num (.float x) => wholePart x
  | str s => Conversion.integer 10 s
  | v => .error (.misuse (.asInteger v.kindName))

/-- The double that a value converts to. -/
def toDouble : Value → Except Fault Double
  | bool b => .ok (.ofDecimal false b.toNat 0)
  | num n => (n.toDouble?).elim (.error .tooLarge) .ok
  | str s => Conversion.double s
  | v => .error (.misuse (.asReal v.kindName))

@[simp] theorem toInteger_int (n : Int) : toInteger (int n) = .ok n := rfl

end Value

end WorkGraph
