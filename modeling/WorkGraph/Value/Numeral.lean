import WorkGraph.Fault
import WorkGraph.Record.Checked
import WorkGraph.Text.Blank
import WorkGraph.Text.Digit

/-!
# Numbers written as texts

Editors store numbers as texts. `numeral?` recognises a decimal numeral with digits of any script, blanks around it, a
sign, a point and an exponent; `Value.isNumeric` holds of numbers and of such texts, and `Value.real` is the double they
stand for. `Value.magnitude` reads the leading integer of anything, without its sign.
-/

namespace WorkGraph

structure Numeral where
  negative : Bool
  whole : List Char
  fraction : List Char
  exponent : Int

namespace Numeral

def isSign (c : Char) : Bool :=
  c == '+' || c == '-'

/-- A sign in front, if there is one, and the rest. -/
def splitSign (cs : List Char) : Bool × List Char :=
  match cs with
  | c :: rest => if isSign c then (c == '-', rest) else (false, cs)
  | [] => (false, [])

/-- The exponent that the end of a numeral writes: nothing, or a mark, a sign and digits. -/
def exponent? : List Char → Option Int
  | [] => some 0
  | mark :: rest =>
    let (negative, digits) := splitSign rest
    if (mark == 'e' || mark == 'E') && !digits.isEmpty && digits.all Text.isDigit then
      let n : Int := Text.readDigits digits
      some (if negative then -n else n)
    else none

/-- The numeral that characters without blanks around them write. -/
def ofChars? (cs : List Char) : Option Numeral :=
  let (negative, unsigned) := splitSign cs
  let whole := unsigned.takeWhile Text.isDigit
  let afterWhole := unsigned.drop whole.length
  let fraction := match afterWhole with
    | '.' :: more => more.takeWhile Text.isDigit
    | _ => []
  let rest := match afterWhole with
    | '.' :: more => more.drop fraction.length
    | _ => afterWhole
  if whole.isEmpty && fraction.isEmpty then none
  else (exponent? rest).map fun exponent => { negative, whole, fraction, exponent }

/-- The nearest double. -/
def real (n : Numeral) : Double :=
  .ofDecimal n.negative (Text.readDigits (n.whole ++ n.fraction)) (n.exponent - n.fraction.length)

end Numeral

/-- The numeral that a text writes. -/
def numeral? (s : String) : Option Numeral :=
  Numeral.ofChars? (Text.strip s.toList)

namespace Value

/-- Whether a value is a number, or a text that reads as one. -/
def isNumeric : Value → Bool
  | num _ => true
  | str s => (numeral? s).isSome
  | _ => false

/-- The double of a numeric value. Integers must be in range, and no separator may stand beside a numeral. -/
def real : Value → Except Fault Double
  | num n => (n.toDouble?).elim (.error .tooLarge) .ok
  | v =>
    let text := v.display
    match numeral? text with
    | none => .error (.unconvertible (.real text))
    | some n => if text.toList.any Text.isSeparator then .error (.unconvertible (.real text)) else .ok n.real

/-- The characters of the integer in front of a text: blanks, a sign and digits. -/
def leadingInteger (cs : List Char) : Option (List Char × Bool × List Char) :=
  let blanks := cs.takeWhile Text.isBlank
  let (negative, unsigned) := Numeral.splitSign (cs.drop blanks.length)
  let digits := unsigned.takeWhile Text.isDigit
  if digits.isEmpty then none else some (cs.take (cs.length - unsigned.length + digits.length), negative, digits)

/-- The integer of a double, toward zero. -/
def wholePart : Double → Except Fault Int
  | .nan => .error (.unconvertible .notANumber)
  | x => x.toBinary?.elim (.error (.overflow "cannot convert float infinity to integer")) fun b => .ok b.truncate

/-- The size of the integer that a value stands for: of a number its whole part, of anything else the integer in front
of its text, zero if there is none. -/
def magnitude : Value → Except Fault Int
  | bool b => .ok (if b then 1 else 0)
  | num (.int n) => .ok n.natAbs
  | num (.float x) => (fun n : Int => (n.natAbs : Int)) <$> wholePart x
  | null => .ok 0
  | v =>
    match leadingInteger v.display.toList with
    | none => .ok 0
    | some (text, _, digits) =>
      if text.any Text.isSeparator then .error (.unconvertible (.integer 10 (String.ofList text)))
      else if Checked.digitLimit < digits.length then .error (.unconvertible (.digits digits.length))
      else .ok (Text.readDigits digits)

end Value

end WorkGraph
