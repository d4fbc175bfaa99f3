import WorkGraph.Number.Arithmetic
import WorkGraph.Setting
import WorkGraph.Text.Base64
import WorkGraph.Yaml.Guess

/-!
# Texts with a type

`Tag.atom?` is what a text stands for under the tag of a type without parts. A tag may be written in front of any text,
so the readers here take more than what plain texts look like, and refuse the rest as the conversion to the type does.
-/

namespace WorkGraph.Yaml

/-- The characters of a number: underscores do not count. -/
def numberText (text : String) : List Char :=
  text.toList.filter (· != '_')

/-- Whether a minus sign stands in front, and the characters behind a sign; there must be any at all. -/
def cutSign : List Char → Reading (Bool × List Char)
  | [] => .error (.fault .outOfBounds)
  | '-' :: rest => .ok (true, rest)
  | '+' :: rest => .ok (false, rest)
  | cs => .ok (false, cs)

/-- The value of places in base sixty, the first one first. -/
def inSixtieths (places : List Int) : Int :=
  places.foldl (fun n place => 60 * n + place) 0

/-- An integer in a base. -/
def integerIn (base : Nat) (cs : List Char) : Reading Int :=
  Reading.convert (Conversion.integer base (String.ofList cs))

/-- The size of an integer, in the base that its start tells. -/
def readSize (cs : List Char) : Reading Int :=
  match cs with
  | [] => .error (.fault .outOfBounds)
  | ['0'] => .ok 0
  | '0' :: 'b' :: digits => integerIn 2 digits
  | '0' :: 'x' :: digits => integerIn 16 digits
  | '0' :: _ => integerIn 8 cs
  | _ =>
    if cs.contains ':' then inSixtieths <$> (Text.pieces ':' cs).mapM (integerIn 10)
    else integerIn 10 cs

/-- An integer with its sign. -/
def readInteger (text : String) : Reading Int := do
  let (negative, cs) ← cutSign (numberText text)
  let n ← readSize cs
  return if negative then -n else n

/-- The sum of places in base sixty, the last one first, each a double; the powers of sixty must be in range. -/
def sumSixtieths : (base : Int) → (sum : Double) → List Double → Reading Double
  | _, sum, [] => .ok sum
  | base, sum, place :: rest =>
    match Number.doubleOfInt? base with
    | none => .error (.fault .tooLarge)
    | some x => sumSixtieths (60 * base) (sum.add (place.mul x)) rest

/-- The size of a double. -/
def readMagnitude (cs : List Char) : Reading Double :=
  let double (cs : List Char) : Reading Double := Reading.convert (Conversion.double (String.ofList cs))
  if cs == ".inf".toList then .ok (.infinity false)
  else if cs == ".nan".toList then .ok .nan
  else if cs.contains ':' then do
    sumSixtieths 1 (.zero false) (← (Text.pieces ':' cs).mapM double).reverse
  else double cs

/-- A double with its sign. -/
def readDouble (text : String) : Reading Double := do
  let (negative, cs) ← cutSign ((numberText text).map Char.toLower)
  let x ← readMagnitude cs
  return if negative then x.negate else x

/-- Bytes, whose text is ASCII. -/
def readBytes (text : String) : Reading (List Nat) := do
  Reading.check (text.toList.all fun c => c.toNat < 128)
  Reading.need (Text.Base64.decode? text.toList)

/-- The number that a few digits write; zero for none. -/
def digits (s : String) : Int :=
  Text.readDigits s.toList

namespace WrittenMoment

/-- The first six digits of the fraction, as microseconds. -/
def microseconds (m : WrittenMoment) : Int :=
  let shown := m.fraction.toList.take 6
  Text.readDigits (shown ++ List.replicate (6 - shown.length) '0')

/-- The offset in minutes, less than a day. -/
def offsetMinutes : Char × String × String → Option Int
  | (sign, hours, minutes) =>
    let size := digits hours * 60 + digits minutes
    if 1440 ≤ size then none else some (if sign == '-' then -size else size)

/-- The date or moment, if there is such a one. -/
def toAtom? (m : WrittenMoment) : Option Atom := do
  let date : Date := ⟨digits m.year, digits m.month, digits m.day⟩
  guard date.isValid
  match m.time with
  | none => return .date date
  | some (hour, minute, second) =>
    guard (digits hour < 24 && digits minute < 60 && digits second < 60)
    let offset ← match m.offset with
      | none => some none
      | some offset => (offsetMinutes offset).map some
    return .moment
      { date
        microseconds := ((digits hour * 60 + digits minute) * 60 + digits second) * 1000000 + m.microseconds
        offset }

end WrittenMoment

/-- A date or a moment. -/
def readMoment (text : String) : Reading Atom :=
  match WrittenMoment.read? (withoutBreak text) with
  | none => .error (.fault (.noMember "NoneType" "groupdict"))
  | some m => m.toAtom?.elim (.error (.fault (.unconvertible (.stated "no such date")))) .ok

/-- A truth value, in any case. -/
def readBool (text : String) : Reading Bool :=
  let word := String.ofList (text.toList.map Char.toLower)
  if ["yes", "true", "on"].contains word then .ok true
  else if ["no", "false", "off"].contains word then .ok false
  else .error (.fault (.noKey (.str word)))

/-- What a text stands for by its tag; none for the types that have parts. -/
def Tag.atom? (text : String) : Tag → Option (Reading Atom)
  | .null => some (.ok .null)
  | .bool => some (Atom.bool <$> readBool text)
  | .int => some (Atom.int <$> readInteger text)
  | .float => some ((fun x => Atom.num (.float x)) <$> readDouble text)
  | .binary => some (Atom.bytes <$> readBytes text)
  | .timestamp => some (readMoment text)
  | .str => some (.ok (.str text))
  | .omap | .pairs | .set | .seq | .map | .merge | .value | .unknown => none

end WorkGraph.Yaml
