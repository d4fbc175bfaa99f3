import WorkGraph.Text.Pieces
import WorkGraph.Yaml.Tag

/-!
# The types of plain texts

A text that is written plainly has the type that it looks to be of: nothing, a truth value, a number, a date, or else a
text. Numbers may have underscores between their digits, and may be written in base two, eight, sixteen or sixty.
`Tag.guess` tells the type; a line break at the end does not count, except behind nothing at all.
-/

namespace WorkGraph.Yaml

/-- The characters without a sign in front. -/
def unsigned : List Char → List Char
  | '-' :: rest => rest
  | '+' :: rest => rest
  | cs => cs

def isDigitOrUnderscore (c : Char) : Bool :=
  c.isDigit || c == '_'

/-- Whether there is a digit in front, and only digits and underscores behind it. -/
def isDigits : List Char → Bool
  | [] => false
  | c :: rest => c.isDigit && rest.all isDigitOrUnderscore

/-! ## Words -/

/-- The words for nothing. -/
def nullWords : List String := ["~", "null", "Null", "NULL"]

/-- The words for a truth value, each in three ways to write it. -/
def boolWords : List String :=
  ["yes", "Yes", "YES", "no", "No", "NO", "true", "True", "TRUE", "false", "False", "FALSE", "on", "On", "ON", "off",
    "Off", "OFF"]

/-! ## Numbers -/

/-- Whether there is at least one character, and all pass or are underscores. -/
def allOf (pass : Char → Bool) (cs : List Char) : Bool :=
  !cs.isEmpty && cs.all fun c => pass c || c == '_'

/-- Whether a text is a place of a number in base sixty behind the first. -/
def isSixtieth : List Char → Bool
  | [c] => c.isDigit
  | [c, d] => '0' ≤ c && c ≤ '5' && d.isDigit
  | _ => false

/-- Whether a text is a number in base sixty with at least two places. -/
def isSixtieths (cs : List Char) : Bool :=
  match Text.pieces ':' cs with
  | first :: rest => isDigits first && !rest.isEmpty && rest.all isSixtieth
  | [] => false

/-- Whether a text looks like an integer. In base sixty it does not start with a zero. -/
def looksInteger (cs : List Char) : Bool :=
  match unsigned cs with
  | '0' :: 'b' :: digits => allOf (fun c => c == '0' || c == '1') digits
  | '0' :: 'x' :: digits => allOf (fun c => (hexValue? c).isSome) digits
  | '0' :: digits => digits.all fun c => ('0' ≤ c && c ≤ '7') || c == '_'
  | cs => isDigits cs || isSixtieths cs

/-- Whether a text is an exponent, which has a sign, or nothing. -/
def isExponent : List Char → Bool
  | [] => true
  | mark :: sign :: digits =>
    (mark == 'e' || mark == 'E') && (sign == '+' || sign == '-') && !digits.isEmpty && digits.all Char.isDigit
  | _ => false

/-- Whether a text with a point looks like a double. In base sixty it has no exponent, and a sign does not go with a
leading point. -/
def looksDecimal (cs : List Char) : Bool :=
  let digits := unsigned cs
  let whole := digits.takeWhile (· != '.')
  let behind := digits.drop (whole.length + 1)
  let tail := behind.dropWhile isDigitOrUnderscore
  if whole.length == digits.length then false
  else if whole.isEmpty then
    digits.length == cs.length && behind.head?.any Char.isDigit && isExponent tail
  else (isDigits whole && isExponent tail) || (isSixtieths whole && tail.isEmpty)

/-- Whether a text looks like a double. -/
def looksDouble (cs : List Char) : Bool :=
  [".inf", ".Inf", ".INF"].contains (String.ofList (unsigned cs)) ||
    [".nan", ".NaN", ".NAN"].contains (String.ofList cs) || looksDecimal cs

/-! ## Dates -/

/-- The digits in front of a text, at most `most` of them, if they are at least `least`, and the rest. -/
def cutDigits (least most : Nat) (cs : List Char) : Option (String × List Char) :=
  let digits := (cs.take most).takeWhile Char.isDigit
  if digits.length < least then none else some (String.ofList digits, cs.drop digits.length)

/-- What stands behind a character in front. -/
def behind (c : Char) (cs : List Char) : Option (List Char) :=
  if cs.head? == some c then some (cs.drop 1) else none

/-- A date and time as written: the digits of its parts. -/
structure WrittenMoment where
  year : String
  month : String
  day : String
  /-- The hour, the minute and the second. -/
  time : Option (String × String × String)
  fraction : String
  /-- The sign, the hours and the minutes of the offset. -/
  offset : Option (Char × String × String)
  deriving DecidableEq, Repr

namespace WrittenMoment

/-- The offset at the end of a time, after blanks; a `Z` stands for none. -/
def offset? (cs : List Char) : Option (Option (Char × String × String)) := do
  if cs.isEmpty then return none
  match cs.dropWhile fun c => c == ' ' || c == '\t' with
  | ['Z'] => return some ('+', "0", "")
  | sign :: rest =>
    guard (sign == '+' || sign == '-')
    let (hours, rest) ← cutDigits 1 2 rest
    if rest.isEmpty then return some (sign, hours, "")
    let (minutes, rest) ← cutDigits 2 2 (← behind ':' rest)
    guard rest.isEmpty
    return some (sign, hours, minutes)
  | [] => none

/-- The time behind a date, which a `T` or blanks separate from it. -/
def time? (m : WrittenMoment) (cs : List Char) : Option WrittenMoment := do
  let blanks := cs.takeWhile fun c => c == ' ' || c == '\t'
  let rest ← if blanks.isEmpty then (behind 'T' cs).or (behind 't' cs) else some (cs.drop blanks.length)
  let (hour, rest) ← cutDigits 1 2 rest
  let (minute, rest) ← cutDigits 2 2 (← behind ':' rest)
  let (second, rest) ← cutDigits 2 2 (← behind ':' rest)
  let fraction := match rest with
    | '.' :: digits => digits.takeWhile Char.isDigit
    | _ => []
  let rest := if rest.head? == some '.' then rest.drop (fraction.length + 1) else rest
  return { m with
    time := some (hour, minute, second)
    fraction := String.ofList fraction
    offset := ← offset? rest }

/-- A date with or without a time. -/
def read? (cs : List Char) : Option WrittenMoment := do
  let (year, rest) ← cutDigits 4 4 cs
  let (month, rest) ← cutDigits 1 2 (← behind '-' rest)
  let (day, rest) ← cutDigits 1 2 (← behind '-' rest)
  let m : WrittenMoment :=
    { year, month, day
      time := none
      fraction := ""
      offset := none }
  if rest.isEmpty then return m else m.time? rest

end WrittenMoment

/-- Whether a text looks like a date, with or without a time. Without one, it has all its digits. -/
def looksMoment (cs : List Char) : Bool :=
  (WrittenMoment.read? cs).any fun m => m.time.isSome || (m.month.length == 2 && m.day.length == 2)

/-! ## Any text -/

/-- The characters of a text without a line break at the end. -/
def withoutBreak (text : String) : List Char :=
  let cs := text.toList
  if cs.getLast? == some '\n' then cs.dropLast else cs

/-- The type that a text looks to be of. -/
def Tag.guess (text : String) : Tag :=
  let cs := withoutBreak text
  let word := String.ofList cs
  if text == "" || nullWords.contains word then .null
  else if boolWords.contains word then .bool
  else if looksDouble cs then .float
  else if looksInteger cs then .int
  else if word == "<<" then .merge
  else if word == "=" then .value
  else if ["!", "&", "*"].contains word then .unknown
  else if looksMoment cs then .timestamp
  else .str

end WorkGraph.Yaml
