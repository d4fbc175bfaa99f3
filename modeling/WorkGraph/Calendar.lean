/-!
# Dates and moments

A `Date` is a day of the calendar, reckoned by leap years at all times. Days are numbered from the start of 1970:
`Date.number` numbers a date, and `Date.ofDay` goes back. A `Moment` is a date with a time of day, and with the offset
from universal time where that is known; two moments with offsets are the same when they are one instant.
-/

namespace WorkGraph

/-- A number with zeros in front, at least `width` digits wide. -/
def padded (width : Nat) (n : Int) : String :=
  let digits := toString n.natAbs
  String.ofList (List.replicate (width - digits.length) '0') ++ digits

/-- A day of the calendar. -/
structure Date where
  year : Int
  month : Int
  day : Int
  deriving DecidableEq, Repr

namespace Date

/-- The date of a day, counted from the start of 1970. Years are reckoned from March, so that the day that is inserted
comes last. -/
def ofDay (n : Int) : Date :=
  let shifted := n + 719468
  let era := shifted.fdiv 146097
  let dayOfEra := shifted.fmod 146097
  let yearOfEra := (dayOfEra - dayOfEra / 1460 + dayOfEra / 36524 - dayOfEra / 146096) / 365
  let dayOfYear := dayOfEra - (365 * yearOfEra + yearOfEra / 4 - yearOfEra / 100)
  let march := (5 * dayOfYear + 2) / 153
  let month := if march < 10 then march + 3 else march - 9
  { year := yearOfEra + era * 400 + (if month ≤ 2 then 1 else 0)
    month
    day := dayOfYear - (153 * march + 2) / 5 + 1 }

/-- The number of a day, counted from the start of 1970. -/
def number (d : Date) : Int :=
  let year := if d.month ≤ 2 then d.year - 1 else d.year
  let era := year.fdiv 400
  let yearOfEra := year.fmod 400
  let march := if d.month ≤ 2 then d.month + 9 else d.month - 3
  let dayOfYear := (153 * march + 2) / 5 + d.day - 1
  era * 146097 + yearOfEra * 365 + yearOfEra / 4 - yearOfEra / 100 + dayOfYear - 719468

def isLeap (year : Int) : Bool :=
  year % 4 == 0 && (year % 100 != 0 || year % 400 == 0)

/-- The number of days of a month. -/
def monthLength (year month : Int) : Int :=
  if month == 2 then (if isLeap year then 29 else 28)
  else if month == 4 || month == 6 || month == 9 || month == 11 then 30
  else 31

/-- Whether there is such a day in the years that have four digits. -/
def isValid (d : Date) : Bool :=
  1 ≤ d.year && d.year ≤ 9999 && 1 ≤ d.month && d.month ≤ 12 && 1 ≤ d.day && d.day ≤ monthLength d.year d.month

/-- The date with the given text between its parts. -/
def written (d : Date) (between : String) : String :=
  padded 4 d.year ++ between ++ padded 2 d.month ++ between ++ padded 2 d.day

def text (d : Date) : String :=
  d.written "-"

example : ofDay 20089 = ⟨2025, 1, 1⟩ := by decide
example : ofDay 20453 = ⟨2025, 12, 31⟩ := by decide
example : ofDay 19782 = ⟨2024, 2, 29⟩ := by decide
example : number ⟨2024, 2, 29⟩ = 19782 := by decide
example : number ⟨1, 1, 1⟩ = -719162 := by decide
example : isValid ⟨1900, 2, 29⟩ = false := by decide

end Date

/-- A second of a day. -/
def timeText (second : Int) (between : String) : String :=
  padded 2 (second / 3600) ++ between ++ padded 2 (second / 60 % 60) ++ between ++ padded 2 (second % 60)

structure Moment where
  date : Date
  /-- The microseconds since midnight. -/
  microseconds : Int
  /-- The minutes by which the clock is ahead of universal time. -/
  offset : Option Int
  deriving DecidableEq, Repr

namespace Moment

/-- The microseconds since the start of 1970 on the clock of the moment. -/
def reading (m : Moment) : Int :=
  m.date.number * 86400000000 + m.microseconds

/-- Whether two moments are one instant. A moment of which the offset is not known is like none of which it is. -/
def same (m n : Moment) : Bool :=
  match m.offset, n.offset with
  | none, none => m.reading == n.reading
  | some p, some q => m.reading - p * 60000000 == n.reading - q * 60000000
  | _, _ => false

/-- A moment is the same as itself. -/
theorem same_self (m : Moment) : m.same m = true := by
  unfold same
  cases m.offset <;> simp

def offsetText (minutes : Int) : String :=
  (if minutes < 0 then "-" else "+") ++ padded 2 (minutes.natAbs / 60) ++ ":" ++ padded 2 (minutes.natAbs % 60)

/-- The date, the time with a fraction where there is one, and the offset. -/
def text (m : Moment) : String :=
  let fraction := m.microseconds % 1000000
  m.date.text ++ " " ++ timeText (m.microseconds / 1000000) ":" ++
    (if fraction == 0 then "" else "." ++ padded 6 fraction) ++ m.offset.elim "" offsetText

end Moment

end WorkGraph
