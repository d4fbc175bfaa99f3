import WorkGraph.Calendar
import WorkGraph.Number.Basic

/-!
# The clock

Time is counted in ticks since the start of the year 2025. `Clock.stamp` is the time of day as records keep it: seconds,
and microseconds only where there are any. Spans are measured in coarser steps, as fine as a double can count the
seconds since 1970 (`Clock.reading`).

A `Span` becomes a duration in whole milliseconds. Durations never leave the range of finite doubles
(`inRange_bounded`), so that a later span can always be added to one (`Span.after?`).
-/

namespace WorkGraph

structure Clock where
  /-- Ticks since the start of 2025. -/
  ticks : Int
  deriving DecidableEq, Repr

namespace Clock

/-- The ticks of a second. -/
def tickRate : Nat := twoPow 44

/-- The steps of a second. -/
def stepRate : Nat := twoPow 22

/-- The ticks nearest to a number of seconds; none in what is not finite. -/
def ticksOf (seconds : Double) : Int :=
  seconds.toBinary?.elim 0 (·.rounded tickRate)

def start : Clock := ⟨0⟩

def advance (c : Clock) (ticks : Int) : Clock :=
  ⟨c.ticks + ticks⟩

/-- The time in units of which a second has `rate`, a half to the even one. -/
def count (c : Clock) (rate : Nat) : Int :=
  c.ticks.sign * roundDiv (c.ticks.natAbs * rate) tickRate

/-- The time in steps. -/
def reading (c : Clock) : Int :=
  c.count stepRate

def microseconds (c : Clock) : Int :=
  c.count 1000000

/-! ## Dates -/

/-- The first day of 2025, counted from the start of 1970. -/
def firstDay : Int := 20089

/-- Year, month, day, hour, minute and second, with the given texts between them. -/
def written (c : Clock) (ofDate middle ofTime : String) : String :=
  let second := c.microseconds.fdiv 1000000
  (Date.ofDay (firstDay + second.fdiv 86400)).written ofDate ++ middle ++ timeText (second.fmod 86400) ofTime

/-- The time as records keep it. -/
def stamp (c : Clock) : String :=
  let fraction := c.microseconds.fmod 1000000
  c.written "-" "T" ":" ++ if fraction == 0 then "" else "." ++ padded 6 fraction

end Clock

/-! ## Spans -/

/-- The time between two readings. -/
structure Span where
  steps : Int
  deriving DecidableEq, Repr

namespace Span

/-- The largest finite double. -/
def longest : Nat := twoPow 1024 - twoPow 971

/-- The nearest duration within the range. -/
def bounded (n : Int) : Int :=
  max (-longest) (min n longest)

theorem inRange_bounded (n : Int) : Number.inRange (bounded n) = true := by
  have h : longest < Number.rangeLimit := by decide +kernel
  exact decide_eq_true (by unfold bounded; omega)

/-- The whole milliseconds. -/
def millis (s : Span) : Int :=
  bounded ((s.steps * 1000).tdiv Clock.stepRate)

/-- The whole milliseconds of a span and an earlier duration together, added as doubles; none if the earlier duration is
out of range. -/
def after? (s : Span) (earlier : Int) : Option Int :=
  (Number.doubleOfInt? earlier).map fun x =>
    let sum := (x.toBinary?.elim 0 Binary.truncate) * Clock.stepRate + s.steps * 1000
    bounded ((Double.nearest (decide (sum < 0)) sum.natAbs Clock.stepRate).toBinary?.elim sum Binary.truncate)

/-- The seconds, with one place behind the point, a half to the even digit. -/
def seconds (s : Span) : String :=
  let tenths := roundDiv (s.steps.natAbs * 10) Clock.stepRate
  (if s.steps < 0 then "-" else "") ++ toString (tenths / 10) ++ "." ++ toString (tenths % 10)

/-- Whether a span is longer than a number of seconds. -/
def exceeds (s : Span) (limit : Number) : Bool :=
  limit.isBelow s.steps Clock.stepRate

end Span

/-- The span from an earlier reading to the present. -/
def Clock.since (c : Clock) (earlier : Int) : Span :=
  ⟨c.reading - earlier⟩

end WorkGraph
