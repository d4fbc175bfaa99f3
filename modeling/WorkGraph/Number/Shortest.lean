import WorkGraph.Number.Double

/-!
# The shortest decimal of a double

Among the decimals that read back as a given double, `shortest?` takes the one with the fewest digits, and of two with
equally many the nearer one. It tries decimal grids from the coarsest down: on each grid only the two neighbours of the
value can lie among the reals that round to it, and the first grid with a hit is the coarsest one that has any.

`FloatText` holds the decisions of the layout: where positional notation ends and how an exponent is written.
-/

namespace WorkGraph

/-- A positive decimal `digits * 10 ^ exponent`. -/
structure Decimal where
  digits : Nat
  exponent : Int
  deriving DecidableEq, Repr

/-- The reals that round to a double, as numerators over one denominator: the value and the ends around it. -/
structure Rounding where
  low : Nat
  value : Nat
  high : Nat
  den : Nat
  closed : Bool

namespace Rounding

/-- The interval around a positive magnitude. Below a power of two the spacing is halved, and the ends belong to the
interval when the mantissa is even. -/
def ofBinary (b : Binary) : Rounding :=
  let scale := twoPow b.exponent.toNat
  let gap := if b.mantissa == twoPow 52 && decide (-1074 < b.exponent) then 1 else 2
  { low := (4 * b.mantissa - gap) * scale
    value := 4 * b.mantissa * scale
    high := (4 * b.mantissa + 2) * scale
    den := 4 * twoPow (-b.exponent).toNat
    closed := b.mantissa % 2 == 0 }

/-- Whether `n * 10 ^ k` rounds to the double. -/
def contains (r : Rounding) (n : Nat) (k : Int) : Bool :=
  let point := n * tenPow k.toNat * r.den
  let unit := tenPow (-k).toNat
  if r.closed then decide (r.low * unit ≤ point) && decide (point ≤ r.high * unit)
  else decide (r.low * unit < point) && decide (point < r.high * unit)

/-- The point of the grid `10 ^ k` nearest to the value among those that round to the double. -/
def onGrid (r : Rounding) (k : Int) : Option Decimal :=
  let num := r.value * tenPow (-k).toNat
  let den := r.den * tenPow k.toNat
  let below := num / den
  let twice := 2 * (num % den)
  let lower := r.contains below k && decide (0 < below)
  let upper := r.contains (below + 1) k
  let preferUpper := decide (den < twice) || (twice == den && below % 2 == 1)
  if upper && (preferUpper || !lower) then some ⟨below + 1, k⟩
  else if lower then some ⟨below, k⟩
  else none

/-- The first hit on the grids from `10 ^ k` down. -/
def search (r : Rounding) : (grids : Nat) → Int → Option Decimal
  | 0, _ => none
  | grids + 1, k => (r.onGrid k).or (r.search grids (k - 1))

/-- A decimal found on a grid rounds to the double. -/
theorem contains_of_onGrid {r : Rounding} {k : Int} {d : Decimal} (h : r.onGrid k = some d) :
    r.contains d.digits d.exponent = true := by
  unfold onGrid at h
  simp only at h
  split at h
  · obtain rfl := Option.some.inj h
    simp_all
  · split at h
    · obtain rfl := Option.some.inj h
      simp_all
    · simp at h

theorem contains_of_search {r : Rounding} {grids : Nat} {k : Int} {d : Decimal} (h : r.search grids k = some d) :
    r.contains d.digits d.exponent = true := by
  induction grids generalizing k with
  | zero => simp [search] at h
  | succ n ih =>
    rw [search, Option.or_eq_some_iff] at h
    exact h.elim contains_of_onGrid fun h => ih h.2

end Rounding

/-- The shortest decimal that reads back as a magnitude; zero has none. -/
def shortest? (b : Binary) : Option Decimal :=
  if b.mantissa == 0 then none
  else
    let top : Int := ((b.mantissa.log2 : Int) + b.exponent + 1) * 30103 / 100000 + 2
    (Rounding.ofBinary b).search 24 top

/-- How a double is laid out. -/
structure FloatText where
  /-- The powers of ten of the leading digit that are written positionally. -/
  lowest : Int
  highest : Int
  /-- The least number of digits of an exponent. -/
  exponentWidth : Nat
  infinity : String
  notANumber : String

/-- Doubles are written positionally from `0.0001` to below `10 ^ 16`, and always show a point or an exponent. -/
def plainFloat : FloatText := ⟨-4, 15, 2, "inf", "nan"⟩

/-- The same layout with the names that interchange texts give to the values that are no fractions. -/
def interchangeFloat : FloatText := ⟨-4, 15, 2, "Infinity", "NaN"⟩

namespace FloatText

/-- An exponent with its sign, padded with zeros. -/
def exponentText (t : FloatText) (e : Int) : String :=
  let digits := toString e.natAbs
  (if e < 0 then "e-" else "e+") ++ String.ofList (List.replicate (t.exponentWidth - digits.length) '0') ++ digits

/-- A positive decimal in the layout. -/
def decimalText (t : FloatText) (d : Decimal) : String :=
  let digits := (toString d.digits).toList
  let count : Int := digits.length
  let lead := count + d.exponent - 1
  if t.lowest ≤ lead ∧ lead ≤ t.highest then
    if 0 ≤ d.exponent then String.ofList (digits ++ List.replicate d.exponent.toNat '0') ++ ".0"
    else if 0 ≤ lead then
      let point := (lead + 1).toNat
      String.ofList (digits.take point ++ '.' :: digits.drop point)
    else "0." ++ String.ofList (List.replicate (-lead - 1).toNat '0' ++ digits)
  else
    let tail := (digits.drop 1 ++ List.replicate d.exponent.toNat '0').reverse.dropWhile (· == '0')
    let mantissa := digits.take 1 ++ if tail.isEmpty then [] else '.' :: tail.reverse
    String.ofList mantissa ++ t.exponentText lead

/-- The text of a double. -/
def render (t : FloatText) : Double → String
  | .nan => t.notANumber
  | x@(.ranked negative _ _) =>
    (if negative then "-" else "") ++ x.toBinary?.elim t.infinity fun b => (shortest? b).elim "0.0" t.decimalText

end FloatText

end WorkGraph
