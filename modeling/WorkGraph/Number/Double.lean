import WorkGraph.Number.Binary

/-!
# Doubles

The magnitudes that a double can have form a finite chain, from zero over the subnormal and the normal numbers to
infinity. A `Double` is a sign and the place of its magnitude in this chain, its rank, or it is no number at all. So
comparison is comparison of integers (`Double.place?`), under which both zeros are equal and what is no number equals
nothing, itself included (`Double.same_self`).

`Double.toBinary?` is the value of a finite double, and `Double.nearest` goes from any fraction to the double nearest to
it; a tie goes to the even mantissa.
-/

namespace WorkGraph

/-- The rank of infinity: there are `2 ^ 52` ranks to each of the 2047 scales of finite doubles. -/
def infinityRank : Nat := 2047 * twoPow 52

inductive Double where
  | nan
  | ranked (negative : Bool) (rank : Nat) (rank_le : rank ≤ infinityRank)
  deriving DecidableEq, Repr

namespace Double

def infinity (negative : Bool) : Double := ranked negative infinityRank (Nat.le_refl _)

def zero (negative : Bool) : Double := ranked negative 0 (Nat.zero_le _)

/-- The value of a finite double. The first scale is that of the subnormal numbers, which have the spacing of the
second. -/
def toBinary? : Double → Option Binary
  | nan => none
  | ranked negative rank _ =>
    let scale := rank / twoPow 52
    let fraction := rank % twoPow 52
    if scale == 2047 then none
    else if scale == 0 then some ⟨negative, fraction, -1074⟩
    else some ⟨negative, fraction + twoPow 52, (scale : Int) - 1075⟩

/-! ## Order -/

/-- The place among all doubles that are numbers. -/
def place? : Double → Option Int
  | nan => none
  | ranked negative rank _ => some (if negative then -(rank : Int) else rank)

/-- Equality as numbers. -/
def same (x y : Double) : Bool :=
  x.place?.any fun p => y.place? == some p

def below (x y : Double) : Bool :=
  x.place?.any fun p => y.place?.any fun q => decide (p < q)

theorem same_comm (x y : Double) : x.same y = y.same x := by
  unfold same
  generalize x.place? = p
  generalize y.place? = q
  cases p with
  | none => cases q <;> rfl
  | some p =>
    cases q with
    | none => rfl
    | some q =>
      show (some q == some p) = (some p == some q)
      exact Bool.beq_comm

/-- A double is equal to itself exactly if it is a number. -/
theorem same_self (x : Double) : x.same x = true ↔ x ≠ nan := by
  cases x with
  | nan => exact ⟨fun h => absurd h Bool.false_ne_true, fun h => absurd rfl h⟩
  | ranked negative rank h => exact ⟨fun _ => Double.noConfusion, fun _ => by simp [same, place?]⟩

/-! ## Rounding -/

/-- The rank of the double nearest to the positive fraction `num / den`, as long as it is in range. -/
def rankOf (num den : Nat) : Nat :=
  let first : Int := max ((num.log2 : Int) - den.log2 - 53) (-1074)
  let scaled (e : Int) : Nat × Nat := if e < 0 then (num * twoPow (-e).toNat, den) else (num, den * twoPow e.toNat)
  let e := if (scaled first).1 / (scaled first).2 < twoPow 53 then first else first + 1
  (e + 1074).toNat * twoPow 52 + roundDiv (scaled e).1 (scaled e).2

/-- The double nearest to a fraction; beyond the range it is an infinity. -/
def nearest (negative : Bool) (num den : Nat) : Double :=
  ranked negative (min (if num == 0 then 0 else rankOf num den) infinityRank) (Nat.min_le_right _ _)

/-- The double nearest to `digits * 10 ^ exponent`. Exponents far outside the range are not expanded. -/
def ofDecimal (negative : Bool) (digits : Nat) (exponent : Int) : Double :=
  if digits == 0 then zero negative
  else
    let top : Int := (digits.log2 : Int) * 30103 / 100000 + exponent
    if 400 < top then infinity negative
    else if top < -400 then zero negative
    else if exponent < 0 then nearest negative digits (tenPow (-exponent).toNat)
    else nearest negative (digits * tenPow exponent.toNat) 1

/-- What is written as a decimal is a number. -/
theorem ofDecimal_ne_nan (negative : Bool) (digits : Nat) (exponent : Int) :
    ofDecimal negative digits exponent ≠ nan := by
  unfold ofDecimal
  split
  · exact Double.noConfusion
  · simp only
    repeat' split
    all_goals exact Double.noConfusion

/-- The double with the other sign. -/
def negate : Double → Double
  | nan => nan
  | ranked negative rank h => ranked (!negative) rank h

example : nearest false 1 1 = ranked false (1023 * twoPow 52) (by decide +kernel) := by decide +kernel
example : (nearest true 1 3).toBinary? = some ⟨true, 6004799503160661, -54⟩ := by decide +kernel
example : ofDecimal false 1 400 = infinity false := by decide +kernel

end Double

end WorkGraph
