/-!
# Exact binary fractions

A `Binary` is a sign and a whole mantissa times a power of two. What is done with one (the whole part, comparison with
an integer, a number of units of a scale) is exact integer arithmetic; where a whole number has to be chosen, `roundDiv`
takes the nearest, and of two the even one.
-/

namespace WorkGraph

/-- A sign and a magnitude `mantissa * 2 ^ exponent`. -/
structure Binary where
  negative : Bool
  mantissa : Nat
  exponent : Int
  deriving DecidableEq, Repr

/-- The powers of two. -/
def twoPow (n : Nat) : Nat := Nat.pow 2 n

/-- The powers of ten. -/
def tenPow (n : Nat) : Nat := Nat.pow 10 n

/-- A quotient rounded to the nearest whole number, a tie to the even one. -/
def roundDiv (num den : Nat) : Nat :=
  let q := num / den
  let twice := 2 * (num % den)
  if twice < den then q
  else if den < twice then q + 1
  else q + q % 2

/-- The rounded quotient is at most half a unit away. -/
theorem roundDiv_near (num den : Nat) (h : 0 < den) :
    2 * (roundDiv num den * den) ≤ 2 * num + den ∧ 2 * num ≤ 2 * (roundDiv num den * den) + den := by
  have hdiv := Nat.div_add_mod num den
  have hlt := Nat.mod_lt num h
  unfold roundDiv
  simp only
  generalize num / den = q at *
  generalize num % den = r at *
  have step : (q + 1) * den = den * q + den := by rw [Nat.add_mul, Nat.one_mul, Nat.mul_comm]
  have still : q * den = den * q := Nat.mul_comm q den
  split
  · omega
  · split
    · omega
    · rcases Nat.mod_two_eq_zero_or_one q with hq | hq <;> rw [hq]
      · rw [Nat.add_zero]; omega
      · omega

namespace Binary

/-- The magnitude as a numerator and a denominator. -/
def fraction (b : Binary) : Nat × Nat :=
  if b.exponent < 0 then (b.mantissa, twoPow (-b.exponent).toNat) else (b.mantissa * twoPow b.exponent.toNat, 1)

/-- A number with the sign of `b`. -/
def signed (b : Binary) (n : Nat) : Int :=
  if b.negative then -(n : Int) else n

/-- The whole part, toward zero. -/
def truncate (b : Binary) : Int :=
  b.signed (b.fraction.1 / b.fraction.2)

/-- Whether there is nothing behind the point. -/
def isWhole (b : Binary) : Bool :=
  b.fraction.1 % b.fraction.2 == 0

/-- The exact order of an integer and a fraction. -/
def compareInt (n : Int) (b : Binary) : Ordering :=
  compare (n * b.fraction.2) (b.signed b.fraction.1)

/-- The value in units of `1 / scale`, rounded to the nearest, a tie to the even number. -/
def rounded (b : Binary) (scale : Nat) : Int :=
  b.signed (roundDiv (b.fraction.1 * scale) b.fraction.2)

end Binary

end WorkGraph
