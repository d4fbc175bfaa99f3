import WorkGraph.Number.Basic

/-!
# Sums and products of doubles

A sum or a product of two finite doubles is the double nearest to the exact result. Of what is no number nothing else
comes; neither does a number come of infinities that cancel (`Double.add`), nor of zero times infinity (`Double.mul`).
Neither operation depends on the order of its sides (`Double.mul_comm`).
-/

namespace WorkGraph

namespace Double

def isNegative : Double → Bool
  | nan => false
  | ranked negative _ _ => negative

/-- The exact sum of two finite doubles, rounded. A sum of zero is negative only if both sides are. -/
def addFinite (x y : Binary) : Double :=
  let (p, q) := (x.fraction, y.fraction)
  let sum := x.signed (p.1 * q.2) + y.signed (q.1 * p.2)
  nearest (if sum == 0 then x.negative && y.negative else decide (sum < 0)) sum.natAbs (p.2 * q.2)

def add (x y : Double) : Double :=
  match x, y with
  | nan, _ => nan
  | _, nan => nan
  | x, y =>
    match x.toBinary?, y.toBinary? with
    | some a, some b => addFinite a b
    | none, some _ => x
    | some _, none => y
    | none, none => if x.isNegative == y.isNegative then x else nan

/-- The exact product of two finite doubles, rounded. -/
def mulFinite (x y : Binary) : Double :=
  nearest (xor x.negative y.negative) (x.fraction.1 * y.fraction.1) (x.fraction.2 * y.fraction.2)

def mul (x y : Double) : Double :=
  match x, y with
  | nan, _ => nan
  | _, nan => nan
  | x, y =>
    match x.toBinary?, y.toBinary? with
    | some a, some b => mulFinite a b
    | _, _ => if x.place? == some 0 || y.place? == some 0 then nan else infinity (xor x.isNegative y.isNegative)

theorem mulFinite_comm (x y : Binary) : mulFinite x y = mulFinite y x := by
  unfold mulFinite
  rw [Bool.xor_comm, Nat.mul_comm x.fraction.1, Nat.mul_comm x.fraction.2]

/-- The order of the factors does not matter. -/
theorem mul_comm (x y : Double) : mul x y = mul y x := by
  cases x with
  | nan => cases y <;> rfl
  | ranked m p hp =>
    cases y with
    | nan => rfl
    | ranked n q hq =>
      simp only [mul]
      rw [Bool.or_comm, Bool.xor_comm]
      cases (ranked m p hp).toBinary? with
      | none => cases (ranked n q hq).toBinary? <;> rfl
      | some a =>
        cases (ranked n q hq).toBinary? with
        | none => rfl
        | some b => exact mulFinite_comm a b

example : add (ofDecimal false 1 (-1)) (ofDecimal false 2 (-1)) = ofDecimal false 30000000000000004 (-17) := by
  decide +kernel
example : mul (ofDecimal true 15 (-1)) (ofDecimal false 2 0) = ofDecimal true 3 0 := by decide +kernel
example : add (zero true) (zero false) = zero false := by decide +kernel

end Double

end WorkGraph
