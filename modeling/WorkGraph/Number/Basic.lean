import WorkGraph.Number.Shortest

/-!
# Numbers of a document

A number of a document is an integer of any size or a double. The two kinds compare by value, exactly
(`Number.same`), and an integer becomes a double only where arithmetic asks for one, if it is in range
(`Number.toDouble?`).
-/

namespace WorkGraph

inductive Number where
  | int (n : Int)
  | float (x : Double)
  deriving DecidableEq, Repr

namespace Number

/-- The integers from here on are nearer to infinity than to the largest finite double. -/
def rangeLimit : Nat := twoPow 1024 - twoPow 970

/-- Whether there is a finite double near to an integer. -/
def inRange (n : Int) : Bool :=
  n.natAbs < rangeLimit

/-- The double nearest to an integer; none when it is out of range. -/
def doubleOfInt? (n : Int) : Option Double :=
  if inRange n then some (.nearest (decide (n < 0)) n.natAbs 1) else none

/-- The value as a double; none for an integer out of range. -/
def toDouble? : Number → Option Double
  | int n => doubleOfInt? n
  | float x => some x

/-- Equality by value, across the kinds. -/
def same : Number → Number → Bool
  | int m, int n => m == n
  | float x, float y => x.same y
  | int n, float x => x.toBinary?.any fun b => b.compareInt n == .eq
  | float x, int n => x.toBinary?.any fun b => b.compareInt n == .eq

/-- Whether a number is less than the fraction `num / den`, exactly. -/
def isBelow (n : Number) (num : Int) (den : Nat) : Bool :=
  match n with
  | int n => decide (n * den < num)
  | float .nan => false
  | float x@(.ranked negative _ _) =>
    x.toBinary?.elim negative fun b => decide (b.signed (b.fraction.1 * den) < num * b.fraction.2)

/-- Whether the value is zero, of either sign. -/
def isZero : Number → Bool
  | int n => n == 0
  | float x => x.place? == some 0

/-- The shortest text that reads back. -/
def text : Number → String
  | int n => toString n
  | float x => plainFloat.render x

/-- Integers are the same exactly when they are equal. -/
@[simp] theorem same_int (m n : Int) : same (int m) (int n) = (m == n) := rfl

/-- Sameness does not depend on the order of its sides. -/
theorem same_comm (a b : Number) : a.same b = b.same a := by
  cases a <;> cases b
  · exact Bool.beq_comm
  · rfl
  · rfl
  · exact Double.same_comm _ _

/-- A number is the same as itself, unless it is the double that is no number. -/
theorem same_self {n : Number} (h : n ≠ float .nan) : n.same n = true := by
  cases n with
  | int n => simp
  | float x =>
    have : x ≠ .nan := fun e => h (congrArg float e)
    exact (Double.same_self x).2 this

end Number

end WorkGraph
