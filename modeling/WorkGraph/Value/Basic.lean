import WorkGraph.Entries
import WorkGraph.Number.Basic

/-!
# Documents

A `Value` is what travels along a workflow: payloads, node configurations, outputs, records. Maps keep the order in
which their keys were written. `Value.truthy` is the reading of any value as a condition, and `Value.same` equality by
content, under which numbers of both kinds and the two truth values (as one and zero) compare by value.
-/

namespace WorkGraph

inductive Value where
  | null
  | bool (b : Bool)
  | num (n : Number)
  | str (s : String)
  | list (items : List Value)
  | map (entries : List (String × Value))
  deriving Inhabited

namespace Value

/-- An integer as a value. -/
def int (n : Int) : Value := num (.int n)

/-- A text that may be absent. -/
def ofText? : Option String → Value
  | none => null
  | some s => str s

/-- Empty texts and collections, zero, false and null count as false, all else as true. -/
def truthy : Value → Bool
  | null => false
  | bool b => b
  | num n => !n.isZero
  | str s => s != ""
  | list items => !items.isEmpty
  | map entries => !entries.isEmpty

def isNull : Value → Bool
  | null => true
  | _ => false

def isBool : Value → Bool
  | bool _ => true
  | _ => false

/-- The entries of a map. -/
def entries? : Value → Option (Entries Value)
  | map entries => some entries
  | _ => none

def str? : Value → Option String
  | str s => some s
  | _ => none

/-- The value if it is not null. -/
def some? : Value → Option Value
  | null => none
  | v => some v

/-- The first value if it counts as true, else the second. -/
def orElse (v w : Value) : Value :=
  if v.truthy then v else w

/-- The value of a key of a map; null for an absent key. -/
def field (entries : Entries Value) (key : String) : Value :=
  (entries.get? key).getD null

/-- What a value is called in an error text. -/
def kindName : Value → String
  | null => "NoneType"
  | bool _ => "bool"
  | num (.int _) => "int"
  | num (.float _) => "float"
  | str _ => "str"
  | list _ => "list"
  | map _ => "dict"

/-- The number that a number or a truth value counts as in a comparison. -/
def asNumber? : Value → Option Number
  | bool b => some (.int (if b then 1 else 0))
  | num n => some n
  | _ => none

mutual

/-- Equality by content. -/
def same : Value → Value → Bool
  | null, w => w.isNull
  | bool b, w => w.asNumber?.any (Number.same (.int (if b then 1 else 0)))
  | num n, w => w.asNumber?.any n.same
  | str s, w => match w with
    | str t => s == t
    | _ => false
  | list xs, w => match w with
    | list ys => sameItems xs ys
    | _ => false
  | map xs, w => match w with
    | map ys => xs.length == ys.length && sameEntries xs ys
    | _ => false

/-- Equality of lists, place by place. -/
def sameItems : List Value → List Value → Bool
  | [], ys => ys.isEmpty
  | x :: xs, ys => match ys with
    | [] => false
    | y :: ys => same x y && sameItems xs ys

/-- Whether each entry of the first map has its like in the second. -/
def sameEntries : List (String × Value) → List (String × Value) → Bool
  | [], _ => true
  | (k, x) :: xs, ys => (match Entries.get? ys k with
    | none => false
    | some y => same x y) && sameEntries xs ys

end

/-- Whether a value can be a key: lists and maps cannot. -/
def isKey : Value → Bool
  | list _ => false
  | map _ => false
  | _ => true

@[simp] theorem truthy_null : truthy null = false := rfl

@[simp] theorem truthy_bool (b : Bool) : truthy (bool b) = b := rfl

@[simp] theorem same_str (s t : String) : same (str s) (str t) = (s == t) := by
  simp [same]

end Value

end WorkGraph
