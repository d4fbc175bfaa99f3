import WorkGraph.Template
import WorkGraph.Value.Numeral
import WorkGraph.Workflow

/-!
# Conditions

A condition compares the value of a field with a fixed value. Comparison is loose, since editors store values as texts:
numbers equal the texts that write them, truth values equal what counts as them, and null equals what is empty
(`Value.looseEquals`). `Condition.evaluate` reads the configuration of a condition node and answers with the result and
what it was computed from; an operator that is not supported is a fault of the node.
-/

namespace WorkGraph

namespace Value

/-- Null, false, zero, the texts without content and "0", and the empty collections. -/
def isEmpty : Value → Bool
  | null => true
  | bool b => !b
  | num n => n.isZero
  | str s => s == "" || s == "0"
  | list items => items.isEmpty
  | map entries => entries.isEmpty

/-- What null is equal to. -/
def equalsNull : Value → Bool
  | null => true
  | bool b => !b
  | num n => n.isZero
  | str s => s == ""
  | list items => items.isEmpty
  | map entries => entries.isEmpty

def isCollection : Value → Bool
  | list _ => true
  | map _ => true
  | _ => false

/-- Equality across the representations of a value. -/
def looseEquals (left right : Value) : Except Fault Bool :=
  if left.isNull then .ok right.equalsNull
  else if right.isNull then .ok left.equalsNull
  else if left.isBool || right.isBool then .ok (left.isEmpty == right.isEmpty)
  else if left.isNumeric && right.isNumeric then do
    let x ← left.real
    let y ← right.real
    return x.same y
  else if left.isCollection || right.isCollection then .ok (left.same right)
  else .ok (left.display == right.display)

/-- Whether a text holds another as a part. -/
def hasPart (needle : List Char) : List Char → Bool
  | [] => needle.isEmpty
  | c :: rest => needle.isPrefixOf (c :: rest) || hasPart needle rest

/-- Whether a text contains the text of a value; null has the empty text. -/
def contains (field value : Value) : Bool :=
  match field with
  | str s => hasPart (if value.isNull then [] else value.display.toList) s.toList
  | _ => false

/-- Whether both sides are numeric and their doubles are in the given relation. -/
def comparesBy (relation : Double → Double → Bool) (left right : Value) : Except Fault Bool :=
  if left.isNumeric && right.isNumeric then do
    let x ← left.real
    let y ← right.real
    return relation x y
  else .ok false

end Value

namespace Condition

inductive Operator where
  | equals
  | notEquals
  | contains
  | greaterThan
  | lessThan
  | exists
  | empty
  deriving DecidableEq, Repr

namespace Operator

def name : Operator → String
  | equals => "equals"
  | notEquals => "not_equals"
  | contains => "contains"
  | greaterThan => "greater_than"
  | lessThan => "less_than"
  | .exists => "exists"
  | empty => "empty"

def all : List Operator := [equals, notEquals, contains, greaterThan, lessThan, .exists, empty]

def ofName? (name : String) : Option Operator :=
  all.find? (·.name == name)

/-- The result of an operator on the value of the field and the fixed value. -/
def holds (op : Operator) (field value : Value) : Except Fault Bool :=
  match op with
  | equals => field.looseEquals value
  | notEquals => (!·) <$> field.looseEquals value
  | contains => .ok (field.contains value)
  | greaterThan => Value.comparesBy (fun x y => y.below x) field value
  | lessThan => Value.comparesBy Double.below field value
  | .exists => .ok (!field.isNull)
  | empty => .ok field.isEmpty

theorem ofName?_name (op : Operator) : ofName? op.name = some op := by
  cases op <;> decide

end Operator

/-- The operator that a configuration names, `equals` where it names none. A collection names nothing at all. -/
def operator (node : String) (value : Value) : Except Fault Operator :=
  match value.orElse (.str Operator.equals.name) with
  | .str name => (Operator.ofName? name).elim (unsupported (.str name)) .ok
  | v => if v.isKey then unsupported v else .error (.misuse (.asKey v.kindName))
where
  unsupported (v : Value) : Except Fault Operator :=
    .error (.failed
      { kind := .configuration
        node
        type := NodeType.condition.name
        message := "Unsupported condition operator '" ++ v.display ++ "'. Supported: " ++
          String.intercalate ", " (Operator.all.map Operator.name)
        output := .null })

/-- The outcome of a condition node. -/
def evaluate (config : Entries Value) (s : Scope) (node : String) : Except Fault Value := do
  let field := (config.get? "field").getD (.str "")
  let value := (config.get? "value").getD (.str "")
  let op ← operator node (Value.field config "operator")
  let fieldValue ← Template.evaluate s field
  let result ← op.holds fieldValue value
  return .map [("result", .bool result), ("field", field), ("field_value", fieldValue),
    ("operator", .str op.name), ("compare_value", value)]

end Condition

end WorkGraph
