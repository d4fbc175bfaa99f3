import WorkGraph.Context
import WorkGraph.Path

/-!
# Looking up paths in a context

A path starts at a root, the id of a node or one of the reserved names, and walks on from its value. A path below
`parents` asks for a field of the node of a given type that ran last: `Scope.parents`. Nodes see a running context,
collaborators its flat map; both are scopes.
-/

namespace WorkGraph

/-- Where paths are looked up. -/
inductive Scope where
  | live (context : Context)
  | flat (entries : Entries Value)

namespace Scope

/-- The value of a root; null if there is none. -/
def root : Scope → String → Value
  | live c, name =>
    if name = "trigger_data" then c.triggerData
    else if name = "button_data" then c.buttonData.getD .null
    else if name = "_node_types" then .map (c.nodeTypes.map fun e => (e.1, .str e.2))
    else c.output name
  | flat entries, name => Value.field entries name

/-- The nodes of a type in the order in which they ran. A flat map may hold anything under the reserved key. -/
def nodesOfType : Scope → String → Except Fault (List String)
  | live c, type => .ok (c.nodesOfType type)
  | flat entries, type =>
    let types := Value.field entries "_node_types"
    if !types.truthy then .ok []
    else match types with
      | .map types => .ok ((types.filter (·.2.str? == some type)).map (·.1))
      | v => .error (.noMember v.kindName "items")

/-- The field of an output: the literal key if it has a value, else the end of the path. -/
def fieldOf (output : Entries Value) (field : String) : Except Fault Value :=
  let direct := Value.field output field
  if direct.isNull then Path.get (.map output) field else .ok direct

/-- The first non-null field among the outputs of some nodes. -/
def firstField (s : Scope) (field : String) : List String → Except Fault Value
  | [] => .ok .null
  | node :: rest =>
    match s.root node with
    | .map output => do
      let value ← fieldOf output field
      if value.isNull then firstField s field rest else return value
    | _ => firstField s field rest

/-- A field of the node of a type that ran last among those that have it. -/
def parents (s : Scope) (type field : String) : Except Fault Value := do
  s.firstField field (← s.nodesOfType type).reverse

/-- The characters up to the first point and behind it. -/
def cutAtPoint (cs : List Char) : List Char × List Char :=
  let head := cs.takeWhile (· != '.')
  (head, cs.drop (head.length + 1))

/-- The value of a path without blanks around it. -/
def resolveTrimmed (s : Scope) (path : List Char) : Except Fault Value :=
  let prefixed := "parents.".toList
  if path.isEmpty then .ok .null
  else if prefixed.isPrefixOf path then
    let (type, field) := cutAtPoint (path.drop prefixed.length)
    if type.isEmpty || field.isEmpty then .ok .null
    else s.parents (String.ofList type) (String.ofList field)
  else do
    match ← Path.splitChars path with
    | .key name :: rest =>
      let value := s.root name
      if value.isNull then return .null else Path.walk value rest
    | _ => return .null

/-- The value of a path; null where nothing is there. -/
def resolve (s : Scope) (path : List Char) : Except Fault Value :=
  s.resolveTrimmed (Text.strip path)

end Scope

end WorkGraph
