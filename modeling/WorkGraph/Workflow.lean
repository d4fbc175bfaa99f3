import WorkGraph.Record.Checked

/-!
# Workflows

A workflow is a graph of nodes. A node has a type and a free-form configuration; editors may keep further keys on it.
An edge leads from a node to a node, from an outlet if it names one; either end may be missing in drafts.
`Workflow.load` reads the stored form, in which the ends and the outlet have several spellings, and `Workflow.toValue`
writes it with one spelling each.
-/

namespace WorkGraph

/-! ## Nodes -/

structure Node where
  id : String
  type : String
  title : Option String
  config : Entries Value
  agentId : Option String
  triggerType : Option String
  /-- The keys that only the editor knows. -/
  extras : Entries Value
  deriving Inhabited

/-- The types that nodes can have. -/
inductive NodeType where
  | trigger
  | agent
  | action
  | condition
  deriving DecidableEq, Repr

def NodeType.name : NodeType → String
  | trigger => "trigger"
  | agent => "agent"
  | action => "action"
  | condition => "condition"

def NodeType.all : List NodeType := [.trigger, .agent, .action, .condition]

/-- The type of a name. -/
def NodeType.ofName? (name : String) : Option NodeType :=
  NodeType.all.find? (·.name == name)

theorem NodeType.ofName?_name (t : NodeType) : NodeType.ofName? t.name = some t := by
  cases t <;> decide

namespace Node

/-- The type, where it is one of the known. -/
def nodeType? (node : Node) : Option NodeType :=
  NodeType.ofName? node.type

def isOfType (node : Node) (type : NodeType) : Bool :=
  node.type == type.name

/-- The value of a configuration key; null where it is absent. -/
def setting (node : Node) (key : String) : Value :=
  Value.field node.config key

/-- What a reader sees: the title of the node, else that of its configuration, else its id. The configuration is free
form, so this need not be a text. -/
def displayTitle (node : Node) : Value :=
  (Value.ofText? node.title).orElse ((node.setting "title").orElse (.str node.id))

/-- The fields that every node has. -/
def fields : List String := ["id", "type", "title", "config", "agent_id", "trigger_type"]

def read (entries : Entries Value) : Checked Node :=
  Node.mk <$> Checked.required entries "id" Checked.text
    <*> Checked.required entries "type" Checked.text
    <*> Checked.optional entries "title" Checked.text? none
    <*> Checked.optional entries "config" Checked.map []
    <*> Checked.optional entries "agent_id" Checked.text? none
    <*> Checked.optional entries "trigger_type" Checked.text? none
    <*> .ok (entries.filter fun entry => !fields.contains entry.1)

def ofValue : Value → Checked Node :=
  Checked.record read

/-- A node from its stored form, or a fault. -/
def load (v : Value) : Except Fault Node :=
  (ofValue v).orFault "WorkflowNode"

def toEntries (node : Node) : Entries Value :=
  [("id", .str node.id), ("type", .str node.type), ("title", Value.ofText? node.title), ("config", .map node.config),
    ("agent_id", Value.ofText? node.agentId), ("trigger_type", Value.ofText? node.triggerType)] ++ node.extras

def toValue (node : Node) : Value :=
  .map node.toEntries

end Node

/-! ## Edges -/

structure Edge where
  source : Option String
  target : Option String
  outlet : Option String
  deriving DecidableEq, Repr, Inhabited

namespace Edge

def read (entries : Entries Value) : Checked Edge :=
  Edge.mk <$> Checked.spelled entries Checked.text? none ["from", "source", "from_"]
    <*> Checked.spelled entries Checked.text? none ["to", "target"]
    <*> Checked.spelled entries Checked.text? none ["sourceHandle", "source_handle"]

def ofValue : Value → Checked Edge :=
  Checked.record read

def toValue (edge : Edge) : Value :=
  .map [("source", Value.ofText? edge.source), ("target", Value.ofText? edge.target),
    ("source_handle", Value.ofText? edge.outlet)]

/-- Writing an edge and reading it back changes nothing. -/
theorem ofValue_toValue (edge : Edge) : ofValue edge.toValue = .ok edge := by
  obtain ⟨source, target, outlet⟩ := edge
  cases source <;> cases target <;> cases outlet <;> rfl

end Edge

/-! ## Workflows -/

/-- Only published workflows run. -/
inductive WorkflowStatus where
  | draft
  | published
  deriving DecidableEq, Repr, Inhabited

def WorkflowStatus.name : WorkflowStatus → String
  | draft => "draft"
  | published => "published"

def WorkflowStatus.ofName? : String → Option WorkflowStatus
  | "draft" => some draft
  | "published" => some published
  | _ => none

theorem WorkflowStatus.ofName?_name (s : WorkflowStatus) : WorkflowStatus.ofName? s.name = some s := by
  cases s <;> rfl

structure Workflow where
  id : String
  title : Option String
  status : WorkflowStatus
  nodes : List Node
  edges : List Edge
  deriving Inhabited

namespace Workflow

def isPublished (w : Workflow) : Bool :=
  w.status == .published

/-- The ids that the trigger nodes declare, on the node or else in its configuration. -/
def triggerIds (w : Workflow) : List Value :=
  (w.nodes.filter (·.isOfType .trigger)).filterMap fun node =>
    let id := (Value.ofText? node.triggerType).orElse (node.setting "trigger_type")
    if id.truthy then some id else none

def read (entries : Entries Value) : Checked Workflow :=
  Workflow.mk <$> Checked.required entries "id" Checked.text
    <*> Checked.optional entries "title" Checked.text? none
    <*> Checked.optional entries "status" (Checked.word WorkflowStatus.ofName?) .draft
    <*> Checked.optional entries "nodes" (Checked.list Node.ofValue) []
    <*> Checked.optional entries "edges" (Checked.list Edge.ofValue) []

/-- A workflow from its stored form, or a fault. -/
def load (v : Value) : Except Fault Workflow :=
  (Checked.record read v).orFault "WorkflowDefinition"

/-- The stored form. -/
def toValue (w : Workflow) : Value :=
  .map [("id", .str w.id), ("title", Value.ofText? w.title), ("status", .str w.status.name),
    ("nodes", .list (w.nodes.map Node.toValue)), ("edges", .list (w.edges.map Edge.toValue))]

end Workflow

end WorkGraph
