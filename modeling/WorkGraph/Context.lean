import WorkGraph.Record.Execution

/-!
# The context of an execution

What the nodes of an execution see of each other: the payload, the output and type of each node that has run, in the
order in which they ran, and the click that resumed the execution. An output is written at most once (`record_twice`);
only a click adds fields to one. `Context.flat` is the same as one map, and `Context.replay` builds a context from the
stored node logs.
-/

namespace WorkGraph

structure Context where
  triggerData : Value
  outputs : Entries Value
  nodeTypes : Entries String
  buttonData : Option Value
  /-- The nodes that have been dispatched, the failed ones included. -/
  completed : List String
  deriving Inhabited

namespace Context

/-- The context in which nothing has run. No payload counts as an empty one. -/
def start (triggerData : Value) : Context :=
  { triggerData := if triggerData.isNull then .map [] else triggerData
    outputs := []
    nodeTypes := []
    buttonData := none
    completed := [] }

def isCompleted (c : Context) (node : String) : Bool :=
  c.completed.contains node

def markCompleted (c : Context) (node : String) : Context :=
  if c.isCompleted node then c else { c with completed := c.completed ++ [node] }

def hasOutput (c : Context) (node : String) : Bool :=
  c.outputs.has node

/-- The output of a node; null if there is none. -/
def output (c : Context) (node : String) : Value :=
  Value.field c.outputs node

/-- Writes the output of a node, which must not have one. -/
def record (c : Context) (node type : String) (output : Value) : Except Fault Context :=
  if c.hasOutput node then .error (.engine ("Output for node '" ++ node ++ "' already recorded"))
  else .ok ({ c with outputs := c.outputs.set node output, nodeTypes := c.nodeTypes.set node type }.markCompleted node)

/-- The nodes of a type, in the order in which they ran. -/
def nodesOfType (c : Context) (type : String) : List String :=
  (c.nodeTypes.filter (·.2 == type)).map (·.1)

/-- Adds the fields of a click to the output of a node. An output that is no map becomes one of its fields. -/
def spliceButton (c : Context) (node : String) (fields : Entries Value) : Context :=
  let entry : Entries Value := match c.output node with
    | .map entries => entries
    | .null => []
    | v => [("result", v)]
  { c with outputs := c.outputs.set node (.map (entry.merge fields)) }

def setButtonData (c : Context) (data : Value) : Context :=
  { c with buttonData := data.some? }

/-- The context as one map: the payload, the node types, the click if there was one, then a key for each node. A node
cannot take the place of the keys before it. -/
def flat (c : Context) : Entries Value :=
  let head : Entries Value :=
    [("trigger_data", c.triggerData), ("_node_types", .map (c.nodeTypes.map fun e => (e.1, .str e.2)))] ++
      (c.buttonData.map fun data => [("button_data", data)]).getD []
  c.outputs.foldl (fun flat entry => flat.setDefault entry.1 entry.2) head

/-- One stored entry added to a context: its node counts as dispatched, and its output, if it has one, is recorded
unless the node has one already. Entries that tell of clicks are passed over. -/
def replayLog (c : Context) (log : NodeLog) : Except Fault Context :=
  if log.isRouting then .ok c
  else
    let c := c.markCompleted log.nodeId
    if log.outputData.isNull || c.hasOutput log.nodeId then .ok c
    else c.record log.nodeId log.nodeType log.outputData

/-- The context that stored entries tell of, in their order. -/
def replay (triggerData : Value) (logs : List NodeLog) : Except Fault Context :=
  logs.foldlM replayLog (start triggerData)

/-- A second output of a node is refused. -/
theorem record_twice {c : Context} {node : String} (h : c.hasOutput node = true) (type : String) (output : Value) :
    c.record node type output = .error (.engine ("Output for node '" ++ node ++ "' already recorded")) := by
  simp [record, h]

theorem isCompleted_markCompleted (c : Context) (node other : String) :
    (c.markCompleted node).isCompleted other = (other == node || c.isCompleted other) := by
  unfold markCompleted
  split
  · next h =>
    by_cases ho : other = node
    · subst ho; simp [h]
    · simp [ho]
  · by_cases ho : other = node <;> simp [isCompleted, ho]

end Context

end WorkGraph
