import WorkGraph.Action
import WorkGraph.Agent
import WorkGraph.Condition
import WorkGraph.Journal
import WorkGraph.Routing

/-!
# Dispatching nodes

`dispatch` runs a node, unless it has run before, records its output and routes it, and so on along the graph, depth
first. A failing node is journalled where it fails, and its fault goes to whoever dispatched it.
-/

namespace WorkGraph.Dispatch

/-- The output of a node in a context. -/
def runNode (node : Node) (r : Run) : Engine Value :=
  match node.nodeType? with
  | some .trigger => return r.context.triggerData
  | some .agent => Agent.run node r.context r.execution
  | some .action => Action.run node r.context r.workflow.id r.execution
  | some .condition => Engine.ofExcept (Condition.evaluate node.config (.live r.context) node.id)
  | none =>
    throw (.failed
      { kind := .configuration
        node := node.id
        type := node.type
        message := (Rejection.unknownType node.id node.type).message
        output := .null })

/-- Records an output in the context. -/
def record (node : Node) (output : Value) : Running Unit := do
  let c ← Running.context
  Running.setContext (← Engine.ofExcept (c.record node.id node.type output))

/-- Keeps what a failed node produced all the same, and closes its entry. -/
def fail (node : Node) (log : NodeLog) (start : Int) (fault : Fault) : Running Unit := do
  let duration := (← Engine.since start).millis
  if !fault.output.isNull && !(← Running.context).hasOutput node.id then record node fault.output
  let _ ← Journal.nodeFailed log fault duration fault.output

/-- Runs a node that has not run before: its output, recorded and journalled. -/
def perform (node : Node) : Running Value := do
  Running.modifyRun fun r => { r with context := r.context.markCompleted node.id }
  let start ← Engine.reading
  let r ← Running.run
  let log ← Journal.startNode r.execution node (.map r.context.flat)
  match ← Engine.attempt (runNode node r) with
  | .ok output =>
    record node output
    let duration := (← Engine.since start).millis
    let _ ← Journal.nodeSucceeded log output duration
    return output
  | .error fault =>
    fail node log start fault
    throw fault

/-- Routes a node with its output. -/
def route (dispatch : Node → Running Unit) (node : Node) (output : Value) : Running Unit := do
  let links := (← Running.run).graph.links node.id
  let router ← Engine.ofExcept (Router.choose (← Engine.config).buttonTools node output)
  let routing ← Routing.along router dispatch node output links
  Running.modifyRun routing.noteIn

/-- Runs a node and what follows it, at most `depth` dispatches deep. -/
def within : (depth : Nat) → Node → Running Unit
  | 0, _ => throw (.engine "Dispatch is nested too deeply")
  | depth + 1, node => do
    Running.modifyRun fun r => { r with entered := r.entered ++ [node.id] }
    let r ← Running.run
    if r.context.isCompleted node.id then
      Engine.log .debug "executor" "node_skipped" [("node_id", .str node.id), ("execution_id", .str r.execution)]
    else
      let output ← perform node
      route (within depth) node output

end Dispatch

/-- Runs a node and what follows it. -/
def dispatch (node : Node) : Running Unit := do
  Dispatch.within (← Running.run).depth node

end WorkGraph
