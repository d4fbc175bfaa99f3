import WorkGraph.Dispatch
import WorkGraph.Store.Workflows

/-!
# Invocations

The engine works on an execution in one of two ways: `execute` runs a workflow from its trigger node, `resume` goes on
behind a node whose message was answered. What became of the run is then written to the execution by `finalize`: a
suspended run leaves it running, else it has failed if anything failed, and succeeded if nothing did.
-/

namespace WorkGraph.Invocation

/-- Writes the outcome of a run to its execution. The id of the execution is returned unless it failed. -/
def finalize (r : Run) (duration : Int) : Engine (Option String) := do
  Engine.entering .finalize
  if r.suspended then
    let error := if r.firstError == "" then .null else .str r.firstError
    let _ ← Journal.finishExecution r.execution .running error duration
    return some r.execution
  else if r.failed then
    let _ ← Journal.finishExecution r.execution .failed (.str r.firstError) duration
    return none
  else
    let _ ← Journal.finishExecution r.execution .success .null duration
    return some r.execution

/-- Dispatches the trigger node. -/
def fromTrigger : Running Unit := do
  match (← Running.run).workflow.triggerNode? with
  | some node => dispatch node
  | none => throw (.rejected .nothingToStart)

/-- Warns of a cycle in a graph. -/
def warnOfCycle (workflow : Workflow) (g : Graph) : Engine Unit :=
  match g.cycle? with
  | none => return
  | some vertices =>
    Engine.log .warning "executor" "workflow_has_cycle"
      [("workflow_id", .str workflow.id), ("nodes", .list (vertices.map Value.str))]

/-- The run after a computation on it, in which a fault counts as a failure. -/
def settle (workflow : Workflow) (r : Run) (act : Running Unit) : Engine Run := do
  match ← Engine.onRun r act with
  | (.ok (), r) => return r
  | (.error fault, r) =>
    Engine.logFault "executor" ("Workflow " ++ workflow.id ++ " execution failed: " ++ fault.message)
    return r.recordFailure fault.message

/-- Runs a workflow on a payload: the run at its end, of which the execution does not know yet. -/
def launch (workflow : Workflow) (payload : Value) : Engine Run := do
  let context := Context.start payload
  let execution ← Journal.startExecution workflow.id context.triggerData
  let r := Run.start execution.id workflow context
  Engine.log .info "executor" "workflow_started"
    [("workflow_id", .str workflow.id), ("execution_id", .str execution.id)]
  warnOfCycle workflow r.graph
  settle workflow r fromTrigger

/-- Runs a workflow on a payload. The id of the execution is returned unless it failed. -/
def execute (workflow : Workflow) (payload : Value) : Engine (Option String) := do
  Engine.entering .execute
  let start ← Engine.reading
  let r ← launch workflow payload
  finalize r (← Engine.since start).millis

/-- Runs a stored workflow, provided it is published. -/
def executeStored (id : String) (payload : Value) : Engine (Option String) := do
  let found ← Store.Workflows.find? id
  match found.filter Workflow.isPublished with
  | some workflow => execute workflow payload
  | none =>
    Engine.log .warning "engine" "workflow_not_runnable"
      [("workflow_id", .str id), ("found", .bool found.isSome)]
    return none

/-- Routes a node whose message was answered. Its output in the context must have the fields of the click; the node
itself is not run again. `prior` is the error that the execution has had before. -/
def resume (workflow : Workflow) (execution : String) (node : Node) (context : Context) (prior : Option String) :
    Engine (Routing × Run) := do
  Engine.entering .resume
  let r := Run.start execution workflow context
  let r := (prior.filter (· != "")).elim r r.recordFailure
  let output := context.output node.id
  if !(← Engine.ofExcept (Router.claims (← Engine.config).buttonTools node output .buttonClick)) then
    return (Routing.nowhere, r)
  let links := r.graph.links node.id
  let (result, r) ← Engine.onRun r (Routing.along (some .buttonClick) dispatch node output links)
  let routing ← Engine.ofExcept result
  return (routing, routing.noteIn r)

end WorkGraph.Invocation
