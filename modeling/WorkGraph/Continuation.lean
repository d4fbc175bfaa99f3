import WorkGraph.Invocation
import WorkGraph.Store.Claims

/-!
# Continuing after a click

A click names a message; the mapping of the message names the execution and the node that wait for it. Nothing else is
left of the run that was suspended, so `restore` builds its context from the node logs. Of all clicks on a message one
at most goes on: it claims the message, and gives the claim up only if the context cannot be restored. A click that does
not lead anywhere leaves an entry in the log of the execution (`refuse`).
-/

namespace WorkGraph.Continuation

/-- Ends a continuation. -/
def stall {α : Type} (obstacle : Obstacle) (execution node : String) : Engine α :=
  throw (.stalled ⟨obstacle, execution, some node⟩)

/-- The workflow of a mapping, which must be published. -/
def workflowOf (mapping : ButtonMapping) : Engine Workflow := do
  match (← Store.Workflows.find? mapping.workflowId).filter Workflow.isPublished with
  | some workflow => return workflow
  | none => stall (.workflowUnavailable mapping.workflowId) mapping.executionId mapping.nodeId

/-- The execution of a mapping, which must be running. -/
def executionOf (mapping : ButtonMapping) : Engine Execution := do
  match ← Store.Executions.find? mapping.executionId with
  | none => stall .executionMissing mapping.executionId mapping.nodeId
  | some execution =>
    if execution.isRunning then return execution
    else stall (.notWaiting execution.status.name) execution.id mapping.nodeId

/-- Warns of a button that the node does not declare. -/
def warnOfButton (mapping : ButtonMapping) (execution : Execution) (button : Value) : Engine Unit :=
  let known := mapping.buttonIds.map Value.str
  if !known.isEmpty && !known.any button.same then
    Engine.log .warning "continuation" "continuation_unknown_button"
      [("execution_id", .str execution.id), ("button_id", button), ("known_buttons", .list known)]
  else return

/-- The context in which the execution was suspended, with the click in the output of the node. -/
def restore (execution : Execution) (node : Node) (button data : Value) : Engine Context := do
  let logs ← Store.NodeLogs.all execution.id
  let context ← Engine.ofExcept (Context.replay execution.triggerData logs)
  return context.spliceButton node.id (← Engine.ofExcept (ButtonMessage.clicked button data))

/-- The restored context. Where it cannot be restored, the message is free again. -/
def restoreOrRelease (message : String) (execution : Execution) (node : Node) (button data : Value) :
    Engine Context := do
  match ← Engine.attempt (restore execution node button data) with
  | .ok context => return context
  | .error fault =>
    Store.Claims.release message
    stall (.notRestored fault.message) execution.id node.id

/-- The milliseconds spent on an execution, the earlier invocations included. -/
def totalDuration (execution : Execution) (start : Int) : Engine Int := do
  match (← Engine.since start).after? execution.durationMs with
  | some duration => return duration
  | none => throw .tooLarge

/-- Why a button leads nowhere. -/
def unconnected (button : Value) : String :=
  "No connected node found for button_id '" ++ button.display ++
    "'. Make sure a node is connected to this button's output handle."

/-- Notes that a click was not routed, if it was not. -/
def noteUnrouted (message : String) (execution : Execution) (node : Node) (button : Value) (routing : Routing)
    (r : Run) : Engine Run := do
  if routing.routed then return r
  let text := unconnected button
  let _ ← Journal.routingFailed execution.id node.id text
    [("message_id", .str message), ("button_id", button),
      ("available_handles", Routing.outletList (r.graph.links node.id))]
  return r.recordFailure text

/-- Goes on from the restored context. -/
def goOn (message : String) (workflow : Workflow) (execution : Execution) (node : Node) (button : Value)
    (context : Context) (start : Int) : Engine (Option String) := do
  let (routing, r) ← Invocation.resume workflow execution.id node context execution.errorMessage
  let r ← noteUnrouted message execution node button routing r
  Invocation.finalize r (← totalDuration execution start)

/-- Goes on from the restored context; an execution in which that is interrupted has failed. -/
def goOnOrFail (message : String) (workflow : Workflow) (execution : Execution) (node : Node) (button : Value)
    (context : Context) (start : Int) : Engine (Option String) := do
  match ← Engine.attempt (goOn message workflow execution node button context start) with
  | .ok answer => return answer
  | .error fault =>
    let duration ← totalDuration execution start
    let failure : ResumeFailure := ⟨.interrupted fault.message, execution.id, some node.id⟩
    Engine.logFault "continuation" failure.message
    let _ ← Journal.finishExecution execution.id .failed (.str failure.message) duration
    throw (.stalled failure)

/-- Continues the execution of a mapping. -/
def proceed (mapping : ButtonMapping) (message : String) (button data : Value) : Engine (Option String) := do
  let start ← Engine.reading
  let workflow ← workflowOf mapping
  let execution ← executionOf mapping
  match workflow.node? mapping.nodeId with
  | none => stall .nodeMissing execution.id mapping.nodeId
  | some node =>
    warnOfButton mapping execution button
    if !(← Store.Claims.claim message execution.id) then
      stall (.alreadyClaimed message) execution.id mapping.nodeId
    let context ← restoreOrRelease message execution node button data
    Engine.log .info "continuation" "continuation_started"
      [("execution_id", .str execution.id), ("node_id", .str node.id), ("button_id", button)]
    goOnOrFail message workflow execution node button context start

/-- Leaves an entry that tells why a click led nowhere. -/
def refuse (mapping : ButtonMapping) (message : String) (button : Value) (fault : Fault) : Engine Unit := do
  let own : Entries Value := [("message_id", .str message), ("button_id", button)]
  match fault with
  | .stalled failure =>
    let _ ← Journal.routingFailed mapping.executionId mapping.nodeId failure.message (own.merge failure.details)
  | fault =>
    let text := "Button click routing failed: " ++ fault.message
    Engine.logFault "continuation" text
    let _ ← Journal.routingFailed mapping.executionId mapping.nodeId text
      (own.merge [("exception", .str fault.message)])

end Continuation

/-- Continues the execution that waits for an answer to a message. The id of the execution is returned if the click was
routed and the execution has not failed. -/
def click (message : String) (button data : Value) : Engine (Option String) := do
  match ← Store.Mappings.find? message with
  | none =>
    Engine.log .error "continuation" "continuation_mapping_not_found"
      [("message_id", .str message), ("button_id", button)]
    return none
  | some mapping =>
    match ← Engine.attempt (Continuation.proceed mapping message button (data.orElse (.map []))) with
    | .ok answer => return answer
    | .error fault =>
      Continuation.refuse mapping message button fault
      return none

end WorkGraph
