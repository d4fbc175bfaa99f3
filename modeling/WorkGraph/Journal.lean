import WorkGraph.Audit
import WorkGraph.Store.Executions
import WorkGraph.Store.NodeLogs
import WorkGraph.Workflow

/-!
# The journal of an execution

The one writer of execution records and node logs while the engine runs. Each entry goes to the store first, then to
the event log, then to the audit trail.
-/

namespace WorkGraph.Journal

/-- Does something only where there is an audit connection. -/
def audited (act : Engine Unit) : Engine Unit := do
  if (← get).auditor.isSome then act

/-- The audit session of an execution, taken from its record the first time it is asked for. -/
def sessionFor (execution : String) : Engine Value := do
  match (← get).sessions.get? execution with
  | some session => return session
  | none =>
    let found ← Store.Executions.find? execution
    let session := found.elim .null fun e => Value.ofText? e.historySession
    modify fun w => { w with sessions := w.sessions.set execution session }
    return session

/-! ## Executions -/

/-- Opens the session of a new execution; null without an audit connection. -/
def openSession (workflow execution : String) : Engine Value := do
  if (← get).auditor.isSome then
    let session ← Audit.createSession (.str workflow) (.str execution)
    modify fun w => { w with sessions := w.sessions.set execution session }
    return session
  else return .null

/-- Creates the record of a running execution. -/
def startExecution (workflow : String) (triggerData : Value) : Engine Execution := do
  let id ← Engine.freshExecutionId
  let session ← openSession workflow id
  let execution ← Engine.ofExcept (Execution.load (← Engine.stamp) (.map
    [("id", .str id), ("workflow_id", .str workflow), ("status", .str RunStatus.running.name),
      ("trigger_data", triggerData), ("history_session_id", session)]))
  Store.Executions.save execution
  Engine.log .info "recorder" "execution_started" [("execution_id", .str id), ("workflow_id", .str workflow)]
  return execution

/-- Records how an invocation ended. An execution that is still running has no end yet. -/
def finishExecution (id : String) (status : RunStatus) (error : Value) (duration : Int) : Engine Execution := do
  let now ← Engine.stamp
  let ending : Entries Value := if status == .running then [] else [("completed_at", .str now)]
  let execution ← Store.Executions.update id
    ([("status", .str status.name), ("error_message", error), ("duration_ms", .int duration)] ++ ending)
  Engine.log (if status == .failed then .warning else .info) "recorder" "execution_finished"
    [("execution_id", .str id), ("status", .str execution.status.name), ("duration_ms", .int execution.durationMs),
      ("error_message", error)]
  audited do
    Audit.workflowCompleted (← sessionFor id) (.str execution.workflowId) (.str execution.status.name) error
  return execution

/-! ## Nodes -/

/-- Opens the entry of a node, with what it sees. -/
def startNode (execution : String) (node : Node) (input : Value) : Engine NodeLog := do
  let log ← Store.NodeLogs.append execution
    [("node_id", .str node.id), ("node_type", .str node.type), ("node_title", node.displayTitle),
      ("status", .str RunStatus.running.name), ("input_data", input)]
  audited do Audit.nodeStarted (← sessionFor execution) (.str node.id) (.str node.type)
  return log

/-- Closes the entry of a node that succeeded. -/
def nodeSucceeded (log : NodeLog) (output : Value) (duration : Int) : Engine NodeLog := do
  let now ← Engine.stamp
  let updated ← Store.NodeLogs.update log.executionId (.int log.id)
    [("status", .str RunStatus.success.name), ("output_data", output), ("duration_ms", .int duration),
      ("completed_at", .str now)]
  audited do
    Audit.nodeCompleted (← sessionFor log.executionId) (.str log.nodeId) (.str log.nodeType) (.int updated.durationMs)
  return updated

/-- Closes the entry of a node that failed, with the fault and what was produced all the same. -/
def nodeFailed (log : NodeLog) (fault : Fault) (duration : Int) (output : Value) : Engine NodeLog := do
  let now ← Engine.stamp
  let message := Value.str fault.message
  let updated ← Store.NodeLogs.update log.executionId (.int log.id)
    [("status", .str RunStatus.failed.name), ("output_data", output), ("error_message", message),
      ("error_stack", .str fault.account), ("duration_ms", .int duration), ("completed_at", .str now)]
  Engine.log .warning "recorder" "node_failed"
    [("execution_id", .str log.executionId), ("node_id", .str log.nodeId), ("node_type", .str log.nodeType),
      ("error", message)]
  audited do
    Audit.nodeFailed (← sessionFor log.executionId) (.str log.nodeId) (.str log.nodeType) message
  return updated

/-- Adds a failed entry for a click that could not be routed. Every such click has an entry of its own. -/
def routingFailed (execution node message : String) (details : Entries Value) : Engine NodeLog := do
  let now ← Engine.stamp
  let output : Entries Value := [("error", .bool true), ("message", .str message)]
  let log ← Store.NodeLogs.append execution
    [("node_id", .str (node ++ "_button_continuation")), ("node_type", .str buttonRoutingType),
      ("node_title", .str "Button Click Routing"), ("status", .str RunStatus.failed.name),
      ("output_data", .map (output.merge details)), ("error_message", .str message), ("completed_at", .str now)]
  Engine.log .error "recorder" "button_routing_failed"
    [("execution_id", .str execution), ("node_id", .str node), ("error", .str message)]
  return log

end WorkGraph.Journal
