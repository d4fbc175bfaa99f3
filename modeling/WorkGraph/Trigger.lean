import WorkGraph.Invocation

/-!
# Triggers

An event from outside is fanned out to every published workflow whose trigger nodes declare it. One workflow that fails
does not stop the others. `fanOut` leaves open how a workflow is run, and `fire` executes it.
-/

namespace WorkGraph.Trigger

variable (run : Workflow → Value → Engine (Option String))

/-- Runs one workflow; nothing is returned unless it has an execution that did not fail. -/
def runOne (trigger payload : Value) (workflow : Workflow) : Engine (Option String) := do
  match ← Engine.attempt (run workflow payload) with
  | .ok (some execution) => return some execution
  | .ok none =>
    Engine.log .warning "registry" "workflow_run_failed"
      [("trigger_id", trigger), ("workflow_id", .str workflow.id)]
    return none
  | .error fault =>
    Engine.logFault "registry"
      ("Workflow " ++ workflow.id ++ " failed to run for trigger '" ++ trigger.display ++ "': " ++ fault.message)
    return none

/-- Runs workflows one after the other. -/
def runAll (trigger payload : Value) : List Workflow → Engine (List String)
  | [] => return []
  | workflow :: rest => do
    let execution ← runOne run trigger payload workflow
    return execution.toList ++ (← runAll trigger payload rest)

/-- Runs every workflow that declares a trigger: the ids of the executions that did not fail. -/
def fanOut (trigger payload : Value) : Engine (List String) := do
  let workflows ← Store.Workflows.byTrigger trigger
  Engine.log .info "registry" "trigger_fired"
    [("trigger_id", trigger), ("matched", .int workflows.length)]
  runAll run trigger (payload.orElse (.map [])) workflows

/-- Fires a trigger. -/
def fire (trigger payload : Value) : Engine (List String) :=
  fanOut Invocation.execute trigger payload

end WorkGraph.Trigger
