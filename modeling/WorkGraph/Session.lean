import WorkGraph.Continuation
import WorkGraph.Trigger

/-!
# Sessions

A session is a list of steps, taken one after the other in one world: requests to the engine, changes to what is stored
or registered, time that passes, and faults that are injected. A step that ends in a fault does not end the session.
-/

namespace WorkGraph.Session

inductive Step where
  | execute (workflow : Workflow) (payload : Value)
  | executeStored (workflow : String) (payload : Value)
  | trigger (trigger payload : Value)
  | click (message : String) (button data : Value)
  | saveWorkflow (workflow : Workflow)
  | setWorkflowStatus (workflow : String) (status : WorkflowStatus)
  | register (role : Role) (id : String) (collaborator : Option Collaborator)
  | unregister (role : Role) (id : String)
  /-- So many ticks pass. -/
  | advance (ticks : Int)
  /-- The next uses of an operation end in a fault of the storage. -/
  | inject (failpoint : Failpoint)
  /-- What the process remembers of audit sessions is lost. -/
  | forget
  | closeAudit

/-- What a step returns. -/
inductive Answer where
  | done
  /-- An execution that did not fail, if there is one. -/
  | execution (id : Option String)
  | executions (ids : List String)
  | workflow (w : Option Workflow)

/-- Takes a step. -/
def perform : Step → Engine Answer
  | .execute workflow payload => .execution <$> Invocation.execute workflow payload
  | .executeStored workflow payload => .execution <$> Invocation.executeStored workflow payload
  | .trigger trigger payload => .executions <$> Trigger.fire trigger payload
  | .click message button data => .execution <$> WorkGraph.click message button data
  | .saveWorkflow workflow => (.workflow ∘ some) <$> Store.Workflows.save workflow
  | .setWorkflowStatus workflow status => .workflow <$> Store.Workflows.setStatus workflow status
  | .register role id collaborator => do
    Registry.register role id collaborator
    return .done
  | .unregister role id => do
    Registry.unregister role id
    return .done
  | .advance ticks => do
    Engine.advance ticks
    return .done
  | .inject failpoint => do
    modify fun w => { w with failpoints := failpoint :: w.failpoints }
    return .done
  | .forget => do
    modify fun w => { w with sessions := [] }
    return .done
  | .closeAudit => do
    Audit.close
    return .done

/-- Takes steps in order: what each of them returned, and the world at the end. -/
def run : List Step → World → List (Except Fault Answer) × World
  | [], w => ([], w)
  | step :: rest, w =>
    let (answer, w) := Engine.run (perform step) w
    let (answers, w) := run rest w
    (answer :: answers, w)

end WorkGraph.Session
