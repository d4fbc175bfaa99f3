import WorkGraph.Graph
import WorkGraph.Store.Records

/-!
# The store of workflows

One file for each workflow, named by its id as it stands. Only valid workflows are written.
-/

namespace WorkGraph.Store.Workflows

def place (id : String) : Location :=
  .ofWorkflow id

/-- Stores a valid workflow. -/
def save (w : Workflow) : Engine Workflow := do
  Engine.entering .saveWorkflow
  Engine.ofExcept w.validate
  writeFile (place w.id) w.toValue
  return w

/-- The workflow that a file holds. -/
def decode (document : Document) : Except Fault Workflow := do
  Workflow.load (← document.read)

/-- The workflow of an id, if there is one. -/
def find? (id : String) : Engine (Option Workflow) := do
  Engine.entering .getWorkflow
  match (← get).storage.find? (place id) with
  | none => return none
  | some document => some <$> Engine.ofExcept (decode document)

/-- Publishes a workflow, or makes it a draft again. -/
def setStatus (id : String) (status : WorkflowStatus) : Engine (Option Workflow) := do
  Engine.entering .setWorkflowStatus
  match ← find? id with
  | none => return none
  | some w => some <$> save { w with status }

/-- The workflows in order of their files, those of a status if one is given. -/
def list (status : Option WorkflowStatus) : Engine (List Workflow) := do
  Engine.entering .listWorkflows
  let storage := (← get).storage
  let documents := (storage.names .workflows "" ".json").filterMap fun name =>
    storage.files.get? (Folder.workflows.name ++ "/" ++ name)
  let workflows ← Engine.ofExcept (documents.mapM decode)
  return workflows.filter fun w => status.all (· == w.status)

/-- The published workflows that declare a trigger. -/
def byTrigger (trigger : Value) : Engine (List Workflow) := do
  Engine.entering .workflowsByTrigger
  return (← list (some .published)).filter fun w => w.triggerIds.any (·.same trigger)

end WorkGraph.Store.Workflows
