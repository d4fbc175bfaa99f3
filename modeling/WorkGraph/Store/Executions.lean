import WorkGraph.Store.Records

/-!
# The store of executions

One file for each execution. `update` reads, changes fields and writes; `list` goes through the files of generated ids
from the newest to the oldest.
-/

namespace WorkGraph.Store.Executions

def place (id : String) : Location :=
  .ofRecord .executions id ".json"

def save (execution : Execution) : Engine Unit := do
  Engine.entering .saveExecution
  writeFile (place execution.id) execution.toValue

/-- The execution of an id, if there is one. -/
def find? (id : String) : Engine (Option Execution) := do
  Engine.entering .getExecution
  let data ← readFile (place id) .null
  if data.truthy then some <$> Engine.ofExcept (Execution.load (← Engine.stamp) data) else return none

/-- Changes fields of a stored execution. -/
def update (id : String) (fields : Entries Value) : Engine Execution := do
  Engine.entering .updateExecution
  Engine.ofExcept (unnamed ["self", "execution_id"] fields)
  let data ← readFile (place id) .null
  if !data.truthy then throw (.notFound "Execution" id)
  match data with
  | .map entries =>
    let execution ← Engine.ofExcept (Execution.load (← Engine.stamp) (.map (Entries.merge entries fields)))
    writeFile (place id) execution.toValue
    return execution
  | v => throw (.misuse (.asMap v.kindName))

/-- Whether an execution is asked for; a filter without a value lets all pass. -/
def matchesFilter (workflow status : Value) (e : Execution) : Bool :=
  (!workflow.truthy || workflow.same (.str e.workflowId)) && (!status.truthy || status.same (.str e.status.name))

/-- The executions in files of the given names that pass, until there are enough. -/
def collect (workflow status : Value) (limit : Int) : List String → (found : List Execution) → Engine (List Execution)
  | [], found => return found
  | name :: rest, found => do
    let data ← readFile ⟨Folder.executions.name ++ "/" ++ name, name, true⟩ .null
    if !data.truthy then collect workflow status limit rest found
    else
      let execution ← Engine.ofExcept (Execution.load (← Engine.stamp) data)
      if !matchesFilter workflow status execution then collect workflow status limit rest found
      else if limit ≤ (found ++ [execution]).length then return found ++ [execution]
      else collect workflow status limit rest (found ++ [execution])

/-- The executions with generated ids, newest first. -/
def list (workflow status : Value) (limit : Int) : Engine (List Execution) := do
  Engine.entering .listExecutions
  let names := ((← get).storage.names .executions "exec_" ".json").reverse
  collect workflow status limit names []

end WorkGraph.Store.Executions
