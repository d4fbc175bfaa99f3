import WorkGraph.Store.Records
import WorkGraph.Value.Members

/-!
# The store of node logs

One file for each execution, a list of rows. A new row goes to the end, and its id is its place, counted from one.
-/

namespace WorkGraph.Store.NodeLogs

def place (execution : String) : Location :=
  .ofRecord .nodeLogs execution ".json"

/-- Adds a row with the given fields. -/
def append (execution : String) (fields : Entries Value) : Engine NodeLog := do
  Engine.entering .appendNodeLog
  Engine.ofExcept (unnamed ["self", "execution_id"] fields)
  let rows ← readFile (place execution) (.list [])
  let count ← Engine.ofExcept (rowCount rows)
  Engine.ofExcept (unnamed ["id"] fields)
  let own : Entries Value := [("id", .int (count + 1)), ("execution_id", .str execution)]
  let log ← Engine.ofExcept (NodeLog.load (← Engine.stamp) (.map (own ++ fields)))
  writeFile (place execution) (← Engine.ofExcept (appendRow rows log.toValue))
  return log

/-- The rows with the first row of an id changed, and that row; none if no row has the id. -/
def change (now : String) (id : Value) (fields : Entries Value) :
    List Value → Except Fault (Option (List Value × NodeLog))
  | [] => .ok none
  | .map entries :: rest =>
    if (Value.field entries "id").same id then do
      let log ← NodeLog.load now (.map (Entries.merge entries fields))
      return some (log.toValue :: rest, log)
    else return (← change now id fields rest).map fun (rows, log) => (.map entries :: rows, log)
  | v :: _ => .error (.noMember v.kindName "get")

/-- Changes fields of a row. -/
def update (execution : String) (id : Value) (fields : Entries Value) : Engine NodeLog := do
  Engine.entering .updateNodeLog
  Engine.ofExcept (unnamed ["self", "execution_id", "log_id"] fields)
  let rows ← readFile (place execution) (.list [])
  let rows ← Engine.ofExcept rows.members
  match ← Engine.ofExcept (change (← Engine.stamp) id fields rows) with
  | some (rows, log) =>
    writeFile (place execution) (.list rows)
    return log
  | none => throw (.notFound "NodeLog" (execution ++ "#" ++ id.display))

/-- The rows of an execution, in order. -/
def all (execution : String) : Engine (List NodeLog) := do
  Engine.entering .getNodeLogs
  let rows ← readFile (place execution) (.list [])
  let now ← Engine.stamp
  Engine.ofExcept ((← Engine.ofExcept rows.members).mapM (NodeLog.load now))

end WorkGraph.Store.NodeLogs
