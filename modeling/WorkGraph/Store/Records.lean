import WorkGraph.Record.Execution
import WorkGraph.World

/-!
# Stored records

Reading and writing whole files, and the shapes that a file from outside may have in place of a list of rows. Every
store rests on these: `readFile` and `writeFile` at a place, `rowCount`, `appendRow` and `lastRow` on what was read.
-/

namespace WorkGraph.Store

/-- The value of a file, or the given one if there is no file or nothing in it. -/
def readFile (place : Location) (default : Value) : Engine Value := do
  match (← get).storage.find? place with
  | none => return default
  | some document => Engine.ofExcept (document.readOr default)

/-- Writes a value to a file. -/
def writeFile (place : Location) (v : Value) : Engine Unit := do
  let storage ← Engine.ofExcept ((← get).storage.write place v)
  modify fun w => { w with storage }

/-- The number of rows of what was read; maps and texts have a length too. -/
def rowCount : Value → Except Fault Nat
  | .list rows => .ok rows.length
  | .map entries => .ok entries.length
  | .str s => .ok s.length
  | v => .error (.misuse (.withLength v.kindName))

/-- The rows with one more at the end. -/
def appendRow (rows row : Value) : Except Fault Value :=
  match rows with
  | .list items => .ok (.list (items ++ [row]))
  | v => .error (.noMember v.kindName "append")

/-- The last row of what was read. -/
def lastRow : Value → Except Fault Value
  | .list rows => .ok (rows.getLast?.getD .null)
  | .str s => .ok ((s.toList.getLast?.map fun c => .str (String.singleton c)).getD .null)
  | .map _ => .error (.noKey (.int (-1)))
  | v => .error (.misuse (.byPosition v.kindName))

/-- Refuses fields that would name a key twice. -/
def unnamed (keys : List String) (fields : Entries Value) : Except Fault Unit :=
  match keys.find? fields.has with
  | none => .ok ()
  | some key => .error (.misuse (.arguments ("got multiple values for keyword argument '" ++ key ++ "'")))

@[simp] theorem rowCount_list (rows : List Value) : rowCount (.list rows) = .ok rows.length := rfl

@[simp] theorem appendRow_list (rows : List Value) (row : Value) :
    appendRow (.list rows) row = .ok (.list (rows ++ [row])) := rfl

end WorkGraph.Store
