import WorkGraph.Config
import WorkGraph.Yaml.Reader

/-!
# The configuration file

The configuration is read from a text of settings, section by section; a setting that is absent, empty or null has its
default. Where there is no file at all, everything has its default, and the log level of the environment does not count.
-/

namespace WorkGraph.Config

open Yaml (Data Item)

/-- An item of a document, with its place; none where nothing is written. -/
abbrev Found := Option (Nat × Item)

/-- The item behind keys. -/
def find (d : Data) (root : Nat) (keys : List String) : Found := do
  let place ← d.dig? keys root
  return (place, ← d.item? place)

/-- What is found, if it counts as true. -/
def Found.some? (found : Found) : Found :=
  found.filter (·.2.truthy)

/-- The setting that is found, or a default. -/
def Found.setting (d : Data) (found : Found) (default : Setting) : Except Fault Setting :=
  found.elim (.ok default) fun (place, _) => d.setting place

/-- The number that is found, or a default. -/
def Found.number {α : Type} (convert : Atom → Except Fault α) (misuse : (kind : String) → Misuse) (found : Found)
    (default : α) : Except Fault α :=
  match found with
  | none => .ok default
  | some (_, .atom a) => convert a
  | some (_, item) => .error (.misuse (misuse item.kindName))

/-- What is found must be a list, unless it is absent or null. -/
def Found.checkList : Found → Except Fault Unit
  | none | some (_, .atom .null) | some (_, .list _) | some (_, .pairs _) => .ok ()
  | some _ => .error (.configuration "engine.button_tool_ids must be a list")

/-- The members of a setting that is a list. -/
def members : Setting → List Setting
  | .list items => items
  | _ => []

/-- The configuration that a document holds. `level` is a log level that goes before the one of the document, unless it
is empty. -/
def ofSections (level : Option String) (d : Data) (root : Nat) : Except Fault Config := do
  let defaults : Config := {}
  let setting (part key : String) : Found := (find d root [part, key]).some?
  (find d root ["engine", "button_tool_ids"]).checkList
  let agentTimeout ← (setting "engine" "agent_timeout_seconds").number Atom.toInteger .asInteger 60
  let httpTimeout ← (setting "audit" "timeout").number Atom.toDouble .asReal defaults.httpTimeout
  return {
    storageDir := ← (setting "storage" "dir").setting d defaults.storageDir
    agentTimeout := .int agentTimeout
    buttonToolIds := members (← (setting "engine" "button_tool_ids").setting d (.list defaults.buttonToolIds))
    commentToolPrefix := ← (setting "engine" "comment_tool_prefix").setting d defaults.commentToolPrefix
    logLevel := ← match level.filter (· != "") with
      | some level => .ok (.str level)
      | none => (setting "logging" "level").setting d defaults.logLevel
    logFormat := ← (setting "logging" "format").setting d defaults.logFormat
    historyUrl := ← (find d root ["audit", "history_mcp_url"]).setting d defaults.historyUrl
    httpTimeout }

/-- The configuration that data holds, which must be a map unless it is empty; `place` names the document in
messages. -/
def ofData (place : String) (level : Option String) (d : Data) : Except Fault Config :=
  let root : Found := do
    let root ← d.root
    return (root, ← d.item? root)
  match root.some? with
  | none => ofSections level ⟨#[some (.map [])], some 0⟩ 0
  | some (root, .map _) => ofSections level d root
  | some _ => .error (.configuration ("Config root must be a mapping: " ++ place))

/-- The configuration that the text of a file holds; `place` names the file in messages. -/
def ofText (place : String) (level : Option String) (text : String) : Except Fault Config :=
  match Yaml.read text with
  | .ok d => ofData place level d
  | .error .malformed => .error (.configuration ("Invalid YAML in " ++ place))
  | .error (.fault cause) => .error cause

/-- The configuration of a file that need not be there. -/
def ofFile (place : String) (level : Option String) (text : Option String) : Except Fault Config :=
  text.elim (.ok {}) (ofText place level)

end WorkGraph.Config
