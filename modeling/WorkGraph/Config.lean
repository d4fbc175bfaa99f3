import WorkGraph.Setting

/-!
# Configuration

What may be tuned: where records live, how long an agent may take, which tools send messages with buttons, which tools
take the comment of the payload, how to log, and where the audit trail goes. `Config.dig` looks up a part of a document
that need not be there.
-/

namespace WorkGraph

structure Config where
  storageDir : Setting := .str "./volumes/flowrunner"
  /-- Seconds that an agent may take; checked when it has answered. -/
  agentTimeout : Number := .int 60
  /-- The tools that send messages with buttons. -/
  buttonToolIds : List Setting := [.str "whatsapp_send_button_message"]
  /-- How the ids of the tools begin that take the comment of the payload. -/
  commentToolPrefix : Setting := .str "wordpress_"
  logLevel : Setting := .str "INFO"
  logFormat : Setting := .str "json"
  historyUrl : Setting := .atom .null
  httpTimeout : Double := .ofDecimal false 10 0

namespace Config

/-- The tools that send messages with buttons, as far as a node can name them. -/
def buttonTools (c : Config) : List Value :=
  c.buttonToolIds.filterMap Setting.toValue?

/-- Whether a tool sends messages with buttons. -/
def isButtonTool (c : Config) (tool : Value) : Bool :=
  tool.truthy && c.buttonTools.any (·.same tool)

/-- The value behind keys in nested maps. A key that is absent counts as an empty map, and an empty map at the end as
nothing. -/
def dig (default : Value) : Value → List Value → Except Fault Value
  | .map [], [] => .ok default
  | v, [] => .ok v
  | .map entries, key :: rest =>
    if key.isKey then dig default ((key.str?.bind (Entries.get? entries)).getD (.map [])) rest
    else .error (.misuse (.asKey key.kindName))
  | _, _ :: _ => .ok default

/-- Tools that are given as documents are those that a node can name. -/
theorem buttonTools_ofValue (c : Config) (tools : List Value) :
    buttonTools { c with buttonToolIds := tools.map Setting.ofValue } = tools := by
  show (tools.map Setting.ofValue).filterMap Setting.toValue? = tools
  rw [List.filterMap_map]
  have : Setting.toValue? ∘ Setting.ofValue = some := funext Setting.toValue?_ofValue
  rw [this, List.filterMap_some]

end Config

end WorkGraph
