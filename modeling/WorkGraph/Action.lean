import WorkGraph.ButtonMessage
import WorkGraph.Context
import WorkGraph.Registry
import WorkGraph.Template
import WorkGraph.Text.Removal
import WorkGraph.Value.Members

/-!
# Actions

An action node calls a tool. A plain action names the tool and its inputs; tools for comments take the comment of the
payload where the author wired none (`withComment`), and a tool that sent a message with buttons leaves a mapping for
the answer. A conditional action looks for the decision of an earlier agent and calls the tool that it is mapped to.
-/

namespace WorkGraph.Action

/-! ## Plain actions -/

/-- Whether the id of a tool starts like those of the tools for comments. -/
def isCommentTool (config : Config) (tool : Value) : Except Fault Bool :=
  match tool, config.commentToolPrefix with
  | .str name, .atom (.str start) => .ok (start.toList.isPrefixOf name.toList)
  | .str _, v => .error (.misuse (.asStart v.kindName))
  | v, _ => .error (.noMember v.kindName "startswith")

/-- The comment that a payload tells of; null if it tells of none. -/
def payloadComment (payload : Value) : Value :=
  (payload.entries?.map (Value.field · "comment_id")).getD .null

/-- The inputs with the comment of the payload, if they have none and the tool is one for comments. -/
def withPayloadComment (config : Config) (tool : Value) (inputs : Entries Value) (payload : Value) :
    Except Fault (Entries Value) := do
  let comment := payloadComment payload
  if (Value.field inputs "comment_id").truthy || !comment.truthy then return inputs
  if !(← isCommentTool config tool) then return inputs
  let number ← comment.magnitude
  return if 0 < number then inputs.set "comment_id" (.int number) else inputs

/-- The inputs with the comment, as a number wherever it comes from. -/
def withComment (config : Config) (tool : Value) (inputs : Entries Value) (payload : Value) :
    Except Fault (Entries Value) := do
  let inputs ← withPayloadComment config tool inputs payload
  match inputs.get? "comment_id" with
  | some comment => return inputs.set "comment_id" (.int (← comment.magnitude))
  | none => return inputs

/-- Whether an output says that a message with buttons was sent and not answered yet. -/
def awaitsClick : Value → Bool
  | .map output => (Value.field output "message_id").truthy && !(Value.field output "button_id").truthy
  | _ => false

/-- The inputs of a plain action. -/
def inputs (config : Config) (node : Node) (tool : Value) (context : Context) : Except Fault (Entries Value) := do
  let filled ← Template.fillAll (.live context) ((node.setting "inputs").orElse (.map []))
  withComment config tool (filled.entries?.getD []) context.triggerData

/-- The output of a plain action. -/
def runPlain (node : Node) (context : Context) (workflow execution : String) : Engine Value := do
  let config ← Engine.config
  let tool := node.setting "tool_id"
  if !tool.truthy then
    throw (.failed
      { kind := .configuration
        node := node.id
        type := NodeType.action.name
        message := "Action node '" ++ node.id ++ "' is missing tool_id"
        output := .null })
  let inputs ← Engine.ofExcept (inputs config node tool context)
  let output ← Registry.call .tool tool (some ⟨execution, node.id⟩) (.map inputs) (.map context.flat)
  if config.isButtonTool tool && awaitsClick output then
    let _ ← ButtonMessage.remember node output workflow execution
  return output

/-! ## Conditional actions -/

/-- The first decision among the outputs, in the order in which the nodes ran. -/
def decision? (context : Context) : Option Value :=
  context.outputs.findSome? fun entry =>
    entry.2.entries?.bind fun output => (Value.field output "decision").some?.filter Value.truthy

/-- The decision that the text of a condition names, as in `decision == 'approve'`. -/
def expected (condition : String) : String :=
  let bare := Text.without ("'".toList) (Text.without ("decision == '".toList) condition.toList)
  String.ofList (Text.strip bare)

/-- The tool that the first condition for a decision names; null if no condition names one. -/
def chosenTool (decision : String) : List Value → Except Fault Value
  | [] => .ok .null
  | .map condition :: rest =>
    let tool := Value.field condition "then"
    if expected ((Entries.get? condition "if").getD (.str "")).display == decision && tool.truthy then .ok tool
    else chosenTool decision rest
  | v :: _ => .error (.noMember v.kindName "get")

/-- What a conditional action that calls nothing puts out. -/
def nothingDone (message : String) : Value :=
  .map [("success", .bool false), ("message", .str message)]

/-- The output of a conditional action. -/
def runConditional (node : Node) (context : Context) (execution : String) : Engine Value := do
  match decision? context with
  | none => return nothingDone "No decision found"
  | some decision =>
    let conditions ← Engine.ofExcept ((node.setting "conditions").orElse (.list [])).members
    let tool ← Engine.ofExcept (chosenTool decision.display conditions)
    if !tool.truthy then return nothingDone "No matching condition"
    let comment ← Engine.ofExcept (payloadComment context.triggerData).magnitude
    Registry.call .tool tool (some ⟨execution, node.id⟩) (.map [("comment_id", .int comment)]) (.map context.flat)

/-- The output of an action node. -/
def run (node : Node) (context : Context) (workflow execution : String) : Engine Value :=
  if (node.setting "action_type").str? == some "conditional" then runConditional node context execution
  else runPlain node context workflow execution

end WorkGraph.Action
