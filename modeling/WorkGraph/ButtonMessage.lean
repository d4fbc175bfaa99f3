import WorkGraph.Store.Mappings
import WorkGraph.Workflow

/-!
# Messages with buttons

A tool may send a message with buttons and say under which id. `ButtonMessage.remember` keeps which node of which
execution waits for the answer, provided the node declares buttons; `ButtonMessage.clicked` is what a click adds to the
output of that node.
-/

namespace WorkGraph.ButtonMessage

/-- The ids of the buttons that a node declares. -/
def declared (node : Node) : Except Fault (List String) :=
  match (node.setting "inputs").orElse (.map []) with
  | .map inputs =>
    match (Value.field inputs "buttons").orElse (.list []) with
    | .list buttons => .ok (buttons.filterMap fun
      | .map button => (Value.field button "id").some?.filter Value.truthy |>.map Value.display
      | _ => none)
    | _ => .ok []
  | v => .error (.noMember v.kindName "get")

/-- Keeps where the answer to a message goes. Nothing is kept for an output without a message or a node without
buttons. -/
def remember (node : Node) (output : Value) (workflow execution : String) : Engine (Option ButtonMapping) := do
  let message := (output.entries?.map (Value.field · "message_id")).getD .null
  if !message.truthy then return none
  let buttons ← Engine.ofExcept (declared node)
  if buttons.isEmpty then
    Engine.log .warning "button_messages" "button_mapping_skipped"
      [("node_id", .str node.id), ("execution_id", .str execution), ("reason", .str "no button ids configured")]
    return none
  let mapping ← Store.Mappings.save
    { id := 0, messageId := message.display, workflowId := workflow, executionId := execution, nodeId := node.id
      buttonIds := buttons, createdAt := ← Engine.stamp }
  Engine.log .info "button_messages" "button_mapping_stored"
    [("message_id", .str mapping.messageId), ("execution_id", .str execution), ("node_id", .str node.id),
      ("button_ids", .list (buttons.map Value.str))]
  return some mapping

/-- The fields of a click. What came with it must be a map, if anything did. -/
def clicked (button data : Value) : Except Fault (Entries Value) :=
  match data.orElse (.map []) with
  | .map data => .ok
    [("button_id", button), ("button_title", (Entries.get? data "button_title").getD (.str "")),
      ("interactive_type", (Entries.get? data "interactive_type").getD (.str "button_reply"))]
  | v => .error (.noMember v.kindName "get")

end WorkGraph.ButtonMessage
