import WorkGraph.Run
import WorkGraph.Value.Members

/-!
# Routing

After a node has succeeded, its output says which links to follow. Three routers are asked in order, and the first that
claims the node routes it: conditions follow the outlet of their result; a message with buttons that waits for its click
suspends the run; a click follows the outlet of its button. A node that none of them claims follows all of its links.

`Routing.follow` dispatches the targets of links one after the other. A target that fails does not keep the next ones
from being dispatched; the message of the first failure is kept.
-/

namespace WorkGraph

inductive Router where
  | condition
  | pendingSend
  | buttonClick
  deriving DecidableEq, Repr

/-- How a node was routed. -/
structure Routing where
  /-- Whether there was anything to follow. -/
  routed : Bool
  /-- The message of the first failure. -/
  error : Option String
  suspend : Bool
  deriving DecidableEq, Repr

namespace Router

/-- In the order in which they are asked. -/
def all : List Router := [condition, pendingSend, buttonClick]

/-- The tools that a value names, which must be such that a node can be looked up by them. -/
def toolsOf (v : Value) : Except Fault (List Value) := do
  let tools ← v.members
  match tools.find? (!·.isKey) with
  | some tool => throw (.misuse (.asKey tool.kindName))
  | none => return tools

/-- The output of an action whose tool is one of those that send messages with buttons, if it is a map. -/
def buttonOutput? (tools : List Value) (node : Node) (output : Value) : Except Fault (Option (Entries Value)) :=
  if !node.isOfType .action then .ok none
  else
    let tool := node.setting "tool_id"
    if !tool.isKey then .error (.misuse (.asKey tool.kindName))
    else .ok (if tools.any tool.same then output.entries? else none)

/-- Whether a router claims a node with an output. -/
def claims (tools : List Value) (node : Node) (output : Value) : Router → Except Fault Bool
  | condition =>
    .ok (node.isOfType .condition && output.entries?.any fun entries => (Value.field entries "result").isBool)
  | pendingSend => do
    return (← buttonOutput? tools node output).any fun entries => !(Value.field entries "button_id").truthy
  | buttonClick => do
    return (← buttonOutput? tools node output).any fun entries => (Value.field entries "button_id").truthy

/-- The first router that claims a node. -/
def choose (tools : List Value) (node : Node) (output : Value) : Except Fault (Option Router) :=
  all.findM? (claims tools node output)

end Router

namespace Routing

/-- Nothing was followed. -/
def nowhere : Routing := ⟨false, none, false⟩

/-- Dispatches the target of a link; the message of the failure, if it fails. Nothing happens if there is no such
node. -/
def followLink (dispatch : Node → Running Unit) (link : Link) : Running (Option String) := do
  match (← Running.run).workflow.node? link.target with
  | none => return none
  | some target =>
    return (← Running.faultOf (dispatch target)).map fun fault =>
      "Node '" ++ link.target ++ "' failed: " ++ fault.message

/-- Dispatches the targets of links in order. -/
def follow (dispatch : Node → Running Unit) : List Link → Running Routing
  | [] => return nowhere
  | link :: rest => do
    let error ← followLink dispatch link
    let others ← follow dispatch rest
    return ⟨true, error.or others.error, false⟩

/-- The links of an outlet. -/
def ofOutlet (links : List Link) (outlet : String) : List Link :=
  links.filter (·.outlet == some outlet)

/-- The outlets of links, as a list value. -/
def outletList (links : List Link) : Value :=
  .list (links.map fun link => Value.ofText? link.outlet)

/-- Follows the outlet of the result of a condition. -/
def condition (dispatch : Node → Running Unit) (node : Node) (output : Entries Value) (links : List Link) :
    Running Routing := do
  let outlet := if (Value.field output "result").truthy then "true" else "false"
  let routing ← follow dispatch (ofOutlet links outlet)
  if !routing.routed && !links.isEmpty then
    Engine.log .warning "handlers.condition" "condition_branch_unconnected"
      [("node_id", .str node.id), ("branch", .str outlet), ("available_ports", outletList links)]
  return routing

/-- Suspends the run, unless nothing waits for a click. -/
def pendingSend (node : Node) (output : Entries Value) (links : List Link) : Running Routing := do
  if links.isEmpty then return ⟨true, none, false⟩
  Engine.log .info "handlers.button_message" "execution_suspended"
    [("node_id", .str node.id), ("message_id", Value.field output "message_id"), ("ports", outletList links)]
  return ⟨false, none, true⟩

/-- A click as the context keeps it. -/
def clickData (button : String) (output : Entries Value) : Value :=
  .map [("button_id", .str button), ("button_title", (output.get? "button_title").getD (.str "")),
    ("interactive_type", (output.get? "interactive_type").getD (.str "button_reply"))]

/-- Follows the outlet of the clicked button. The click becomes a field of the output of the node, under its id. -/
def buttonClick (dispatch : Node → Running Unit) (node : Node) (output : Entries Value) (links : List Link) :
    Running Routing := do
  let button := (Value.field output "button_id").display
  let matching := ofOutlet links button
  if matching.isEmpty then return nowhere
  let title := (Value.field output "button_title").orElse (.str button)
  let c ← Running.context
  Running.setContext ((c.spliceButton node.id [(button, title)]).setButtonData (clickData button output))
  Engine.log .info "handlers.button_message" "button_click_routed"
    [("node_id", .str node.id), ("button_id", .str button)]
  follow dispatch matching

/-- Routes a node by a router, or along all links. -/
def along (router : Option Router) (dispatch : Node → Running Unit) (node : Node) (output : Value) (links : List Link) :
    Running Routing :=
  match router, output with
  | some .condition, .map output => condition dispatch node output links
  | some .pendingSend, .map output => pendingSend node output links
  | some .buttonClick, .map output => buttonClick dispatch node output links
  | _, _ => follow dispatch links

/-- Notes how a node was routed. -/
def noteIn (routing : Routing) (r : Run) : Run :=
  let r := routing.error.elim r r.recordFailure
  if routing.suspend then { r with suspended := true } else r

end Routing

end WorkGraph
