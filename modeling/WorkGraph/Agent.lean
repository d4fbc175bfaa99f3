import WorkGraph.Decision
import WorkGraph.Registry
import WorkGraph.Template
import WorkGraph.Workflow

/-!
# Agents

An agent node asks an agent. `Briefing.prepare` puts together what the agent gets: the inputs that the author wrote with
their templates filled, the payload merged into them (`withPayload`), and the options to decide among. A record of what
was sent is kept with the answer, and with the fault if there is no answer: `Agent.run`.
-/

namespace WorkGraph.Agent

/-! ## The payload -/

/-- Whether a payload tells of a comment. -/
def isComment (payload : Entries Value) : Bool :=
  !(Value.field payload "comment_id").isNull || !(Value.field payload "comment").isNull

/-- What an agent learns of a comment: its content and nothing else. -/
def commentContent (payload : Entries Value) : Entries Value :=
  let content := Value.field payload "content"
  if content.truthy then [("content", content)] else []

/-- The context that an author wrote, together with the payload. Of a comment the content is added, and the author has
the last word; any other payload is added as a whole and has the last word itself. -/
def withPayload (own payload : Value) : Value :=
  if !payload.truthy then own
  else match payload with
    | .map fields =>
      match own with
      | .map own =>
        .map (if isComment fields then Entries.merge (commentContent fields) own else Entries.merge own fields)
      | _ => .map (if isComment fields then commentContent fields else fields)
    | _ => payload

/-! ## Briefings -/

/-- What an agent gets. -/
structure Briefing where
  agent : Value
  prompt : String
  /-- The inputs without the options. -/
  inputs : Entries Value
  options : List String
  /-- The configuration of the node without its inputs. -/
  config : Entries Value

namespace Briefing

def optionList (b : Briefing) : Value :=
  .list (b.options.map Value.str)

/-- The inputs as they are sent. -/
def sent (b : Briefing) : Entries Value :=
  b.inputs.set "decision_options" b.optionList

/-- The prompt, followed by the context if there is any. -/
def fullMessage (b : Briefing) : String :=
  let context := Value.field b.inputs "context"
  if context.truthy then b.prompt ++ "\n\nContext: " ++ Json.Style.indented.render context else b.prompt

/-- The record of what was sent. -/
def record (b : Briefing) : Value :=
  .map [("prompt", .str b.prompt), ("context", (Value.field b.inputs "context").orElse (.map [])),
    ("decision_options", b.optionList), ("full_user_message", .str b.fullMessage), ("full_inputs", .map b.inputs)]

/-- A configuration fault of an agent node. -/
def misconfigured {α : Type} (node : Node) (message : String) : Except Fault α :=
  .error (.failed
    { kind := .configuration, node := node.id, type := NodeType.agent.name, message, output := .null })

/-- The briefing for a node in a context. The node must name an agent, and its prompt must say something. -/
def prepare (node : Node) (context : Context) : Except Fault Briefing := do
  let agent := (Value.ofText? node.agentId).orElse (node.setting "agent_id")
  if !agent.truthy then misconfigured node "Agent node missing agent_id"
  let written := (node.setting "inputs").entries?.getD []
  let asked := (node.setting "prompt").orElse ((Value.field written "prompt").orElse (.str ""))
  let scope := Scope.live context
  let prompt ← Template.fill scope asked
  if Text.isBlankText prompt then misconfigured node "Agent prompt is empty after variable resolution"
  let filled ← Template.fillEntries scope written []
  let inputs := filled.set "prompt" (.str prompt)
  let merged := withPayload (Value.field inputs "context") context.triggerData
  return {
    agent
    prompt
    inputs := if merged.isNull then inputs else inputs.set "context" merged
    options := Decision.options (node.setting "custom_decisions")
    config := node.config.filter fun entry => entry.1 != "inputs" }

/-- An answer with the record of what was sent. An answer that is no map becomes a field of one. -/
def answered (b : Briefing) (answer : Value) : Value :=
  match answer with
  | .map entries => .map (Entries.set entries "_inputs_sent" b.record)
  | v => .map [("result", v), ("_inputs_sent", b.record)]

/-- What is kept of a call that failed. -/
def refused (b : Briefing) (message : String) : Value :=
  .map [("error", .str message), ("_inputs_sent", b.record)]

end Briefing

/-! ## Asking -/

/-- The answer of an agent. One that comes too late is a fault. -/
def ask (node : Node) (execution : String) (b : Briefing) : Engine Value := do
  let limit := (← Engine.config).agentTimeout
  let start ← Engine.reading
  let answer ← Registry.call .agent b.agent (some ⟨execution, node.id⟩) (.map b.sent) (.map b.config)
  let elapsed ← Engine.since start
  if elapsed.exceeds limit then
    throw (.failed
      { kind := .timeout
        node := node.id
        type := NodeType.agent.name
        message := "Execution exceeded timeout (" ++ limit.text ++ "s, took " ++ elapsed.seconds ++ "s)"
        output := .null })
  return answer

/-- The fault of a node whose agent failed, with the record of what was sent. -/
def failure (node : Node) (b : Briefing) (fault : Fault) : Engine Fault := do
  match fault with
  | .failed f => return .failed { f with output := b.refused f.message }
  | _ =>
    let message := fault.message
    Engine.log .warning "executor" "agent_failed"
      [("node_id", .str node.id), ("agent_id", b.agent), ("error", .str message)]
    return .failed
      { kind := .execution, node := node.id, type := NodeType.agent.name, message, output := b.refused message }

/-- The output of an agent node. -/
def run (node : Node) (context : Context) (execution : String) : Engine Value := do
  let b ← Engine.ofExcept (Briefing.prepare node context)
  match ← Engine.attempt (ask node execution b) with
  | .ok answer => return b.answered answer
  | .error fault => throw (← failure node b fault)

end WorkGraph.Agent
