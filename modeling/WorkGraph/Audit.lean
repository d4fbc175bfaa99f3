import WorkGraph.World

/-!
# The audit trail

Executions are reported to an audit service, if there is one. The first request that gets no proper answer turns the
connection off for good; an answer that is proper but says nothing counts as none. `createSession` opens the trail of
an execution, the other calls append to it, and without a session they do nothing.
-/

namespace WorkGraph.Audit

/-- The body of an answer. A byte order mark in front of it does not count. -/
def readBody (body : Document) : Except Fault Value :=
  match body with
  | .text source =>
    if source.toList.head? == some (Char.ofNat 0xFEFF) then Document.readText (String.ofList (source.toList.drop 1))
    else Document.readText source
  | .value v => .ok v

/-- The first piece of content of an answer; an empty one where there is no content. -/
def firstContent (answer : Entries Value) : Except Fault Value :=
  match (Value.field answer "content").orElse (.list [.map []]) with
  | .list items => .ok (items.head?.getD .null)
  | .str s => .ok (.str (String.ofList (s.toList.take 1)))
  | .map _ => .error (.noKey (.int 0))
  | v => .error (.misuse (.byPosition v.kindName))

/-- The document that the text of a piece of content writes; null if it writes none. -/
def contentData (content : Value) : Except Fault Value :=
  match content with
  | .map entries =>
    match (Entries.get? entries "text").getD (.str "{}") with
    | .str source => .ok ((Document.readText source).toOption.getD .null)
    | v => .error (.misuse (.asSource v.kindName))
  | v => .error (.noMember v.kindName "get")

/-- What a proper answer says. -/
def answerData : Value → Except Fault Value
  | .map answer => do contentData (← firstContent answer)
  | _ => .ok .null

/-- The body of a proper answer: the request got through, and a document came back. -/
def proper? : AuditAnswer → Option Value
  | .unreachable => none
  | .reply status body => if 200 ≤ status ∧ status < 300 then (readBody body).toOption else none

/-- The address of the service, without slashes at the end. -/
def address (url : String) : String :=
  String.ofList (url.toList.reverse.dropWhile (· == '/')).reverse ++ "/mcp/call_tool"

/-- Sends a request and takes the answer apart; null where nothing is said. -/
def callTool (tool : String) (arguments : Value) : Engine Value := do
  match (← get).auditor with
  | none => return .null
  | some auditor =>
    if !auditor.enabled then return .null
    if auditor.closed then throw (.breakdown "Cannot send a request, as the client has been closed.")
    Engine.emit (.request
      { url := address auditor.url, body := .map [("tool", .str tool), ("arguments", arguments)] })
    let answer := auditor.answers auditor.asked
    match proper? answer with
    | none =>
      modify fun w => { w with auditor := some { auditor with asked := auditor.asked + 1, enabled := false } }
      Engine.log .warning "audit" "History MCP unavailable, audit logging disabled" []
      return .null
    | some body =>
      modify fun w => { w with auditor := some { auditor with asked := auditor.asked + 1 } }
      Engine.ofExcept (answerData body)

/-- The session that an answer names; null where there is none. -/
def sessionOf (data : Value) : Except Fault Value :=
  if !data.truthy then .ok .null
  else match data with
    | .map entries => .ok (if (Value.field entries "success").truthy then Value.field entries "session_id" else .null)
    | v => .error (.noMember v.kindName "get")

/-- Opens a session for an execution. -/
def createSession (workflow execution : Value) : Engine Value := do
  let data ← callTool "create_session" (.map
    [("title", .str ("Workflow: " ++ workflow.display)),
      ("metadata", .map
        [("type", .str "flowrunner"), ("workflow_id", workflow), ("execution_id", execution)])])
  Engine.ofExcept (sessionOf data)

/-- Appends a message with its metadata and the time. -/
def append (session : Value) (content : String) (metadata : Entries Value) : Engine Unit := do
  if session.truthy then
    let time := Value.str ((← Engine.stamp) ++ "+00:00")
    let _ ← callTool "append_message" (.map
      [("session_id", session), ("type", .str "system"), ("content", .str content),
        ("metadata", .map (metadata.set "timestamp" time))])

def nodeStarted (session node type : Value) : Engine Unit :=
  append session ("Node '" ++ node.display ++ "' started")
    [("event", .str "node_start"), ("node_id", node), ("node_type", type)]

def nodeCompleted (session node type duration : Value) : Engine Unit :=
  append session ("Node '" ++ node.display ++ "' completed")
    [("event", .str "node_complete"), ("node_id", node), ("node_type", type), ("duration_ms", duration)]

def nodeFailed (session node type error : Value) : Engine Unit :=
  append session ("Node '" ++ node.display ++ "' failed: " ++ error.display)
    [("event", .str "node_error"), ("node_id", node), ("node_type", type), ("error", error)]

def workflowCompleted (session workflow status error : Value) : Engine Unit :=
  append session ("Workflow finished with status: " ++ status.display)
    [("event", .str "workflow_complete"), ("workflow_id", workflow), ("status", status), ("error_message", error)]

/-- Closes the connection for good. -/
def close : Engine Unit :=
  modify fun w => { w with auditor := w.auditor.map fun auditor => { auditor with closed := true } }

/-- Whether requests are still sent. -/
def isEnabled (w : World) : Bool :=
  w.auditor.any (·.enabled)

end WorkGraph.Audit
