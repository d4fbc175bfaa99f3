import WorkGraph.Record.Checked

/-!
# Records of executions

What outlives a process: one `Execution` for each run of a workflow, one `NodeLog` for each node it attempted, and a
`ButtonMapping` for each message whose answer an execution waits for. Each is read from its stored form, with the time
of reading where no start is stored, and written with all its fields.
-/

namespace WorkGraph

inductive RunStatus where
  | running
  | success
  | failed
  deriving DecidableEq, Repr, Inhabited

def RunStatus.name : RunStatus → String
  | running => "running"
  | success => "success"
  | failed => "failed"

def RunStatus.ofName? : String → Option RunStatus
  | "running" => some running
  | "success" => some success
  | "failed" => some failed
  | _ => none

theorem RunStatus.ofName?_name (s : RunStatus) : RunStatus.ofName? s.name = some s := by
  cases s <;> rfl

/-! ## Executions -/

/-- One run of a workflow against one payload. -/
structure Execution where
  id : String
  workflowId : String
  status : RunStatus
  triggerData : Value
  errorMessage : Option String
  durationMs : Int
  startedAt : String
  historySession : Option String
  completedAt : Option String
  deriving Inhabited

namespace Execution

def isRunning (e : Execution) : Bool :=
  e.status == .running

def read (now : String) (entries : Entries Value) : Checked Execution :=
  Execution.mk <$> Checked.required entries "id" Checked.text
    <*> Checked.required entries "workflow_id" Checked.text
    <*> Checked.optional entries "status" (Checked.word RunStatus.ofName?) .running
    <*> Checked.optional entries "trigger_data" Checked.any .null
    <*> Checked.optional entries "error_message" Checked.text? none
    <*> Checked.optional entries "duration_ms" Checked.integer 0
    <*> Checked.optional entries "started_at" Checked.text now
    <*> Checked.optional entries "history_session_id" Checked.text? none
    <*> Checked.optional entries "completed_at" Checked.text? none

def load (now : String) (v : Value) : Except Fault Execution :=
  (Checked.record (read now) v).orFault "Execution"

def toValue (e : Execution) : Value :=
  .map [("id", .str e.id), ("workflow_id", .str e.workflowId), ("status", .str e.status.name),
    ("trigger_data", e.triggerData), ("error_message", Value.ofText? e.errorMessage),
    ("duration_ms", .int e.durationMs), ("started_at", .str e.startedAt),
    ("history_session_id", Value.ofText? e.historySession), ("completed_at", Value.ofText? e.completedAt)]

/-- What is written is read back unchanged, whatever the time. -/
theorem load_toValue (now : String) (e : Execution) : load now e.toValue = .ok e := by
  simp [load, toValue, Checked.record, read, Checked.required_cons_ne, Checked.optional_cons_ne, Checked.orFault,
    Checked.word_str (RunStatus.ofName?_name e.status), Checked.any]

end Execution

/-! ## Node logs -/

/-- The type of the entries that tell of a click that could not be routed. -/
def buttonRoutingType : String := "button_routing"

/-- One attempt at a node. -/
structure NodeLog where
  id : Int
  executionId : String
  nodeId : String
  nodeType : String
  nodeTitle : Option String
  status : RunStatus
  inputData : Value
  outputData : Value
  errorMessage : Option String
  errorStack : Option String
  durationMs : Int
  startedAt : String
  completedAt : Option String
  deriving Inhabited

namespace NodeLog

/-- Whether the entry tells of a click and not of a node. -/
def isRouting (log : NodeLog) : Bool :=
  log.nodeType == buttonRoutingType

def read (now : String) (entries : Entries Value) : Checked NodeLog :=
  NodeLog.mk <$> Checked.required entries "id" Checked.integer
    <*> Checked.required entries "execution_id" Checked.text
    <*> Checked.required entries "node_id" Checked.text
    <*> Checked.required entries "node_type" Checked.text
    <*> Checked.optional entries "node_title" Checked.text? none
    <*> Checked.optional entries "status" (Checked.word RunStatus.ofName?) .running
    <*> Checked.optional entries "input_data" Checked.any .null
    <*> Checked.optional entries "output_data" Checked.any .null
    <*> Checked.optional entries "error_message" Checked.text? none
    <*> Checked.optional entries "error_stack" Checked.text? none
    <*> Checked.optional entries "duration_ms" Checked.integer 0
    <*> Checked.optional entries "started_at" Checked.text now
    <*> Checked.optional entries "completed_at" Checked.text? none

def load (now : String) (v : Value) : Except Fault NodeLog :=
  (Checked.record (read now) v).orFault "NodeLog"

def toValue (log : NodeLog) : Value :=
  .map [("id", .int log.id), ("execution_id", .str log.executionId), ("node_id", .str log.nodeId),
    ("node_type", .str log.nodeType), ("node_title", Value.ofText? log.nodeTitle), ("status", .str log.status.name),
    ("input_data", log.inputData), ("output_data", log.outputData),
    ("error_message", Value.ofText? log.errorMessage), ("error_stack", Value.ofText? log.errorStack),
    ("duration_ms", .int log.durationMs), ("started_at", .str log.startedAt),
    ("completed_at", Value.ofText? log.completedAt)]

/-- What is written is read back unchanged, whatever the time. -/
theorem load_toValue (now : String) (log : NodeLog) : load now log.toValue = .ok log := by
  simp [load, toValue, Checked.record, read, Checked.required_cons_ne, Checked.optional_cons_ne, Checked.orFault,
    Checked.word_str (RunStatus.ofName?_name log.status), Checked.any]

end NodeLog

/-! ## Button mappings -/

/-- Which node of which execution waits for an answer to a message. -/
structure ButtonMapping where
  id : Int
  messageId : String
  workflowId : String
  executionId : String
  nodeId : String
  buttonIds : List String
  createdAt : String
  deriving DecidableEq, Repr, Inhabited

namespace ButtonMapping

def read (now : String) (entries : Entries Value) : Checked ButtonMapping :=
  ButtonMapping.mk <$> Checked.optional entries "id" Checked.integer 0
    <*> Checked.required entries "message_id" Checked.text
    <*> Checked.required entries "workflow_id" Checked.text
    <*> Checked.required entries "execution_id" Checked.text
    <*> Checked.required entries "node_id" Checked.text
    <*> Checked.optional entries "button_ids" (Checked.list Checked.text) []
    <*> Checked.optional entries "created_at" Checked.text now

def load (now : String) (v : Value) : Except Fault ButtonMapping :=
  (Checked.record (read now) v).orFault "ButtonMessageMapping"

def toValue (m : ButtonMapping) : Value :=
  .map [("id", .int m.id), ("message_id", .str m.messageId), ("workflow_id", .str m.workflowId),
    ("execution_id", .str m.executionId), ("node_id", .str m.nodeId),
    ("button_ids", .list (m.buttonIds.map Value.str)), ("created_at", .str m.createdAt)]

/-- What is written is read back unchanged, whatever the time. -/
theorem load_toValue (now : String) (m : ButtonMapping) : load now m.toValue = .ok m := by
  simp [load, toValue, Checked.record, read, Checked.required_cons_ne, Checked.optional_cons_ne, Checked.orFault,
    Checked.list, Checked.items_map Checked.text_str]

end ButtonMapping

end WorkGraph
