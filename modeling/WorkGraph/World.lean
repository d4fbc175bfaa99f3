import WorkGraph.Clock
import WorkGraph.Config
import WorkGraph.Storage

/-!
# The world of the engine

Everything that a step of the engine can read or change is one value, `World`: the storage directory, the registries of
tools and agents, the clock, the audit connection, and the trace of what has been said to the outside (calls,
requests, log events). An `Engine` computation is a function on worlds that may end in a fault; what it did before the
fault stays done.
-/

namespace WorkGraph

/-! ## What is said to the outside -/

inductive Level where
  | debug
  | info
  | warning
  | error
  | critical
  deriving DecidableEq, Repr

def Level.name : Level → String
  | debug => "DEBUG"
  | info => "INFO"
  | warning => "WARNING"
  | error => "ERROR"
  | critical => "CRITICAL"

/-- An event for the operators: a component says something, with fields; `exception` where it caught a fault. -/
structure LogEvent where
  component : String
  level : Level
  message : String
  fields : Entries Value
  exception : Bool

/-- Tools serve action nodes, agents serve agent nodes. -/
inductive Role where
  | tool
  | agent
  deriving DecidableEq, Repr

/-- What a missing collaborator is called. -/
def Role.resource : Role → String
  | tool => "Tool"
  | agent => "Agent"

/-- The node of the execution on whose behalf a collaborator is called. -/
structure Origin where
  execution : String
  node : String
  deriving DecidableEq, Repr

/-- A call of a collaborator: the inputs, and the context for a tool or the node configuration for an agent. -/
structure Call where
  role : Role
  id : String
  origin : Option Origin
  first : Value
  second : Value

/-- A request to the audit service. -/
structure Request where
  url : String
  body : Value

inductive Effect where
  | call (c : Call)
  | request (r : Request)
  | event (e : LogEvent)

/-! ## Collaborators -/

/-- An answer: how long it takes, in ticks, and the value or the fault that it is. -/
structure Reply where
  ticks : Int
  outcome : Except Fault Value

/-- A registered collaborator: what it answers to a call after so many earlier ones, and how many there were. -/
structure Collaborator where
  answer : Nat → Call → Reply
  answered : Nat

/-- Collaborators by id, in the order in which they were registered. An id can be held without a collaborator. -/
abbrev Registry := Entries (Option Collaborator)

/-! ## Injected faults -/

/-- The operations in which a fault of the storage can be injected. -/
inductive Operation where
  | saveExecution
  | getExecution
  | updateExecution
  | listExecutions
  | appendNodeLog
  | updateNodeLog
  | getNodeLogs
  | saveButtonMapping
  | getButtonMapping
  | claimMessage
  | releaseClaim
  | saveWorkflow
  | getWorkflow
  | setWorkflowStatus
  | listWorkflows
  | workflowsByTrigger
  | execute
  | resume
  | finalize
  deriving DecidableEq, Repr

/-- A fault that waits for the next `remaining` uses of an operation. -/
structure Failpoint where
  operation : Operation
  text : String
  remaining : Nat
  deriving DecidableEq, Repr

/-! ## Audit -/

/-- What the audit service answers to a request. -/
inductive AuditAnswer where
  /-- The connection fails. -/
  | unreachable
  | reply (status : Int) (body : Document)

/-- The connection to the audit service: what it answers to its n-th request, whether it is still used, and whether it
was closed, after which a request is a fault. -/
structure Auditor where
  url : String
  answers : Nat → AuditAnswer
  asked : Nat
  enabled : Bool
  closed : Bool

/-! ## The world -/

structure World where
  config : Config
  clock : Clock
  /-- The number of execution ids given out. -/
  issued : Nat
  tools : Registry
  agents : Registry
  storage : Storage
  /-- The injected faults, the latest first. -/
  failpoints : List Failpoint
  auditor : Option Auditor
  /-- The audit sessions of the executions seen by this process. -/
  sessions : Entries Value
  /-- All that was said to the outside, in order. -/
  trace : List Effect

/-- A world with empty storage and nothing registered. -/
def World.initial (config : Config) (root : String) (auditor : Option Auditor) : World :=
  { config
    clock := .start
    issued := 0
    tools := []
    agents := []
    storage := .empty root
    failpoints := []
    auditor
    sessions := []
    trace := [] }

abbrev Engine (α : Type) := ExceptT Fault (StateM World) α

namespace Engine

/-- Runs a computation: its value or fault, and the world after it. -/
def run {α : Type} (act : Engine α) (w : World) : Except Fault α × World :=
  act w

@[simp] theorem run_pure {α : Type} (a : α) (w : World) : run (pure a) w = (.ok a, w) := rfl

@[simp] theorem run_throw {α : Type} (fault : Fault) (w : World) :
    run (throw fault : Engine α) w = (.error fault, w) := rfl

/-- What comes next runs in the world as it was left, unless there was a fault. -/
theorem run_bind {α β : Type} (act : Engine α) (next : α → Engine β) (w : World) :
    run (act >>= next) w =
      match run act w with
      | (.ok a, w) => run (next a) w
      | (.error fault, w) => (.error fault, w) := by
  show (ExceptT.bindCont next (act w).1) (act w).2 = _
  unfold run
  rcases act w with ⟨_ | _, _⟩ <;> rfl

/-- A pure computation that may end in a fault. -/
def ofExcept {α : Type} : Except Fault α → Engine α
  | .ok a => pure a
  | .error fault => throw fault

/-- The value or the fault of a computation; what it did stays done. -/
def attempt {α : Type} (act : Engine α) : Engine (Except Fault α) := fun w =>
  let (result, w) := act w
  (.ok result, w)

@[simp] theorem run_ofExcept {α : Type} (result : Except Fault α) (w : World) :
    run (ofExcept result) w = (result, w) := by
  cases result <;> rfl

/-- An attempt has the fault as its value, and does to the world what was attempted. -/
@[simp] theorem run_attempt {α : Type} (act : Engine α) (w : World) :
    run (attempt act) w = (.ok (run act w).1, (run act w).2) := rfl

/-- Adds to the trace. -/
def emit (effect : Effect) : Engine Unit :=
  modify fun w => { w with trace := w.trace ++ [effect] }

/-- Logs an event of a component. -/
def log (level : Level) (component message : String) (fields : Entries Value) : Engine Unit :=
  emit (.event { component, level, message, fields, exception := false })

/-- Logs that a component caught a fault. -/
def logFault (component message : String) : Engine Unit :=
  emit (.event { component, level := .error, message, fields := [], exception := true })

def config : Engine Config :=
  return (← get).config

/-- The time as records keep it. -/
def stamp : Engine String :=
  return (← get).clock.stamp

/-- The time in steps. -/
def reading : Engine Int :=
  return (← get).clock.reading

/-- The span since an earlier reading. -/
def since (earlier : Int) : Engine Span :=
  return (← get).clock.since earlier

def advance (ticks : Int) : Engine Unit :=
  modify fun w => { w with clock := w.clock.advance ticks }

/-- The injected faults after one more use of an operation, and the text of the one that it sets off, if any. -/
def trip (operation : Operation) : List Failpoint → Option String × List Failpoint
  | [] => (none, [])
  | p :: rest =>
    if p.operation = operation ∧ 0 < p.remaining then
      (some p.text, { p with remaining := p.remaining - 1 } :: rest)
    else
      let (text, rest) := trip operation rest
      (text, p :: rest)

/-- The start of an operation, where an injected fault shows. -/
def entering (operation : Operation) : Engine Unit := do
  let (text, failpoints) := trip operation (← get).failpoints
  modify fun w => { w with failpoints }
  match text with
  | some text => throw (.storage text)
  | none => pure ()

/-- A new execution id, made of the time and a running number. -/
def freshExecutionId : Engine String := do
  modify fun w => { w with issued := w.issued + 1 }
  let w ← get
  return "exec_" ++ w.clock.written "" "_" "" ++ "_" ++ String.ofList (Text.hexAtLeast 8 w.issued)

end Engine

end WorkGraph
