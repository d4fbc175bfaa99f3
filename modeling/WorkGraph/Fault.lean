import WorkGraph.Value.Display

/-!
# What can go wrong

A `Fault` is a cause: a record that does not have its shape, a workflow that is no runnable graph, a node that failed, a
suspended execution that cannot go on, a value of the wrong kind, a file that cannot be used. `Fault.message` is the one
place where causes get their wording.
-/

namespace WorkGraph

/-! ## Records of the wrong shape -/

/-- Why a field does not fit. -/
inductive FieldProblem where
  | missing
  | notText
  | notMap
  | notList
  | notListed
  | notInteger
  | unreadableInteger
  | fractionalInteger
  | oversizedInteger
  | infiniteInteger
  | notRecord
  deriving DecidableEq, Repr

/-- A problem and the way to the place where it is: keys, and positions in lists. -/
structure Misfit where
  place : List String
  problem : FieldProblem
  deriving DecidableEq, Repr

/-- The misfit seen from outside a key. -/
def Misfit.under (key : String) (m : Misfit) : Misfit :=
  { m with place := key :: m.place }

/-! ## Workflows that cannot run -/

/-- Why a graph is refused. -/
inductive Rejection where
  | noNodes
  | duplicateIds (ids : List String)
  | unknownType (node type : String)
  | noTrigger
  | danglingEdge (endpoint : String)
  | nothingToStart
  | stated (text : String)
  deriving DecidableEq, Repr

def Rejection.message : Rejection → String
  | noNodes => "Workflow must have at least one node"
  | duplicateIds ids =>
    "Duplicate node IDs found: \x7b" ++ String.intercalate ", " (ids.map Text.quoted) ++ "\x7d"
  | unknownType _ type => "Unknown node type '" ++ type ++ "'"
  | noTrigger => "Workflow must have a trigger node"
  | danglingEdge endpoint => "Edge references non-existent node: " ++ endpoint
  | nothingToStart => "No trigger node found"
  | stated text => text

/-- The part of the workflow that is at fault. -/
def Rejection.field : Rejection → Option String
  | noNodes | duplicateIds _ | noTrigger | nothingToStart => some "nodes"
  | unknownType node _ => some ("nodes[" ++ node ++ "].type")
  | danglingEdge _ => some "edges"
  | stated _ => none

/-! ## Nodes that fail -/

inductive NodeFailureKind where
  | execution
  | configuration
  | timeout
  deriving DecidableEq, Repr

/-- A failed node, with what it produced all the same. -/
structure NodeFailure where
  kind : NodeFailureKind
  node : String
  type : String
  message : String
  output : Value

/-! ## Executions that cannot go on -/

/-- Why a click does not continue an execution. -/
inductive Obstacle where
  | workflowUnavailable (workflow : String)
  | executionMissing
  | notWaiting (status : String)
  | nodeMissing
  | alreadyClaimed (message : String)
  | notRestored (cause : String)
  | interrupted (cause : String)
  | stated (text : String)
  deriving DecidableEq, Repr

structure ResumeFailure where
  obstacle : Obstacle
  execution : String
  node : Option String
  deriving DecidableEq, Repr

def ResumeFailure.message (f : ResumeFailure) : String :=
  match f.obstacle with
  | .workflowUnavailable workflow =>
    "Workflow " ++ workflow ++ " not found or not published. Cannot continue button click routing."
  | .executionMissing => "Execution " ++ f.execution ++ " not found. Cannot continue button click routing."
  | .notWaiting status => "Execution " ++ f.execution ++ " is " ++ status ++ ", not waiting for a button click."
  | .nodeMissing =>
    "Button message node " ++ f.node.getD "" ++ " not found in workflow. Cannot route button click."
  | .alreadyClaimed message =>
    "Message " ++ message ++ " was already used to continue execution " ++ f.execution ++ "."
  | .notRestored cause => "Could not restore execution " ++ f.execution ++ " from node logs: " ++ cause
  | .interrupted cause => "Workflow continuation failed: " ++ cause
  | .stated text => text

/-- What the record of a refused click adds to the message. -/
def ResumeFailure.details (f : ResumeFailure) : Entries Value :=
  match f.obstacle with
  | .notWaiting status => [("status", .str status)]
  | .notRestored cause | .interrupted cause => [("exception", .str cause)]
  | _ => []

/-! ## Values of the wrong kind -/

/-- A use that a value of some kind does not admit. -/
inductive Misuse where
  | asKey (kind : String)
  | asSequence (kind : String)
  | withLength (kind : String)
  | byPosition (kind : String)
  | asMap (kind : String)
  | asSource (kind : String)
  | asInteger (kind : String)
  | asReal (kind : String)
  | asStart (kind : String)
  | asText (kind : String)
  | arguments (text : String)
  deriving DecidableEq, Repr

def Misuse.message : Misuse → String
  | asKey kind => "unhashable type: '" ++ kind ++ "'"
  | asSequence kind => "'" ++ kind ++ "' object is not iterable"
  | withLength kind => "object of type '" ++ kind ++ "' has no len()"
  | byPosition kind => "'" ++ kind ++ "' object is not subscriptable"
  | asMap kind => "'" ++ kind ++ "' object is not a mapping"
  | asSource kind => "the JSON object must be str, bytes or bytearray, not " ++ kind
  | asInteger kind => "int() argument must be a string, a bytes-like object or a real number, not '" ++ kind ++ "'"
  | asReal kind => "float() argument must be a string or a real number, not '" ++ kind ++ "'"
  | asStart kind => "startswith first arg must be str or a tuple of str, not " ++ kind
  | asText kind => "expected string or bytes-like object, got '" ++ kind ++ "'"
  | arguments text => text

/-- A text or number that a conversion does not take. -/
inductive Unconvertible where
  | integer (base : Nat) (text : String)
  | real (text : String)
  | digits (count : Nat)
  | notANumber
  | stated (text : String)
  deriving DecidableEq, Repr

def Unconvertible.message : Unconvertible → String
  | integer base text =>
    "invalid literal for int() with base " ++ toString base ++ ": " ++
      String.ofList ((Text.quoted text).toList.take 200)
  | real text => "could not convert string to float: " ++ Text.quoted text
  | digits count =>
    "Exceeds the limit (4300 digits) for integer string conversion: value has " ++ toString count ++
      " digits; use sys.set_int_max_str_digits() to increase the limit"
  | notANumber => "cannot convert float NaN to integer"
  | stated text => text

/-! ## Faults -/

inductive Fault where
  /-- A document does not have the shape of the named record. -/
  | misfit (record : String) (misfits : List Misfit)
  | rejected (reason : Rejection)
  | failed (failure : NodeFailure)
  | stalled (failure : ResumeFailure)
  /-- A rule of the engine itself was broken. -/
  | engine (text : String)
  /-- Nothing is kept or registered under an identifier. -/
  | notFound (resource identifier : String)
  | configuration (text : String)
  | infrastructure (text : String)
  | storage (text : String)
  /-- A text is no document. -/
  | unreadable (text : String)
  | misuse (use : Misuse)
  | noMember (kind member : String)
  | noKey (key : Value)
  | outOfBounds
  | unconvertible (cause : Unconvertible)
  | overflow (text : String)
  /-- Something is nested too deeply, or within itself. -/
  | tooDeep
  /-- A collaborator broke down. -/
  | breakdown (text : String)

namespace Fault

/-- The sentence for a cause. -/
def message : Fault → String
  | misfit record misfits =>
    toString misfits.length ++ (if misfits.length == 1 then " validation error for " else " validation errors for ") ++
      record
  | rejected reason => reason.message
  | failed failure => failure.message
  | stalled failure => failure.message
  | engine text | configuration text | infrastructure text | storage text | unreadable text | overflow text
  | breakdown text => text
  | notFound resource identifier => resource ++ " not found: " ++ identifier
  | misuse use => use.message
  | noMember kind member => "'" ++ kind ++ "' object has no attribute '" ++ member ++ "'"
  | noKey key => key.inspect
  | outOfBounds => "list index out of range"
  | tooDeep => "maximum recursion depth exceeded"
  | unconvertible cause => cause.message

/-- What a failed node produced all the same; null for every other cause. -/
def output : Fault → Value
  | failed failure => failure.output
  | _ => .null

/-- The account of a cause that is kept with a failed node; never empty. -/
def account (f : Fault) : String :=
  "cause: " ++ f.message

theorem account_ne_empty (f : Fault) : f.account ≠ "" := by
  intro h
  have := congrArg String.length h
  simp [account] at this

/-- An integer out of the range of doubles. -/
def tooLarge : Fault := overflow "int too large to convert to float"

end Fault

end WorkGraph
