import WorkGraph.Context
import WorkGraph.Graph
import WorkGraph.World

/-!
# Runs

A `Run` is what one invocation of the engine knows of an execution: the graph, the context that its nodes share, and how
it went so far. `Running` computations change a run and the world together. Where only the world is concerned, an
`Engine` computation is enough, and it leaves the run as it is.
-/

namespace WorkGraph

structure Run where
  execution : String
  workflow : Workflow
  graph : Graph
  context : Context
  failed : Bool
  /-- The message of the first failure; empty before it. -/
  firstError : String
  suspended : Bool
  /-- The nodes that were dispatched, in order, those included that had run before. -/
  entered : List String

namespace Run

/-- A run in which nothing has happened. -/
def start (execution : String) (workflow : Workflow) (context : Context) : Run :=
  { execution
    workflow
    graph := workflow.graph
    context
    failed := false
    firstError := ""
    suspended := false
    entered := [] }

/-- The run with one more failure. The first message stays. -/
def recordFailure (r : Run) (message : String) : Run :=
  { r with failed := true, firstError := if r.firstError == "" then message else r.firstError }

/-- The number of dispatches that can be nested: each but the innermost marks a node that was not marked before. -/
def depth (r : Run) : Nat :=
  (r.workflow.nodes.map Node.id).eraseDups.length + 1

end Run

/-- A run in its world. -/
structure Progress where
  world : World
  run : Run

abbrev Running (α : Type) := ExceptT Fault (StateM Progress) α

namespace Running

/-- A computation on the world alone. -/
def ofEngine {α : Type} (act : Engine α) : Running α := fun p =>
  let (result, world) := act p.world
  (result, { p with world })

instance : MonadLift Engine Running := ⟨ofEngine⟩

/-- Runs a computation: its value or fault, and the progress after it. -/
def go {α : Type} (act : Running α) (p : Progress) : Except Fault α × Progress :=
  act p

/-- What comes next goes on from the progress as it was left, unless there was a fault. -/
theorem go_bind {α β : Type} (act : Running α) (next : α → Running β) (p : Progress) :
    go (act >>= next) p =
      match go act p with
      | (.ok a, p) => go (next a) p
      | (.error fault, p) => (.error fault, p) := by
  show (ExceptT.bindCont next (act p).1) (act p).2 = _
  unfold go
  rcases act p with ⟨_ | _, _⟩ <;> rfl

/-- A computation on the world leaves the run as it is. -/
@[simp] theorem run_go_ofEngine {α : Type} (act : Engine α) (p : Progress) : (go (ofEngine act) p).2.run = p.run := rfl

def run : Running Run := fun p =>
  (.ok p.run, p)

def context : Running Context :=
  return (← run).context

def modifyRun (f : Run → Run) : Running Unit := fun p =>
  (.ok (), { p with run := f p.run })

def setContext (c : Context) : Running Unit :=
  modifyRun fun r => { r with context := c }

/-- The fault that a computation ends in, if any; what it did stays done. -/
def faultOf (act : Running Unit) : Running (Option Fault) := fun p =>
  match act p with
  | (.ok (), p) => (.ok none, p)
  | (.error fault, p) => (.ok (some fault), p)

end Running

/-- Works on a run from the world as it is: the value or fault, and the run after it. The world goes on from there. -/
def Engine.onRun {α : Type} (r : Run) (act : Running α) : Engine (Except Fault α × Run) := fun w =>
  let (result, p) := act ⟨w, r⟩
  (.ok (result, p.run), p.world)

end WorkGraph
