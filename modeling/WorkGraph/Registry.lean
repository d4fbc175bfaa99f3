import WorkGraph.World

/-!
# Registered collaborators

Tools and agents are known by their ids. `Registry.call` looks one up, notes the call, lets the time of the answer pass
and hands the answer on. A `Script` is a collaborator that answers from a list: each call takes the next entry, and the
last one is repeated.
-/

namespace WorkGraph

namespace World

/-- The registry of a role. -/
def registry (w : World) : Role → Registry
  | .tool => w.tools
  | .agent => w.agents

/-- The world with another registry of a role. -/
def setRegistry (w : World) (role : Role) (registry : Registry) : World :=
  match role with
  | .tool => { w with tools := registry }
  | .agent => { w with agents := registry }

end World

namespace Registry

/-- The collaborator of an id. No collaborator has an id that is no text. -/
def find? (r : Registry) (id : Value) : Except Fault (Option (String × Collaborator)) :=
  match id with
  | .str name => .ok ((r.get? name).join.map (name, ·))
  | v => if v.isKey then .ok none else .error (.misuse (.asKey v.kindName))

/-- Whether an id is held, with or without a collaborator. -/
def holds (r : Registry) (id : Value) : Except Fault Bool :=
  match id with
  | .str name => .ok (r.has name)
  | v => if v.isKey then .ok false else .error (.misuse (.asKey v.kindName))

/-- The collaborator of an id, or a fault that it is missing. -/
def require (r : Registry) (role : Role) (id : Value) : Except Fault (String × Collaborator) := do
  match ← r.find? id with
  | some found => return found
  | none => .error (.notFound role.resource id.display)

/-- Calls a collaborator on behalf of a node. -/
def call (role : Role) (id : Value) (origin : Option Origin) (first second : Value) : Engine Value := do
  let (name, collaborator) ← Engine.ofExcept (((← get).registry role).require role id)
  let call : Call := { role, id := name, origin, first, second }
  Engine.emit (.call call)
  let reply := collaborator.answer collaborator.answered call
  let counted := { collaborator with answered := collaborator.answered + 1 }
  modify fun w => w.setRegistry role ((w.registry role).set name (some counted))
  Engine.advance reply.ticks
  Engine.ofExcept reply.outcome

/-- Holds an id for a collaborator. -/
def register (role : Role) (id : String) (collaborator : Option Collaborator) : Engine Unit :=
  modify fun w => w.setRegistry role ((w.registry role).set id collaborator)

/-- Lets an id go. -/
def unregister (role : Role) (id : String) : Engine Unit :=
  modify fun w => w.setRegistry role ((w.registry role).erase id)

end Registry

/-! ## Scripts -/

namespace Script

/-- What an entry does with a call. -/
inductive Act where
  | give (v : Value)
  | echo
  | fail (fault : Fault)

structure Entry where
  /-- How long the answer takes, in ticks. -/
  ticks : Int
  act : Act

/-- The outcome of a call. An echo hands back what it was given. -/
def Act.outcome (call : Call) : Act → Except Fault Value
  | give v => .ok v
  | echo => .ok (.map [("inputs", call.first), ("second", call.second)])
  | fail fault => .error fault

/-- The entry of a call after so many earlier ones: the one at its place, else the last. -/
def entry? (entries : List Entry) (earlier : Nat) : Option Entry :=
  entries[earlier]?.or entries.getLast?

/-- The collaborator that answers from a list. -/
def collaborator (entries : List Entry) : Collaborator where
  answer earlier call :=
    match entry? entries earlier with
    | none => ⟨0, .ok .null⟩
    | some entry => ⟨entry.ticks, entry.act.outcome call⟩
  answered := 0

end Script

end WorkGraph
