import WorkGraph.Workflow

/-!
# The graph of a workflow

`Graph.ofEdges` keeps the edges that have both ends, under their sources, in the order in which they are drawn.
`Graph.cycle?` removes vertices without incoming edges until there are none left; what remains lies on a cycle or behind
one. `Workflow.validate` says whether a workflow may be stored.
-/

namespace WorkGraph

/-- An edge as its source sees it. -/
structure Link where
  target : String
  outlet : Option String
  deriving DecidableEq, Repr

/-- The links of each source, sources in order of their first edge. -/
abbrev Graph := Entries (List Link)

namespace Graph

/-- The text of an end of an edge, unless it is missing or empty. -/
def endpoint? (name : Option String) : Option String :=
  name.filter (· != "")

def addEdge (g : Graph) (edge : Edge) : Graph :=
  match endpoint? edge.source, endpoint? edge.target with
  | some source, some target => g.set source ((g.get? source).getD [] ++ [⟨target, edge.outlet⟩])
  | _, _ => g

def ofEdges (edges : List Edge) : Graph :=
  edges.foldl addEdge []

/-- The links of a vertex. -/
def links (g : Graph) (vertex : String) : List Link :=
  (g.get? vertex).getD []

/-- The sources and targets, each once. -/
def vertices (g : Graph) : List String :=
  (Entries.keys g ++ g.flatMap fun entry => entry.2.map Link.target).eraseDups

/-! ## Cycles -/

/-- How far the removal of vertices has come: the edges that still lead to each vertex, and the vertices to remove. -/
structure Peeling where
  degree : Entries Int
  ready : List String
  removed : Nat

/-- Takes away one edge to a vertex, which becomes ready with its last one. -/
def Peeling.drop (p : Peeling) (target : String) : Peeling :=
  let left := (p.degree.get? target).getD 0 - 1
  { p with
    degree := p.degree.set target left
    ready := if left == 0 then p.ready ++ [target] else p.ready }

/-- Every vertex with the number of edges to it, and those with none ready. -/
def peeling (g : Graph) : Peeling :=
  let targets := g.flatMap fun entry => entry.2.map Link.target
  let degree : Entries Int := g.vertices.map fun v => (v, (targets.count v : Int))
  { degree, ready := (degree.filter (·.2 == 0)).map (·.1), removed := 0 }

/-- Removes ready vertices, at most `steps` of them. -/
def peel (g : Graph) : (steps : Nat) → Peeling → Peeling
  | 0, p => p
  | steps + 1, p =>
    match p.ready with
    | [] => p
    | vertex :: rest =>
      let p := { p with ready := rest, removed := p.removed + 1 }
      peel g steps ((g.links vertex).foldl (fun p link => p.drop link.target) p)

/-- The vertices on a cycle or behind one, in ascending order; none if there is no cycle. No vertex is ready twice, so
as many steps as there are vertices are enough. -/
def cycle? (g : Graph) : Option (List String) :=
  let done := g.peel g.vertices.length g.peeling
  if done.removed == g.vertices.length then none
  else some (((done.degree.filter (0 < ·.2)).map (·.1)).mergeSort (· ≤ ·))

end Graph

namespace Workflow

def graph (w : Workflow) : Graph :=
  Graph.ofEdges w.edges

/-- The first node of an id. -/
def node? (w : Workflow) (id : String) : Option Node :=
  w.nodes.find? (·.id == id)

/-- The first trigger node. -/
def triggerNode? (w : Workflow) : Option Node :=
  w.nodes.find? (·.isOfType .trigger)

/-- The ids that occur more than once, each once. -/
def duplicateIds (w : Workflow) : List String :=
  let ids := w.nodes.map Node.id
  (ids.filter fun id => decide (1 < ids.count id)).eraseDups

/-- The first end of an edge that names no node. Missing ends are tolerated. -/
def danglingEnd? (w : Workflow) : Option String :=
  let ids := w.nodes.map Node.id
  (w.edges.flatMap fun edge => [edge.source, edge.target].filterMap Graph.endpoint?).find? (!ids.contains ·)

/-- What keeps a workflow from being stored, if anything. -/
def rejection? (w : Workflow) : Option Rejection :=
  if w.nodes.isEmpty then some .noNodes
  else if !w.duplicateIds.isEmpty then some (.duplicateIds w.duplicateIds)
  else match w.nodes.find? (·.nodeType?.isNone) with
    | some node => some (.unknownType node.id node.type)
    | none =>
      if w.triggerNode?.isNone then some .noTrigger
      else w.danglingEnd?.map .danglingEdge

/-- A workflow that may be stored. -/
def validate (w : Workflow) : Except Fault Unit :=
  w.rejection?.elim (.ok ()) fun reason => .error (.rejected reason)

/-- A stored workflow has a trigger node to start from. -/
theorem triggerNode?_isSome_of_validate {w : Workflow} (h : w.validate = .ok ()) : w.triggerNode?.isSome = true := by
  cases ht : w.triggerNode? with
  | some _ => rfl
  | none =>
    simp only [validate] at h
    cases hr : w.rejection? with
    | some r => simp [hr] at h
    | none =>
      simp only [rejection?, ht] at hr
      split at hr
      · simp at hr
      · split at hr
        · simp at hr
        · split at hr <;> simp at hr

end Workflow

end WorkGraph
