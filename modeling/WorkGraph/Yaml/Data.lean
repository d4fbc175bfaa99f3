import WorkGraph.Yaml.Node
import WorkGraph.Yaml.Typed

/-!
# Data of settings

What the nodes of a document stand for. Each node stands for one `Item`, which has the place of the node and names the
places of its members; so an item may be a member of several, and of itself. Collections are filled one after the
other, those that were met first coming first; the first failure on this way counts.

A map may take over the entries of other maps by a key with the tag for that (`Node.flatten`); its own entries go before
theirs. Of two entries with one key, the first gives the key and the last the value.
-/

namespace WorkGraph.Yaml

/-- What a node stands for; the numbers are places of items. -/
inductive Item where
  | atom (a : Atom)
  | list (items : List Nat)
  | pairs (items : List (Nat × Nat))
  | map (entries : List (Atom × Nat))
  | set (members : List Atom)

/-- The items of a document, by their places; there is no root where there is no document. -/
structure Data where
  items : Array (Option Item)
  root : Option Nat

namespace Data

/-- The nodes that are still to be filled, with the items so far. -/
structure Building where
  nodes : Array Node
  items : Array (Option Item)
  /-- The places of collections that are met but not filled, the last one first. -/
  waiting : List Nat

abbrev Build (α : Type) := StateT Building (Except Failure) α

namespace Build

def malformed {α : Type} : Build α := throw .malformed

/-- The node at a place. -/
def node (place : Nat) : Build Node := do
  match (← get).nodes[place]? with
  | some node => return node
  | none => malformed

def setNode (place : Nat) (node : Node) : Build Unit :=
  modify fun b => { b with nodes := b.nodes.setIfInBounds place node }

def setItem (place : Nat) (item : Item) : Build Unit :=
  modify fun b => { b with items := b.items.setIfInBounds place (some item) }

/-- Takes note of a collection that is to be filled. -/
def await (place : Nat) : Build Unit :=
  modify fun b => { b with waiting := place :: b.waiting }

end Build

open Build

/-! ## Taking over -/

/-- The first entry that takes over those of others, cut out of the entries. -/
def cutMerge (nodes : Array Node) : List (Nat × Nat) → Option (Nat × List (Nat × Nat))
  | [] => none
  | (key, value) :: rest =>
    if nodes[key]?.any (·.tag == .merge) then some (value, rest)
    else (cutMerge nodes rest).map fun (found, rest) => (found, (key, value) :: rest)

/-- The entries of a map. -/
def entriesAt (place : Nat) : Build (List (Nat × Nat)) := do
  match (← node place).content with
  | .map entries => return entries
  | _ => malformed

def setEntries (place : Nat) (entries : List (Nat × Nat)) : Build Unit := do
  setNode place { ← node place with content := .map entries }

/-- A key with the tag of a value by itself is a text as a key. -/
def asKey (place : Nat) : Build Unit := do
  let n ← node place
  if n.tag == .value then setNode place { n with tag := .str }

/-- Gives a map the entries that it takes over, in front of its own; `taken` are those found before. A map may be taken
over from within itself. -/
def flattenWith : (fuel : Nat) → (place : Nat) → (taken : List (Nat × Nat)) → Build Unit
  | 0, _, _ => throw (.fault .tooDeep)
  | fuel + 1, place, taken => do
    let own ← entriesAt place
    match cutMerge (← get).nodes own with
    | none =>
      own.forM fun entry => asKey entry.1
      setEntries place (taken ++ own)
    | some (source, rest) =>
      setEntries place rest
      match (← node source).content with
      | .map _ =>
        flattenWith fuel source []
        flattenWith fuel place (taken ++ (← entriesAt source))
      | .list sources =>
        let found ← sources.mapM fun source => do
          let _ ← entriesAt source
          flattenWith fuel source []
          entriesAt source
        flattenWith fuel place (taken ++ found.reverse.flatten)
      | .text _ => malformed

/-- How many entries take over those of others; each time that happens, there is one less. -/
def mergeCount (nodes : Array Node) : Nat :=
  nodes.foldl (fun n node => match node.content with
    | .map entries => n + entries.countP fun entry => nodes[entry.1]?.any (·.tag == .merge)
    | _ => n) 0

/-- The entries of a map with those that it takes over. -/
def flatten (place : Nat) : Build (List (Nat × Nat)) := do
  let _ ← entriesAt place
  flattenWith (mergeCount (← get).nodes + 1) place []
  entriesAt place

/-! ## Items -/

/-- The text of a node. That of a map is the one behind its key for a value by itself. -/
def textAt : (fuel : Nat) → (place : Nat) → Build String
  | 0, _ => throw (.fault .tooDeep)
  | fuel + 1, place => do
    match (← node place).content with
    | .text s => return s
    | .list _ => malformed
    | .map entries =>
      let nodes := (← get).nodes
      match entries.find? fun entry => nodes[entry.1]?.any (·.tag == .value) with
      | some (_, source) => textAt fuel source
      | none => malformed

/-- The atom of a node with the tag of a type without parts. -/
def atomAt (place : Nat) : Build Atom := do
  let n ← node place
  let text ← textAt ((← get).nodes.size + 1) place
  match n.tag, n.content with
  | .timestamp, .map _ => throw (.fault (.misuse (.asText "list")))
  | tag, _ =>
    match tag.atom? text with
    | some atom => atom
    | none => malformed

/-- The item that a collection of a type is before it is filled. -/
def emptyItem? : Tag → Option Item
  | .seq => some (.list [])
  | .map => some (.map [])
  | .set => some (.set [])
  | .omap | .pairs => some (.pairs [])
  | _ => none

/-- Meets a node: a collection is to be filled, of all others the item is known. -/
def meet (place : Nat) : Build Unit := do
  if ((← get).items[place]?.join).isSome then return
  let tag := (← node place).tag
  match emptyItem? tag with
  | some item =>
    setItem place item
    await place
  | none =>
    if [.merge, .value, .unknown].contains tag then malformed
    setItem place (.atom (← atomAt place))

/-- Meets a node that is to be a key. Collections are no keys. -/
def meetKey (place : Nat) : Build Atom := do
  meet place
  match (← get).items[place]?.join with
  | some (.atom a) => return a
  | _ => malformed

/-- The entries with a key set to a value. -/
def put : List (Atom × Nat) → Atom → Nat → List (Atom × Nat)
  | [], key, value => [(key, value)]
  | (k, v) :: rest, key, value => if k.same key then (k, value) :: rest else (k, v) :: put rest key value

/-- The entries of a map, all of which are met. -/
def table (place : Nat) : Build (List (Atom × Nat)) := do
  (← flatten place).foldlM (fun entries (key, value) => do
    let key ← meetKey key
    meet value
    return put entries key value) []

/-- The key and the value of a map with one entry, both of which are met. -/
def single (place : Nat) : Build (Nat × Nat) := do
  match ← entriesAt place with
  | [(key, value)] =>
    meet key
    meet value
    return (key, value)
  | _ => malformed

/-- The members of a list. -/
def itemsAt (place : Nat) : Build (List Nat) := do
  match (← node place).content with
  | .list items => return items
  | _ => malformed

/-- Fills a collection. -/
def fill (place : Nat) : Build Unit := do
  match (← node place).tag with
  | .map => setItem place (.map (← table place))
  | .set => setItem place (.set ((← table place).map (·.1)))
  | .omap | .pairs => setItem place (.pairs (← (← itemsAt place).mapM single))
  | _ =>
    let items ← itemsAt place
    items.forM meet
    setItem place (.list items)

/-- Fills the collections that are met, and those that are met by that. -/
def fillAll : (fuel : Nat) → Build Unit
  | 0 => return
  | fuel + 1 => do
    let waiting := (← get).waiting
    if waiting.isEmpty then return
    modify fun b => { b with waiting := [] }
    waiting.reverse.forM fill
    fillAll fuel

/-- What the nodes of a document stand for. -/
def ofDocument (d : Document) : Reading Data := do
  match d.root with
  | none => return ⟨#[], none⟩
  | some root =>
    let size := d.nodes.size
    let ((), b) ← (do
      meet root
      fillAll size : Build Unit).run
        { nodes := d.nodes
          items := Array.replicate size none
          waiting := [] }
    return ⟨b.items, some root⟩

/-! ## Looking things up -/

/-- The item at a place. -/
def item? (d : Data) (place : Nat) : Option Item :=
  d.items[place]?.join

/-- The place of the value of a text as a key. -/
def valueOf? (entries : List (Atom × Nat)) (key : String) : Option Nat :=
  (entries.find? fun entry => entry.1.same (.str key)).map (·.2)

/-- The place behind keys in nested maps. There is none where a key is absent, and none for an empty map. -/
def dig? (d : Data) : List String → Nat → Option Nat
  | [], place =>
    match d.item? place with
    | some (.map []) => none
    | _ => some place
  | key :: rest, place =>
    match d.item? place with
    | some (.map entries) => (valueOf? entries key).bind (dig? d rest)
    | _ => none

/-- The setting at a place. Nothing that is within itself is a setting. -/
def unfold (d : Data) : (fuel : Nat) → (place : Nat) → Except Fault Setting
  | 0, _ => .error .tooDeep
  | fuel + 1, place =>
    match d.item? place with
    | none => .ok (.atom .null)
    | some (.atom a) => .ok (.atom a)
    | some (.set members) => .ok (.set members)
    | some (.list items) => Setting.list <$> items.mapM (unfold d fuel)
    | some (.pairs items) =>
      Setting.list <$> items.mapM fun (key, value) => return .pair (← unfold d fuel key) (← unfold d fuel value)
    | some (.map entries) =>
      Setting.map <$> entries.mapM fun (key, value) => return (key, ← unfold d fuel value)

/-- The setting at a place. A path through more items than there are leads into a circle. -/
def setting (d : Data) (place : Nat) : Except Fault Setting :=
  d.unfold (d.items.size + 1) place

end Data

namespace Item

/-- Whether an item counts as true. -/
def truthy : Item → Bool
  | atom a => a.truthy
  | list items => !items.isEmpty
  | pairs items => !items.isEmpty
  | map entries => !entries.isEmpty
  | set members => !members.isEmpty

/-- What an item is called in an error text. -/
def kindName : Item → String
  | atom a => a.kindName
  | list _ | pairs _ => "list"
  | map _ => "dict"
  | set _ => "set"

end Item

end WorkGraph.Yaml
