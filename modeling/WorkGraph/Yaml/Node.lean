import WorkGraph.Yaml.Guess
import WorkGraph.Yaml.Token

/-!
# Nodes of settings

The tokens of a text of settings form one document of texts, lists and maps. A node may have a tag that says its type,
and an anchor under which it is used again further on, within itself as well. So the nodes of a document are kept in a
table, and lists and maps name the places of their members in it.
-/

namespace WorkGraph.Yaml

/-- What a node is made of; the numbers are places of nodes. -/
inductive Content where
  | text (s : String)
  | list (items : List Nat)
  | map (entries : List (Nat × Nat))

structure Node where
  tag : Tag
  content : Content

/-- The nodes of a text; there is no root where there is no document. -/
structure Document where
  nodes : Array Node
  root : Option Nat

namespace Node

/-- The tokens that are left, and what is known of the document so far. -/
structure Progress where
  tokens : Tokens
  nodes : Array Node
  /-- The places of the nodes that have anchors. -/
  anchors : List (String × Nat)
  /-- What handles stand for. -/
  handles : List (String × String)
  /-- How many collections are open. -/
  depth : Nat

/-- Reading on in a document. -/
abbrev Read (α : Type) := StateT Progress (Except Failure) α

namespace Read

def malformed {α : Type} : Read α := throw .malformed

def check (b : Bool) : Read Unit :=
  if b then return else malformed

/-- The next token, left in place; none at the end of the text. -/
def peek : Read (Option Token) := do
  let tokens := (← get).tokens
  match tokens.list, tokens.failure with
  | t :: _, _ => return some t
  | [], none => return none
  | [], some failure => throw failure

def drop : Read Unit :=
  modify fun r => { r with tokens := { r.tokens with list := r.tokens.list.drop 1 } }

/-- Whether the next token is the given one; if so, it is taken. -/
def take (t : Token) : Read Bool := do
  if (← peek) == some t then
    drop
    return true
  else return false

/-- Whether the next token is one of the given ones. -/
def sees (ts : List Token) : Read Bool := do
  return (← peek).any ts.contains

def expect (t : Token) : Read Unit := do
  check (← take t)

/-- The place of a further node. -/
def add (tag : Tag) (content : Content) : Read Nat := do
  let place := (← get).nodes.size
  modify fun r => { r with nodes := r.nodes.push ⟨tag, content⟩ }
  return place

/-- Fills a node that has its place already. -/
def fill (place : Nat) (tag : Tag) (content : Content) : Read Unit :=
  modify fun r => { r with nodes := r.nodes.setIfInBounds place ⟨tag, content⟩ }

end Read

open Read

/-- How deeply nodes may be nested. -/
def depthLimit : Nat := 480

/-- Goes into collections, or out of them. -/
def deeper (change : Int) : Read Unit := do
  let depth := ((← get).depth + change).toNat
  if depthLimit < depth then throw (.fault .tooDeep)
  modify fun r => { r with depth }

/-- A node of which nothing is written. -/
def nothing : Read Nat := add .null (.text "")

/-- What stands in front of a node. -/
structure Properties where
  anchor : Option String
  tag : Option WrittenTag

/-- The anchor and the tag of a node, in either order. -/
def properties : (fuel : Nat) → Properties → Read Properties
  | 0, p => return p
  | fuel + 1, p => do
    match ← peek with
    | some (.anchor name) =>
      if p.anchor.isSome then return p
      drop
      properties fuel { p with anchor := some name }
    | some (.tag tag) =>
      if p.tag.isSome then return p
      drop
      properties fuel { p with tag := some tag }
    | _ => return p

/-- What a tag says of the type of a node. -/
inductive Typing where
  | unsaid
  /-- The type is to be guessed. -/
  | guessed
  | named (tag : Tag)
  deriving DecidableEq, Repr

/-- What a tag says, whose handle must be known. The tag that is a mark alone says that the type is to be guessed. -/
def typing : Option WrittenTag → Read Typing
  | none => return .unsaid
  | some tag => do
    let lead ← match tag.handle with
      | none => pure ""
      | some handle =>
        match (← get).handles.lookup handle with
        | some lead => pure lead
        | none => malformed
    let name := lead ++ tag.suffix
    return if name == "!" then .guessed else .named (Tag.ofName name)

/-- What is known of a node in front of it. -/
structure Front where
  anchor : Option String
  typing : Typing

def front : Read Front := do
  let p ← properties 2 ⟨none, none⟩
  return ⟨p.anchor, ← typing p.tag⟩

/-- Keeps the place of a node under its anchor, which must be new. -/
def announce (anchor : Option String) (place : Nat) : Read Unit := do
  match anchor with
  | none => return
  | some name =>
    check ((← get).anchors.lookup name).isNone
    modify fun r => { r with anchors := (name, place) :: r.anchors }

/-- The place of the node of an anchor. -/
def anchored (name : String) : Read Nat := do
  match (← get).anchors.lookup name with
  | some place => return place
  | none => malformed

/-- A text. Where nothing is said of its type, that of a plain text is guessed. -/
def scalar (f : Front) (text : String) (plain : Bool) : Read Nat := do
  let tag := match f.typing with
    | .named tag => tag
    | .guessed => Tag.guess text
    | .unsaid => if plain then Tag.guess text else .str
  let place ← add tag (.text text)
  announce f.anchor place
  return place

/-- A list or a map; its place is known within itself. -/
def collection (f : Front) (type : Tag) (content : Read Content) : Read Nat := do
  let tag := match f.typing with
    | .named tag => tag
    | _ => type
  let place ← add tag (.text "")
  announce f.anchor place
  deeper 1
  fill place tag (← content)
  deeper (-1)
  return place

mutual

/-- A node. Blocks may start only where `inBlock`, and a list without indentation only where `flush` as well. -/
def read (inBlock flush : Bool) : (fuel : Nat) → Read Nat
  | 0 => malformed
  | fuel + 1 => do
    if let some (.alias name) ← peek then
      drop
      return ← anchored name
    body inBlock flush (← front) fuel

/-- What follows what stands in front of a node. -/
def body (inBlock flush : Bool) (f : Front) : (fuel : Nat) → Read Nat
  | 0 => malformed
  | fuel + 1 => do
    match ← peek with
    | some (.scalar text plain) =>
      drop
      scalar f text plain
    | some .listStart =>
      drop
      collection f .seq (.list <$> listItems true fuel)
    | some .mapStart =>
      drop
      collection f .map (.map <$> mapEntries true fuel)
    | some .item => if flush then collection f .seq (.list <$> flushItems fuel) else bare f
    | some .blockListStart =>
      if inBlock then
        drop
        collection f .seq (.list <$> blockItems fuel)
      else bare f
    | some .blockMapStart =>
      if inBlock then
        drop
        collection f .map (.map <$> blockEntries fuel)
      else bare f
    | _ => bare f

/-- A node of which only the properties are written. -/
def bare (f : Front) : Read Nat := do
  check (f.anchor.isSome || f.typing != .unsaid)
  scalar f "" true

/-- A node, or nothing where one of the given tokens follows. -/
def readUnless (ends : List Token) (inBlock flush : Bool) : (fuel : Nat) → Read Nat
  | 0 => malformed
  | fuel + 1 => do
    if ← sees ends then nothing else read inBlock flush fuel

/-- The items of a block. -/
def blockItems : (fuel : Nat) → Read (List Nat)
  | 0 => malformed
  | fuel + 1 => do
    if ← take .item then
      let node ← readUnless [.item, .blockEnd] true false fuel
      return node :: (← blockItems fuel)
    else
      expect .blockEnd
      return []

/-- The items of a list that is not indented. -/
def flushItems : (fuel : Nat) → Read (List Nat)
  | 0 => malformed
  | fuel + 1 => do
    if ← take .item then
      let node ← readUnless [.item, .key, .value, .blockEnd] true false fuel
      return node :: (← flushItems fuel)
    else return []

/-- The value behind a key of a block. -/
def blockValue : (fuel : Nat) → Read Nat
  | 0 => malformed
  | fuel + 1 => do
    if ← take .value then readUnless [.key, .value, .blockEnd] true true fuel else nothing

/-- The entries of a block. -/
def blockEntries : (fuel : Nat) → Read (List (Nat × Nat))
  | 0 => malformed
  | fuel + 1 => do
    if ← take .key then
      let key ← readUnless [.key, .value, .blockEnd] true true fuel
      let value ← blockValue fuel
      return (key, value) :: (← blockEntries fuel)
    else
      expect .blockEnd
      return []

/-- The value behind a key between brackets. -/
def flowValue (ends : List Token) : (fuel : Nat) → Read Nat
  | 0 => malformed
  | fuel + 1 => do
    if ← take .value then readUnless ends false false fuel else nothing

/-- The items between square brackets. An item may be a single entry of a map. -/
def listItems (first : Bool) : (fuel : Nat) → Read (List Nat)
  | 0 => malformed
  | fuel + 1 => do
    if ← take .listEnd then return []
    if !first then expect .separator
    if ← take .key then
      let key ← readUnless [.value, .separator, .listEnd] false false fuel
      let value ← flowValue [.separator, .listEnd] fuel
      let node ← add .map (.map [(key, value)])
      return node :: (← listItems false fuel)
    else if ← take .listEnd then return []
    else
      let node ← read false false fuel
      return node :: (← listItems false fuel)

/-- The entries between braces. -/
def mapEntries (first : Bool) : (fuel : Nat) → Read (List (Nat × Nat))
  | 0 => malformed
  | fuel + 1 => do
    if ← take .mapEnd then return []
    if !first then expect .separator
    if ← take .key then
      let key ← readUnless [.value, .separator, .mapEnd] false false fuel
      let value ← flowValue [.separator, .mapEnd] fuel
      return (key, value) :: (← mapEntries false fuel)
    else if ← take .mapEnd then return []
    else
      let key ← read false false fuel
      return (key, ← nothing) :: (← mapEntries false fuel)

end

/-- Passes over the ends of documents. -/
def skipEnds : (fuel : Nat) → Read Unit
  | 0 => return
  | fuel + 1 => do
    if ← take .documentEnd then skipEnds fuel

/-- What handles stand for where no directive says so. -/
def defaultHandles : List (String × String) := [("!", "!"), ("!!", commonNames)]

/-- Takes note of the directives in front of a document. There may be one version, which must begin with one, and one
meaning of a handle. -/
def directives (versioned : Bool) : (fuel : Nat) → Read Unit
  | 0 => return
  | fuel + 1 => do
    match ← peek with
    | some (.directive d) =>
      drop
      match d with
      | .version major =>
        check (!versioned && major == 1)
        directives true fuel
      | .handle mark name =>
        check ((← get).handles.lookup mark).isNone
        modify fun r => { r with handles := (mark, name) :: r.handles }
        directives versioned fuel
      | .other => directives versioned fuel
    | _ => return

/-- Whether directives or the start of a document follow. -/
def isMarked : Read Bool := do
  match ← peek with
  | some (.directive _) | some .documentStart => return true
  | _ => return false

/-- The root of a document, if there is one. -/
def root (fuel : Nat) : Read (Option Nat) := do
  if (← peek).isNone then return none
  let marked ← isMarked
  if marked then
    directives false fuel
    expect .documentStart
  modify fun r => { r with handles := r.handles ++ defaultHandles }
  if marked && ((← peek).isNone || (← isMarked) || (← sees [.documentEnd])) then return some (← nothing)
  return some (← read true false fuel)

end Node

/-- The document that tokens write. There must not be a second one. -/
def Document.ofTokens (tokens : Tokens) : Reading Document := do
  let fuel := 4 * tokens.list.length + 8
  let (root, r) ← (do
    let root ← Node.root fuel
    Node.skipEnds fuel
    Node.Read.check (← Node.Read.peek).isNone
    return root : Node.Read (Option Nat)).run
      { tokens
        nodes := #[]
        anchors := []
        handles := []
        depth := 0 }
  return { nodes := r.nodes, root }

end WorkGraph.Yaml
