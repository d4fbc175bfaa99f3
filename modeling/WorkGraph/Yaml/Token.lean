import WorkGraph.Yaml.Tag

/-!
# Tokens of settings

A text of settings is a sequence of tokens. Indentation shows in them as the start and the end of blocks; a column to
the left of a block ends it. A key is recognised only by the colon behind it, so `Scan` keeps the places where a key may
have started, and puts the token for it there afterwards.

`Tokens.ofText` takes a whole text apart. Where that fails, the tokens before the failure still count, up to the first
place where a key may have started.
-/

namespace WorkGraph.Yaml

inductive Token where
  | directive (d : Directive)
  | documentStart
  | documentEnd
  | blockListStart
  | blockMapStart
  | blockEnd
  | listStart
  | listEnd
  | mapStart
  | mapEnd
  | separator
  | item
  | key
  | value
  | alias (name : String)
  | anchor (name : String)
  | tag (t : WrittenTag)
  /-- A text, and whether it was written plainly. -/
  | scalar (text : String) (plain : Bool)
  deriving DecidableEq, Repr

/-- The tokens of a text, and what kept the rest from being taken apart. -/
structure Tokens where
  list : List Token
  failure : Option Failure

/-- A place where a key may have started. -/
structure KeyStart where
  /-- How many brackets were open. -/
  level : Nat
  /-- The number of tokens before. -/
  token : Nat
  /-- Whether anything but a key would be wrong there. -/
  required : Bool
  line : Nat
  column : Nat
  index : Nat
  deriving DecidableEq, Repr

/-- How far a text has been taken apart. -/
structure Scan where
  cursor : Cursor
  /-- The tokens so far, the last one first, and their number. -/
  reversed : List Token
  count : Nat
  /-- How many brackets are open. -/
  level : Nat
  /-- The column of the innermost block, and those of the blocks around it. -/
  indent : Int
  outer : List Int
  /-- Whether a key may start here. -/
  allowKey : Bool
  starts : List KeyStart

namespace Scan

/-- The longest key, in characters. -/
def keyLimit : Nat := 1024

def start (cs : List Char) : Scan :=
  { cursor := .start cs
    reversed := []
    count := 0
    level := 0
    indent := -1
    outer := []
    allowKey := true
    starts := [] }

def add (s : Scan) (t : Token) : Scan :=
  { s with reversed := t :: s.reversed, count := s.count + 1 }

/-- Adds a token at a place before others. -/
def insert (s : Scan) (place : Nat) (t : Token) : Scan :=
  let behind := s.count - place
  { s with reversed := s.reversed.take behind ++ t :: s.reversed.drop behind, count := s.count + 1 }

def skip (s : Scan) (n : Nat) : Scan :=
  { s with cursor := Cursor.skip n s.cursor }

def inFlow (s : Scan) : Bool :=
  s.level != 0

/-! ## Blanks -/

/-- Over blanks, comments and line ends, to where the next token starts. -/
def toToken : (fuel : Nat) → Scan → Scan
  | 0, s => s
  | fuel + 1, s =>
    let c := s.cursor.drop (· == ' ')
    let c := if c.head? == some '#' then c.drop (!isLineEnd ·) else c
    match c.lineBreak? with
    | none => { s with cursor := c }
    | some (_, c) => toToken fuel { s with cursor := c, allowKey := s.allowKey || !s.inFlow }

/-! ## Keys -/

/-- Whether a key may still have started there: on this line, and not too far back. -/
def isFresh (s : Scan) (k : KeyStart) : Bool :=
  k.line == s.cursor.line && decide (s.cursor.index - k.index ≤ keyLimit)

/-- Forgets the places where no key can have started any more. -/
def dropStale (s : Scan) : Reading Scan := do
  Reading.check (s.starts.all fun k => s.isFresh k || !k.required)
  return { s with starts := s.starts.filter s.isFresh }

/-- Forgets the place for the brackets that are open. -/
def dropStart (s : Scan) : Reading Scan := do
  Reading.check (s.starts.all fun k => k.level != s.level || !k.required)
  return { s with starts := s.starts.filter (·.level != s.level) }

/-- Notes that a key may start here. -/
def noteStart (s : Scan) : Reading Scan := do
  if !s.allowKey then return s
  let s ← s.dropStart
  return { s with
    starts := s.starts ++
      [{ level := s.level
         token := s.count
         required := !s.inFlow && s.indent == (s.cursor.column : Int)
         line := s.cursor.line
         column := s.cursor.column
         index := s.cursor.index }] }

/-! ## Blocks -/

/-- Ends the blocks to the right of a column, `fuel` of them at most. -/
def unwindBy : (fuel : Nat) → (column : Int) → Scan → Scan
  | 0, _, s => s
  | fuel + 1, column, s =>
    if column < s.indent then
      unwindBy fuel column ({ s with indent := s.outer.headD (-1), outer := s.outer.drop 1 }.add .blockEnd)
    else s

/-- Ends the blocks to the right of a column, unless brackets are open. -/
def unwind (s : Scan) (column : Int) : Scan :=
  if s.inFlow then s else unwindBy (s.outer.length + 1) column s

/-- Starts a block at a column, unless there is one; and whether there was none. -/
def deepen (s : Scan) (column : Nat) : Scan × Bool :=
  if s.indent < (column : Int) then ({ s with indent := column, outer := s.indent :: s.outer }, true) else (s, false)

/-- Starts a block at the place of the cursor if there is none there. -/
def open? (s : Scan) (t : Token) : Scan :=
  let (s, new) := s.deepen s.cursor.column
  if new then s.add t else s

/-! ## Tokens -/

def atEnd (s : Scan) : Reading Scan :=
  { s.unwind (-1) with allowKey := false }.dropStart

/-- The start or the end of a document. -/
def documentMark (s : Scan) (t : Token) : Reading Scan := do
  let s ← (s.unwind (-1)).dropStart
  return ({ s with allowKey := false }.skip 3).add t

def directive (s : Scan) : Reading Scan := do
  let s ← (s.unwind (-1)).dropStart
  let (directive, c) ← Directive.read s.cursor.next
  return { s with allowKey := false, cursor := c }.add (.directive directive)

def openBracket (s : Scan) (t : Token) : Reading Scan := do
  let s ← s.noteStart
  return ({ s with level := s.level + 1, allowKey := true }.skip 1).add t

def closeBracket (s : Scan) (t : Token) : Reading Scan := do
  Reading.check s.inFlow
  let s ← s.dropStart
  return ({ s with level := s.level - 1, allowKey := false }.skip 1).add t

def separator (s : Scan) : Reading Scan := do
  let s ← { s with allowKey := true }.dropStart
  return (s.skip 1).add .separator

def item (s : Scan) : Reading Scan := do
  Reading.check (s.inFlow || s.allowKey)
  let s := if s.inFlow then s else s.open? .blockListStart
  let s ← { s with allowKey := true }.dropStart
  return (s.skip 1).add .item

def key (s : Scan) : Reading Scan := do
  Reading.check (s.inFlow || s.allowKey)
  let s := if s.inFlow then s else s.open? .blockMapStart
  let s ← { s with allowKey := !s.inFlow }.dropStart
  return (s.skip 1).add .key

/-- The colon behind a key; the token for the key goes where it started. -/
def value (s : Scan) : Reading Scan := do
  match s.starts.find? (·.level == s.level) with
  | some k =>
    let s := { s with starts := s.starts.filter (·.level != s.level), allowKey := false }.insert k.token .key
    let (s, new) := if s.inFlow then (s, false) else s.deepen k.column
    let s := if new then s.insert k.token .blockMapStart else s
    return (s.skip 1).add .value
  | none =>
    Reading.check (s.inFlow || s.allowKey)
    let s := if s.inFlow then s else s.open? .blockMapStart
    let s ← { s with allowKey := !s.inFlow }.dropStart
    return (s.skip 1).add .value

/-- Whether a name may end before this character. -/
def endsName (c : Option Char) : Bool :=
  endsWord c || c.any fun ch => "?:,]\x7d%@\x60".toList.contains ch

/-- The name behind a mark. -/
def named (s : Scan) (t : String → Token) : Reading Scan := do
  let s ← s.noteStart
  let (name, c) := s.cursor.next.span isNameChar
  Reading.check (!name.isEmpty && endsName c.head?)
  return { s with allowKey := false, cursor := c }.add (t (String.ofList name))

def tag (s : Scan) : Reading Scan := do
  let s ← s.noteStart
  let (tag, c) ← Reading.need (WrittenTag.read? s.cursor)
  return { s with allowKey := false, cursor := c }.add (.tag tag)

def block (s : Scan) (fold : Bool) : Reading Scan := do
  let s ← { s with allowKey := true }.dropStart
  let (cs, c) ← Reading.need (Block.read? fold s.indent s.cursor.next)
  return { s with cursor := c }.add (.scalar (String.ofList cs) false)

def quoted (s : Scan) (read : (fuel : Nat) → Cursor → ReadText) : Reading Scan := do
  let s ← s.noteStart
  let (cs, c) ← read (s.cursor.rest.length + 1) s.cursor.next
  return { s with allowKey := false, cursor := c }.add (.scalar (String.ofList cs) false)

def plain (s : Scan) : Reading Scan := do
  let s ← s.noteStart
  let (cs, crossed, c) := Plain.read s.inFlow (s.indent + 1) (s.cursor.rest.length + 1) [] false s.cursor
  return { s with allowKey := crossed, cursor := c }.add (.scalar (String.ofList cs) true)

/-- The characters that no plain text starts with. -/
def marks : List Char := "-?:,[]\x7b\x7d#&*!|>'\"%@\x60".toList

/-- Whether a plain text starts here. -/
def startsPlain (s : Scan) (ch : Char) : Bool :=
  (!endsWord (some ch) && !marks.contains ch) ||
    (!endsWord (s.cursor.ahead? 1) && (ch == '-' || (!s.inFlow && (ch == '?' || ch == ':'))))

/-- The token that starts with a character. -/
def token (s : Scan) (ch : Char) : Reading Scan :=
  let c := s.cursor
  let wordEnds := endsWord (c.ahead? 1)
  if c.column == 0 && ch == '%' then s.directive
  else if c.column == 0 && c.isMark "---" then s.documentMark .documentStart
  else if c.column == 0 && c.isMark "..." then s.documentMark .documentEnd
  else if ch == '[' then s.openBracket .listStart
  else if ch == '{' then s.openBracket .mapStart
  else if ch == ']' then s.closeBracket .listEnd
  else if ch == '}' then s.closeBracket .mapEnd
  else if ch == ',' then s.separator
  else if ch == '-' && wordEnds then s.item
  else if ch == '?' && (s.inFlow || wordEnds) then s.key
  else if ch == ':' && (s.inFlow || wordEnds) then s.value
  else if ch == '*' then s.named .alias
  else if ch == '&' then s.named .anchor
  else if ch == '!' then s.tag
  else if ch == '|' && !s.inFlow then s.block false
  else if ch == '>' && !s.inFlow then s.block true
  else if ch == '\'' then s.quoted Quoted.single
  else if ch == '"' then s.quoted Quoted.double
  else if s.startsPlain ch then s.plain
  else .malformed

/-- Takes the next token off the text; and whether the text is at its end. -/
def step (s : Scan) : Reading (Scan × Bool) := do
  let s ← (toToken (s.cursor.rest.length + 1) s).dropStale
  let s := s.unwind s.cursor.column
  match s.cursor.head? with
  | none => return (← s.atEnd, true)
  | some ch => return (← s.token ch, false)

/-- How many tokens stay as they are, however the text goes on. -/
def settled (s : Scan) : Nat :=
  (s.starts.filter s.isFresh).foldl (fun n k => min n k.token) s.count

/-- Takes the rest of a text apart. -/
def finish : (fuel : Nat) → Scan → Tokens
  | 0, s => ⟨s.reversed.reverse, some .malformed⟩
  | fuel + 1, s =>
    match s.step with
    | .error failure => ⟨s.reversed.reverse.take s.settled, some failure⟩
    | .ok (s, true) => ⟨s.reversed.reverse, none⟩
    | .ok (s, false) => finish fuel s

end Scan

/-- Takes a text apart. A byte order mark in front does not count; every other character must be printable. -/
def Tokens.ofText (text : String) : Tokens :=
  let cs := text.toList
  let cs := if cs.head?.any (·.toNat == 0xFEFF) then cs.drop 1 else cs
  if cs.all isPrintable then Scan.finish (cs.length + 1) (.start cs) else ⟨[], some .malformed⟩

end WorkGraph.Yaml
