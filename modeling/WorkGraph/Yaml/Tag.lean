import WorkGraph.Value.Conversion
import WorkGraph.Yaml.Scalar

/-!
# Tags

A tag says of which type a node is. In a text it is a handle and a suffix; a directive at the start of a document says
what a handle stands for, and the whole is a name. `Tag.ofName` knows the names of the common types.
-/

namespace WorkGraph.Yaml

/-! ## Types -/

inductive Tag where
  | null
  | bool
  | int
  | float
  | binary
  | timestamp
  | omap
  | pairs
  | set
  | str
  | seq
  | map
  /-- The key of entries that are taken over. -/
  | merge
  /-- The key of a value by itself. -/
  | value
  | unknown
  deriving DecidableEq, Repr

/-- What the names of the common types start with. -/
def commonNames : String := "tag:yaml.org,2002:"

namespace Tag

/-- The common types by the ends of their names. -/
def common : List (String × Tag) :=
  [("null", null), ("bool", bool), ("int", int), ("float", float), ("binary", binary), ("timestamp", timestamp),
    ("omap", omap), ("pairs", pairs), ("set", set), ("str", str), ("seq", seq), ("map", map), ("merge", merge),
    ("value", value)]

/-- The type of a name. -/
def ofName (name : String) : Tag :=
  ((common.find? fun entry => commonNames ++ entry.1 == name).map (·.2)).getD unknown

end Tag

/-! ## Written tags -/

/-- A tag as it is written. Without a handle, the suffix is the whole name. -/
structure WrittenTag where
  handle : Option String
  suffix : String
  deriving DecidableEq, Repr

/-- What stands in front of a document. -/
inductive Directive where
  /-- The version of the format, by its first number. -/
  | version (major : Int)
  /-- What a handle stands for. -/
  | handle (mark name : String)
  | other
  deriving DecidableEq, Repr

/-- Whether a character may stand in a name. -/
def isNameChar (c : Char) : Bool :=
  c.isAlphanum || c == '-' || c == '_'

namespace WrittenTag

/-- Whether a character may stand in the name of a tag. -/
def isTagChar (c : Char) : Bool :=
  c.isAlphanum || "-;/?:@&=+$,_.!~*'()[]".toList.contains c

/-- Whether nothing more may follow: a tab does not count. -/
def ends (c : Option Char) : Bool :=
  endsLine c || c == some ' '

/-- The bytes of codes that start with a percent sign, as many as follow each other. -/
def bytes : List Char → Option (List UInt8)
  | '%' :: high :: low :: rest => do
    let byte := UInt8.ofNat (16 * (← hexValue? high) + (← hexValue? low))
    return byte :: (← bytes rest)
  | '%' :: _ => none
  | _ => some []

/-- The name of a tag, or a part of it. Codes write the bytes of further characters. -/
def name? : (fuel : Nat) → Cursor → Option (List Char × Cursor)
  | 0, _ => none
  | fuel + 1, c => do
    let (cs, c) := c.span isTagChar
    if c.head? != some '%' then return (cs, c)
    let codes ← bytes c.rest
    let text ← String.fromUTF8? ⟨codes.toArray⟩
    let (more, c) ← name? fuel (Cursor.skip (3 * codes.length) c)
    return (cs ++ text.toList ++ more, c)

/-- The name of a tag, which is not empty. -/
def someName? (c : Cursor) : Option (String × Cursor) := do
  let (cs, c) ← name? (c.rest.length + 1) c
  guard !cs.isEmpty
  return (String.ofList cs, c)

/-- A handle: a name between exclamation marks, or one mark in front of a blank. -/
def handle? (c : Cursor) : Option (String × Cursor) := do
  guard (c.head? == some '!')
  if c.ahead? 1 == some ' ' then return ("!", c.next)
  let (name, c) := c.next.span isNameChar
  guard (c.head? == some '!')
  return ("!" ++ String.ofList name ++ "!", c.next)

/-- The parts of a tag. There is a handle with a name if another exclamation mark follows before the next blank. -/
def parts? (c : Cursor) : Option (WrittenTag × Cursor) := do
  if c.ahead? 1 == some '<' then
    let (name, c) ← someName? (Cursor.skip 2 c)
    guard (c.head? == some '>')
    return (⟨none, name⟩, c.next)
  else if endsWord (c.ahead? 1) then return (⟨none, "!"⟩, c.next)
  else
    let named := ((c.rest.drop 1).takeWhile fun ch => !ends (some ch)).contains '!'
    let (handle, c) ← if named then handle? c else some ("!", c.next)
    let (suffix, c) ← someName? c
    return (⟨some handle, suffix⟩, c)

/-- A tag, with nothing directly behind it. -/
def read? (c : Cursor) : Option (WrittenTag × Cursor) := do
  let (tag, c) ← parts? c
  guard (ends c.head?)
  return (tag, c)

end WrittenTag

namespace Directive

/-- A number of a version. -/
def number (c : Cursor) : Reading (Int × Cursor) := do
  let (digits, c) := c.span Char.isDigit
  Reading.check !digits.isEmpty
  return (← Reading.convert (Conversion.integer 10 (String.ofList digits)), c)

/-- The two numbers of a version. -/
def versionAt (c : Cursor) : Reading (Directive × Cursor) := do
  let (major, c) ← number (c.drop (· == ' '))
  Reading.check (c.head? == some '.')
  let (_, c) ← number c.next
  Reading.check (WrittenTag.ends c.head?)
  return (version major, c)

/-- A handle, and what it stands for. -/
def handleAt? (c : Cursor) : Option (Directive × Cursor) := do
  let (mark, c) ← WrittenTag.handle? (c.drop (· == ' '))
  guard (c.head? == some ' ')
  let (name, c) ← WrittenTag.someName? (c.drop (· == ' '))
  guard (WrittenTag.ends c.head?)
  return (handle mark name, c)

/-- A directive, from behind the percent sign, and the position behind its line, on which only a comment may follow. -/
def read (c : Cursor) : Reading (Directive × Cursor) := do
  let (name, c) := c.span isNameChar
  Reading.check (!name.isEmpty && WrittenTag.ends c.head?)
  let (directive, c) ← match String.ofList name with
    | "YAML" => versionAt c
    | "TAG" => Reading.need (handleAt? c)
    | _ => .ok (other, c.drop (!isLineEnd ·))
  let c := c.drop (· == ' ')
  let c := if c.head? == some '#' then c.drop (!isLineEnd ·) else c
  Reading.check (endsLine c.head?)
  return (directive, c.overBreak)

end Directive

end WorkGraph.Yaml
