import WorkGraph.Text.Quoted
import WorkGraph.Value.Display

/-!
# Printing values as interchange text

`Json.Style` says how: with or without blanks after the separators, on one line or indented, and whether characters
beyond ASCII stay or are written as UTF-16 escapes. Keys keep their order.
-/

namespace WorkGraph.Json

structure Style where
  /-- Between two members. -/
  comma : String
  /-- Between a key and its value. -/
  colon : String
  /-- The number of blanks of one level, where members stand on lines of their own. -/
  indent : Option Nat
  /-- Whether characters beyond ASCII are written as escapes. -/
  ascii : Bool

/-- No blanks at all. -/
def Style.compact : Style := ⟨",", ":", none, false⟩

/-- One line with a blank after each separator, ASCII only. -/
def Style.line : Style := ⟨", ", ": ", none, true⟩

/-- Four blanks a level. -/
def Style.indented : Style := ⟨",", ": ", some 4, false⟩

/-- The escape of one UTF-16 unit. -/
def unitEscape (n : Nat) : List Char :=
  '\\' :: 'u' :: Text.hex 4 n

/-- The escape of a character: one unit, or two for those beyond the basic plane. -/
def escape (c : Char) : List Char :=
  let n := c.toNat
  if n < 0x10000 then unitEscape n
  else unitEscape (0xD800 + (n - 0x10000) / 0x400) ++ unitEscape (0xDC00 + (n - 0x10000) % 0x400)

/-- One character between the quotes. -/
def Style.char (style : Style) (c : Char) : List Char :=
  if c == '"' || c == '\\' then ['\\', c]
  else if c == '\n' then ['\\', 'n']
  else if c == '\r' then ['\\', 'r']
  else if c == '\t' then ['\\', 't']
  else if c.toNat == 8 then ['\\', 'b']
  else if c.toNat == 12 then ['\\', 'f']
  else if c.toNat < 32 then escape c
  else if style.ascii && decide (127 ≤ c.toNat) then escape c
  else [c]

/-- A text between quotes. -/
def Style.text (style : Style) (s : String) : String :=
  String.ofList ('"' :: s.toList.flatMap style.char ++ ['"'])

/-- A number: the shortest text that reads back. -/
def number : Number → String
  | .int n => toString n
  | .float x => interchangeFloat.render x

/-- The break before a member at a level; none on one line. -/
def Style.break (style : Style) (level : Nat) : String :=
  style.indent.elim "" fun width => "\n" ++ String.ofList (List.replicate (width * level) ' ')

/-- Members between brackets at a level. -/
def Style.brackets (style : Style) (level : Nat) (left right : String) : List String → String
  | [] => left ++ right
  | members =>
    left ++ style.break (level + 1) ++ String.intercalate (style.comma ++ style.break (level + 1)) members ++
      style.break level ++ right

mutual

/-- A value at a level of nesting. -/
def Style.print (style : Style) (level : Nat) : Value → String
  | .null => "null"
  | .bool b => if b then "true" else "false"
  | .num n => number n
  | .str s => style.text s
  | .list items => style.brackets level "[" "]" (style.printItems (level + 1) items)
  | .map entries => style.brackets level "\x7b" "\x7d" (style.printEntries (level + 1) entries)

def Style.printItems (style : Style) (level : Nat) : List Value → List String
  | [] => []
  | v :: rest => style.print level v :: style.printItems level rest

def Style.printEntries (style : Style) (level : Nat) : List (String × Value) → List String
  | [] => []
  | (k, v) :: rest => (style.text k ++ style.colon ++ style.print level v) :: style.printEntries level rest

end

/-- The text of a value. -/
def Style.render (style : Style) (v : Value) : String :=
  style.print 0 v

end WorkGraph.Json
