import WorkGraph.Text.Ranges

/-!
# Positions in a text of settings

A `Cursor` is what is left of a text, with the line and column reached. Several characters end a line; `Cursor.next`
counts them, and the pair of carriage return and line feed once (`next_pair`).
-/

namespace WorkGraph.Yaml

/-- Whether a character ends a line. -/
def isLineEnd (c : Char) : Bool :=
  let n := c.toNat
  n == 10 || n == 13 || n == 0x85 || n == 0x2028 || n == 0x2029

/-- Whether a line ends here; the end of the text counts. -/
def endsLine : Option Char → Bool
  | none => true
  | some c => isLineEnd c

/-- Whether a word ends here. -/
def endsWord : Option Char → Bool
  | none => true
  | some c => c == ' ' || c == '\t' || isLineEnd c

/-- The ranges of the characters that may occur in a text of settings. -/
def printable : List (Nat × Nat) :=
  [(0x9, 0xA), (0xD, 0xD), (0x20, 0x7E), (0x85, 0x85), (0xA0, 0xD7FF), (0xE000, 0xFFFD), (0x10000, 0x10FFFF)]

def isPrintable (c : Char) : Bool :=
  Text.inRanges printable c.toNat

structure Cursor where
  rest : List Char
  line : Nat
  column : Nat
  /-- The number of characters before. -/
  index : Nat

namespace Cursor

def start (cs : List Char) : Cursor := ⟨cs, 0, 0, 0⟩

/-- The next character. -/
def head? (c : Cursor) : Option Char :=
  c.rest.head?

/-- The character after so many others. -/
def ahead? (c : Cursor) (n : Nat) : Option Char :=
  c.rest[n]?

/-- Whether the text goes on like this. -/
def startsWith (c : Cursor) (s : String) : Bool :=
  s.toList.isPrefixOf c.rest

/-- One character on. -/
def next (c : Cursor) : Cursor :=
  match c.rest with
  | [] => c
  | first :: rest =>
    if isLineEnd first && !(first == '\r' && rest.head? == some '\n') then ⟨rest, c.line + 1, 0, c.index + 1⟩
    else ⟨rest, c.line, if first.toNat == 0xFEFF then c.column else c.column + 1, c.index + 1⟩

/-- So many characters on. -/
def skip : Nat → Cursor → Cursor
  | 0, c => c
  | n + 1, c => skip n c.next

/-- The characters up to the first that does not pass, and the position behind them. -/
def span (c : Cursor) (pass : Char → Bool) : List Char × Cursor :=
  let cs := c.rest.takeWhile pass
  (cs, skip cs.length c)

/-- The position behind the characters that pass. -/
def drop (c : Cursor) (pass : Char → Bool) : Cursor :=
  (c.span pass).2

/-- The end of a line as it counts in a text, and the position behind it. -/
def lineBreak? (c : Cursor) : Option (Char × Cursor) :=
  match c.rest with
  | '\r' :: '\n' :: _ => some ('\n', c.next.next)
  | first :: _ =>
    if !isLineEnd first then none
    else some (if first.toNat < 0x2000 then '\n' else first, c.next)
  | [] => none

/-- Behind the end of a line, if there is one here. -/
def overBreak (c : Cursor) : Cursor :=
  c.lineBreak?.elim c (·.2)

/-- Whether a line of three marks stands here, with nothing else directly behind. -/
def isMark (c : Cursor) (mark : String) : Bool :=
  c.startsWith mark && endsWord (c.ahead? 3)

/-- Whether a document starts or ends here. -/
def atMark (c : Cursor) : Bool :=
  c.isMark "---" || c.isMark "..."

/-- A pair of carriage return and line feed is one end of a line. -/
theorem next_pair (rest : List Char) (line column index : Nat) :
    (next (next ⟨'\r' :: '\n' :: rest, line, column, index⟩)).line = line + 1 := by
  simp [next, isLineEnd]

end Cursor

end WorkGraph.Yaml
