import WorkGraph.Yaml.Cursor
import WorkGraph.Yaml.Failure

/-!
# Texts within settings

The four ways to write a text: plain, between single or double quotes, and as a block of indented lines. Line ends
within a text are folded: one counts as a blank, each further one as itself.
-/

namespace WorkGraph.Yaml

/-- A text as it was read, and the position behind it. -/
abbrev ReadText := Reading (List Char × Cursor)

/-- A text with characters in front of it. -/
def ReadText.after (cs : List Char) (r : ReadText) : ReadText :=
  r.map fun (more, c) => (cs ++ more, c)

/-- Line ends folded: the first one gives way to a blank, unless it is not the usual one or others follow. -/
def folded (first : Char) (breaks : List Char) : List Char :=
  (if first != '\n' then [first] else if breaks.isEmpty then [' '] else []) ++ breaks

/-- The value of a hexadecimal digit. -/
def hexValue? (c : Char) : Option Nat :=
  if c.isDigit then some (c.toNat - 48)
  else if 'a' ≤ c ∧ c ≤ 'f' then some (c.toNat - 87)
  else if 'A' ≤ c ∧ c ≤ 'F' then some (c.toNat - 55)
  else none

/-- The code that hexadecimal digits at the start write, `width` of them. -/
def code? (width : Nat) (cs : List Char) : Option Nat :=
  let digits := cs.take width
  if digits.length != width then none else digits.foldlM (fun n c => (hexValue? c).map (16 * n + ·)) 0

/-! ## Between quotes -/

namespace Quoted

/-- Blank lines within quotes. A document may not start or end among them. -/
def breaks : (fuel : Nat) → Cursor → ReadText
  | 0, _ => .malformed
  | fuel + 1, c =>
    if c.atMark then .malformed
    else
      let c := c.drop fun ch => ch == ' ' || ch == '\t'
      match c.lineBreak? with
      | none => .ok ([], c)
      | some (ch, c) => (breaks fuel c).after [ch]

/-- Blanks and line ends within quotes. -/
def gap (fuel : Nat) (c : Cursor) : ReadText :=
  let (blanks, c) := c.span fun ch => ch == ' ' || ch == '\t'
  match c.head?, c.lineBreak? with
  | none, _ => .malformed
  | _, some (first, c) => (breaks fuel c).map fun (more, c) => (folded first more, c)
  | _, none => .ok (blanks, c)

/-- What a character behind a backslash stands for. -/
def escape? (c : Char) : Option Nat :=
  match c with
  | '0' => some 0
  | 'a' => some 7
  | 'b' => some 8
  | 't' => some 9
  | '\t' => some 9
  | 'n' => some 10
  | 'v' => some 11
  | 'f' => some 12
  | 'r' => some 13
  | 'e' => some 27
  | ' ' => some 32
  | '"' => some 34
  | '\\' => some 92
  | '/' => some 47
  | 'N' => some 0x85
  | '_' => some 0xA0
  | 'L' => some 0x2028
  | 'P' => some 0x2029
  | _ => none

/-- The number of hexadecimal digits behind a letter that announces a code. -/
def codeWidth? (c : Char) : Option Nat :=
  match c with
  | 'x' => some 2
  | 'u' => some 4
  | 'U' => some 8
  | _ => none

/-- The code that is announced at the start of a text, and its length. -/
def announced? (cs : List Char) : Option (Nat × Nat) := do
  let width ← codeWidth? (← cs.head?)
  return (← code? width (cs.drop 1), width + 1)

/-- The second of two codes that write one character together, and its length, from its backslash on. -/
def second? (cs : List Char) : Option (Nat × Nat) := do
  guard (cs.head? == some '\\')
  let (code, length) ← announced? (cs.drop 1)
  guard (0xDC00 ≤ code && code ≤ 0xDFFF)
  return (code, length + 1)

/-- The character of a code, and the position behind it. Codes beyond the last character are refused; half of a pair
alone gives the replacement character. -/
def coded (code : Nat) (c : Cursor) : ReadText :=
  if twoPow 31 ≤ code then .error (.fault (.overflow "code too large"))
  else if 0x110000 ≤ code then .error (.fault (.unconvertible (.stated "code beyond the last character")))
  else if 0xD800 ≤ code ∧ code ≤ 0xDFFF then
    match if code < 0xDC00 then second? c.rest else none with
    | some (second, length) =>
      .ok ([Char.ofNat (0x10000 + (code - 0xD800) * 1024 + (second - 0xDC00))], Cursor.skip length c)
    | none => .ok ([Char.ofNat 0xFFFD], c)
  else .ok ([Char.ofNat code], c)

/-- What stands behind a backslash: a code, a character, or the end of a line that does not count. -/
def escaped (fuel : Nat) (c : Cursor) : ReadText := do
  let ch ← Reading.need c.head?
  if let some n := escape? ch then return ([Char.ofNat n], c.next)
  if (codeWidth? ch).isSome then
    let (code, length) ← Reading.need (announced? c.rest)
    return ← coded code (Cursor.skip length c)
  let (_, c) ← Reading.need c.lineBreak?
  breaks fuel c

/-- Whether a character between quotes stands for itself, next to any other. -/
def isOrdinary (c : Char) : Bool :=
  c != '"' && c != '\'' && c != '\\' && !endsWord (some c)

/-- The characters between double quotes, from behind the first. -/
def double : (fuel : Nat) → Cursor → ReadText
  | 0, _ => .malformed
  | fuel + 1, c =>
    let (cs, c) := c.span isOrdinary
    match c.head? with
    | none => .malformed
    | some '"' => .ok (cs, c.next)
    | some '\'' => (double fuel c.next).after (cs ++ ['\''])
    | some '\\' => do
      let (more, c) ← escaped fuel c.next
      (double fuel c).after (cs ++ more)
    | some _ => do
      let (more, c) ← gap fuel c
      (double fuel c).after (cs ++ more)

/-- The characters between single quotes, from behind the first. Two quotes stand for one. -/
def single : (fuel : Nat) → Cursor → ReadText
  | 0, _ => .malformed
  | fuel + 1, c =>
    let (cs, c) := c.span isOrdinary
    match c.head? with
    | none => .malformed
    | some '\'' =>
      if c.ahead? 1 == some '\'' then (single fuel (Cursor.skip 2 c)).after (cs ++ ['\'']) else .ok (cs, c.next)
    | some ch =>
      if endsWord (some ch) then do
        let (more, c) ← gap fuel c
        (single fuel c).after (cs ++ more)
      else (single fuel c.next).after (cs ++ [ch])

end Quoted

/-! ## Plain texts -/

namespace Plain

/-- Whether a character ends a plain text within brackets. -/
def isFlowMark (c : Char) : Bool :=
  c == ',' || c == '?' || c == '[' || c == ']' || c == '{' || c == '}'

/-- Whether a colon before this character ends a plain text. -/
def endsKey (inFlow : Bool) (behind : Option Char) : Bool :=
  endsWord behind || (inFlow && behind.any fun c => c == ',' || c == '[' || c == ']' || c == '{' || c == '}')

/-- The characters of a plain text up to the next blank. -/
def word (inFlow : Bool) : List Char → List Char
  | [] => []
  | c :: rest =>
    if endsWord (some c) || (c == ':' && endsKey inFlow rest.head?) || (inFlow && isFlowMark c) then []
    else c :: word inFlow rest

/-- Blank lines and indentation between the lines of a plain text; none where a document starts or ends. -/
def breaks : (fuel : Nat) → Cursor → Option (List Char) × Cursor
  | 0, c => (some [], c)
  | fuel + 1, c =>
    if c.head? == some ' ' then breaks fuel c.next
    else match c.lineBreak? with
      | none => (some [], c)
      | some (ch, c) =>
        if c.atMark then (none, c)
        else
          let (more, c) := breaks fuel c
          (more.map (ch :: ·), c)

/-- What stands between two words, whether a line ended there, and the position behind it; no text where the plain text
ends. -/
def gap (fuel : Nat) (c : Cursor) : List Char × Bool × Cursor :=
  let (blanks, c) := c.span (· == ' ')
  match c.lineBreak? with
  | none => (blanks, false, c)
  | some (first, c) =>
    if c.atMark then ([], true, c)
    else
      let (more, c) := breaks fuel c
      ((more.map (folded first)).getD [], true, c)

/-- The rest of a plain text behind a gap, and whether its last gap had the end of a line. -/
def read (inFlow : Bool) (indent : Int) : (fuel : Nat) → (before : List Char) → (crossed : Bool) → Cursor →
    List Char × Bool × Cursor
  | 0, _, crossed, c => ([], crossed, c)
  | fuel + 1, before, crossed, c =>
    let cs := if c.head? == some '#' then [] else word inFlow c.rest
    if cs.isEmpty then ([], crossed, c)
    else
      let (between, crossed, c) := gap fuel (Cursor.skip cs.length c)
      if between.isEmpty || c.head? == some '#' || (!inFlow && decide ((c.column : Int) < indent)) then
        (before ++ cs, crossed, c)
      else
        let (more, crossed, c) := read inFlow indent fuel between crossed c
        (before ++ cs ++ more, crossed, c)

end Plain

/-! ## Blocks -/

namespace Block

/-- Which line ends at the end of a block count. -/
inductive Ending where
  | one
  | nothing
  | all
  deriving DecidableEq, Repr

/-- The head of a block: which line ends at its end count, and by how much it is indented, if that is said. -/
structure Head where
  ending : Ending
  indent : Option Nat

def ending? (c : Option Char) : Option Ending :=
  if c == some '+' then some .all else if c == some '-' then some .nothing else none

/-- The digit of an indentation, if there is one, and the position behind it. It is not zero. -/
def digit? (c : Cursor) : Option (Option Nat × Cursor) :=
  match c.head? with
  | some ch => if ch == '0' then none else some (if ch.isDigit then (some (ch.toNat - 48), c.next) else (none, c))
  | none => some (none, c)

/-- The head of a block, in either order. -/
def head (c : Cursor) : Option (Head × Cursor) := do
  match ending? c.head? with
  | some ending =>
    let (indent, c) ← digit? c.next
    return (⟨ending, indent⟩, c)
  | none =>
    let (indent, c) ← digit? c
    match ending? c.head? with
    | some ending => return (⟨ending, indent⟩, c.next)
    | none => return (⟨.one, indent⟩, c)

/-- Behind the line of the head, on which only a comment may follow, after a blank. -/
def behindHead (c : Cursor) : Option Cursor := do
  guard (endsLine c.head? || c.head? == some ' ')
  let spaced := c.drop (· == ' ')
  let c := if spaced.head? == some '#' then spaced.drop (!isLineEnd ·) else spaced
  guard (endsLine c.head?)
  return c.overBreak

/-- Blank lines before the first line of a block, and the widest indentation among them. -/
def leading : (fuel : Nat) → (widest : Nat) → Cursor → List Char × Nat × Cursor
  | 0, widest, c => ([], widest, c)
  | fuel + 1, widest, c =>
    if c.head? == some ' ' then leading fuel (max widest c.next.column) c.next
    else match c.lineBreak? with
      | none => ([], widest, c)
      | some (ch, c) =>
        let (more, widest, c) := leading fuel widest c
        (ch :: more, widest, c)

/-- Over the indentation of a line. -/
def overIndent (indent : Nat) : (fuel : Nat) → Cursor → Cursor
  | 0, c => c
  | fuel + 1, c => if c.column < indent && c.head? == some ' ' then overIndent indent fuel c.next else c

/-- Blank lines between the lines of a block. -/
def breaks (indent : Nat) : (fuel : Nat) → Cursor → List Char × Cursor
  | 0, c => ([], c)
  | fuel + 1, c =>
    let c := overIndent indent indent c
    match c.lineBreak? with
    | none => ([], c)
    | some (ch, c) =>
      let (more, c) := breaks indent fuel c
      (ch :: more, c)

def isSpaced (c : Option Char) : Bool :=
  c == some ' ' || c == some '\t'

/-- What counts at the end of a block. -/
def tail (ending : Ending) (last : Option Char) (blank : List Char) : List Char :=
  match ending with
  | .nothing => []
  | .one => last.toList
  | .all => last.toList ++ blank

/-- The lines of a block from the first one on, after blank lines. -/
def lines (fold : Bool) (ending : Ending) (indent : Nat) : (fuel : Nat) → (blank : List Char) → Cursor →
    List Char × Cursor
  | 0, blank, c => (tail ending none blank, c)
  | fuel + 1, blank, c =>
    if c.column != indent || c.head?.isNone then (tail ending none blank, c)
    else
      let text := !isSpaced c.head?
      let (cs, c) := c.span (!isLineEnd ·)
      let last := c.lineBreak?.map (·.1)
      let (more, c) := breaks indent fuel c.overBreak
      if c.column != indent || c.head?.isNone then (blank ++ cs ++ tail ending last more, c)
      else
        let join := if fold && last == some '\n' && text && !isSpaced c.head? then
            (if more.isEmpty then [' '] else [])
          else last.toList
        let (others, c) := lines fold ending indent fuel more c
        (blank ++ cs ++ join ++ others, c)

/-- A block, from behind the character that announces it. `outer` is the indentation around it. -/
def read? (fold : Bool) (outer : Int) (c : Cursor) : Option (List Char × Cursor) := do
  let fuel := c.rest.length + 1
  let (head, c) ← head c
  let c ← behindHead c
  let least := (max (outer + 1) 1).toNat
  match head.indent with
  | some extra =>
    let indent := least + extra - 1
    let (blank, c) := breaks indent fuel c
    return lines fold head.ending indent fuel blank c
  | none =>
    let (blank, widest, c) := leading fuel 0 c
    return lines fold head.ending (max least widest) fuel blank c

end Block

end WorkGraph.Yaml
