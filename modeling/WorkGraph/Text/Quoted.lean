import WorkGraph.Text.Printable

/-!
# Quoted text

A text inside a displayed collection stands between quotes: single ones, or double ones when the text holds a single
quote and no double one. The backslash, the quote in use and the characters without a visible form are written as
escapes, the latter by their code point in two, four or eight hexadecimal digits.
-/

namespace WorkGraph.Text

/-- A hexadecimal digit, in lower case. -/
def hexDigit (d : Nat) : Char :=
  if d < 10 then Char.ofNat (48 + d) else Char.ofNat (87 + d)

/-- The last `width` hexadecimal digits of a number. -/
def hex : (width : Nat) → Nat → List Char
  | 0, _ => []
  | width + 1, n => hex width (n / 16) ++ [hexDigit (n % 16)]

theorem length_hex (width n : Nat) : (hex width n).length = width := by
  induction width generalizing n with
  | zero => rfl
  | succ w ih => simp [hex, ih]

/-- The hexadecimal digits of a number, as many as it has but at least `width`. -/
def hexAtLeast (width n : Nat) : List Char :=
  hex (max width (n.log2 / 4 + 1)) n

/-- The escape of a character by its code point. -/
def codeEscape (c : Char) : List Char :=
  let n := c.toNat
  if n < 0x100 then '\\' :: 'x' :: hex 2 n
  else if n < 0x10000 then '\\' :: 'u' :: hex 4 n
  else '\\' :: 'U' :: hex 8 n

/-- One character of a text quoted with `quote`. -/
def quoteChar (quote c : Char) : List Char :=
  if c == quote || c == '\\' then ['\\', c]
  else if c == '\n' then ['\\', 'n']
  else if c == '\r' then ['\\', 'r']
  else if c == '\t' then ['\\', 't']
  else if isShown c then [c]
  else codeEscape c

/-- The quote that needs the fewest escapes; the single one when both or neither occur. -/
def quoteFor (cs : List Char) : Char :=
  if cs.contains '\'' && !cs.contains '"' then '"' else '\''

/-- The text between quotes, with escapes. -/
def quoted (s : String) : String :=
  let cs := s.toList
  let quote := quoteFor cs
  String.ofList (quote :: cs.flatMap (quoteChar quote) ++ [quote])

/-- Characters that are shown and need no escape stand for themselves. -/
theorem quoteChar_self {quote c : Char} (hq : c ≠ quote) (hb : c ≠ '\\') (hs : isShown c = true)
    (hn : c ≠ '\n') (hr : c ≠ '\r') (ht : c ≠ '\t') : quoteChar quote c = [c] := by
  simp [quoteChar, hq, hb, hs, hn, hr, ht]

end WorkGraph.Text
