/-!
# Blank characters

`isBlank` is the set of characters that separate words: the ASCII blanks with the four information separators, next
line, and the space, line and paragraph separators of Unicode. `strip` removes them at both ends (`strip_blank_cons`,
`strip_eq_self`).
-/

namespace WorkGraph.Text

/-- Whether a character only separates others. -/
def isBlank (c : Char) : Bool :=
  let n := c.toNat
  (9 ≤ n && n ≤ 13) || (28 ≤ n && n ≤ 32) || n == 0x85 || n == 0xA0 || n == 0x1680 || (0x2000 ≤ n && n ≤ 0x200A) ||
    n == 0x2028 || n == 0x2029 || n == 0x202F || n == 0x205F || n == 0x3000

/-- The four information separators, which are blank but which no numeral may stand beside. -/
def isSeparator (c : Char) : Bool :=
  28 ≤ c.toNat && c.toNat ≤ 31

/-- The characters without those at the end that are blank. -/
def stripEnd (cs : List Char) : List Char :=
  (cs.reverse.dropWhile isBlank).reverse

/-- The characters without the blank ones at both ends. -/
def strip (cs : List Char) : List Char :=
  stripEnd (cs.dropWhile isBlank)

/-- The text without the blanks at both ends. -/
def trim (s : String) : String :=
  String.ofList (strip s.toList)

/-- Whether a text is empty but for blanks. -/
def isBlankText (s : String) : Bool :=
  s.toList.all isBlank

theorem strip_nil : strip [] = [] := rfl

/-- A blank in front does not matter. -/
theorem strip_blank_cons {c : Char} (cs : List Char) (h : isBlank c = true) : strip (c :: cs) = strip cs := by
  simp [strip, h]

/-- What starts and ends with other characters stays as it is. -/
theorem strip_eq_self {c d : Char} {cs ds : List Char} (hc : isBlank c = false) (hd : isBlank d = false)
    (h : c :: cs = ds ++ [d]) : strip (c :: cs) = c :: cs := by
  have : (c :: cs).dropWhile isBlank = c :: cs := by simp [hc]
  rw [strip, this, h]
  simp [stripEnd, hd]

end WorkGraph.Text
