/-!
# Removing parts of a text

`without` takes every occurrence of a part out of a text, from left to right; what is left is not searched again. A text
without the first character of the part stays as it is (`without_of_not_mem`).
-/

namespace WorkGraph.Text

/-- The text without the occurrences of a part, after so many characters that belong to the last one. -/
def withoutFrom (part : List Char) : (skip : Nat) → List Char → List Char
  | _, [] => []
  | skip + 1, _ :: rest => withoutFrom part skip rest
  | 0, c :: rest =>
    if part.isPrefixOf (c :: rest) then withoutFrom part (part.length - 1) rest
    else c :: withoutFrom part 0 rest

/-- The text without the occurrences of a part. -/
def without (part cs : List Char) : List Char :=
  withoutFrom part 0 cs

theorem without_of_not_mem {first : Char} {part cs : List Char} (h : first ∉ cs) :
    without (first :: part) cs = cs := by
  unfold without
  induction cs with
  | nil => rfl
  | cons c rest ih =>
    rw [List.mem_cons, not_or] at h
    rw [withoutFrom, if_neg, ih h.2]
    simp [List.isPrefixOf, h.1]

end WorkGraph.Text
