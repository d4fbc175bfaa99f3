/-!
# Pieces between separators

`pieces` cuts a text at each occurrence of a separator; joined again they are the text (`join_pieces`).
-/

namespace WorkGraph.Text

/-- The pieces between separators; one more than there are separators. -/
def pieces (separator : Char) : List Char → List (List Char)
  | [] => [[]]
  | c :: cs =>
    if c == separator then [] :: pieces separator cs
    else match pieces separator cs with
      | [] => [[c]]
      | piece :: rest => (c :: piece) :: rest

theorem pieces_ne_nil (separator : Char) (cs : List Char) : pieces separator cs ≠ [] := by
  cases cs with
  | nil => simp [pieces]
  | cons c cs => unfold pieces; split <;> (try split) <;> simp

/-- The pieces with the separator between them make up the text. -/
theorem join_pieces (separator : Char) (cs : List Char) : List.intercalate [separator] (pieces separator cs) = cs := by
  induction cs with
  | nil => rfl
  | cons c cs ih =>
    unfold pieces
    have hne := pieces_ne_nil separator cs
    split
    · next h =>
      cases hp : pieces separator cs with
      | nil => exact absurd hp hne
      | cons piece rest =>
        rw [hp] at ih
        have hc : c = separator := by simpa using h
        simp [List.intercalate, List.intersperse] at ih ⊢
        simp [ih, hc]
    · cases hp : pieces separator cs with
      | nil => exact absurd hp hne
      | cons piece rest =>
        rw [hp] at ih
        cases rest with
        | nil => simpa [List.intercalate, List.intersperse] using ih
        | cons p ps => simpa [List.intercalate, List.intersperse] using ih

end WorkGraph.Text
