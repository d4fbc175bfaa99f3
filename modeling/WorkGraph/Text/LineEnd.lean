/-!
# Ends of lines

A line may end in a line feed, a carriage return, or both. `lineFed` writes all of them as line feeds; a text without
carriage returns stays as it is (`lineFeeds_eq_self`).
-/

namespace WorkGraph.Text

/-- The characters with each end of a line written as a line feed. -/
def lineFeeds : List Char → List Char
  | [] => []
  | '\r' :: '\n' :: rest => '\n' :: lineFeeds rest
  | c :: rest => (if c == '\r' then '\n' else c) :: lineFeeds rest

/-- The text with each end of a line written as a line feed. -/
def lineFed (s : String) : String :=
  String.ofList (lineFeeds s.toList)

/-- Without carriage returns, all ends of lines are line feeds already. -/
theorem lineFeeds_eq_self {cs : List Char} (h : '\r' ∉ cs) : lineFeeds cs = cs := by
  fun_induction lineFeeds cs with
  | case1 => rfl
  | case2 => simp at h
  | case3 c rest _ ih =>
    obtain ⟨hc, hrest⟩ := not_or.1 (mt List.mem_cons.2 h)
    simp [ih hrest, Ne.symm hc]

end WorkGraph.Text
