import WorkGraph.Fault

/-!
# The members of a value

What there is to go through in a value: the members of a list, the keys of a map, the characters of a text.
-/

namespace WorkGraph.Value

/-- The members one by one. -/
def members : Value → Except Fault (List Value)
  | list items => .ok items
  | map entries => .ok (entries.map fun entry => str entry.1)
  | str s => .ok (s.toList.map fun c => str (String.singleton c))
  | v => .error (.misuse (.asSequence v.kindName))

@[simp] theorem members_list (items : List Value) : members (list items) = .ok items := rfl

end WorkGraph.Value
