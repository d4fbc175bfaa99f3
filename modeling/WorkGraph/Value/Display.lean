import WorkGraph.Text.Quoted
import WorkGraph.Value.Basic

/-!
# Values as text

`Value.display` is the text of a value inside a message: a text stands for itself, a number is written as briefly as it
reads back, and a collection lists its members between brackets, texts in quotes.
-/

namespace WorkGraph.Value

mutual

/-- The text of a value as a member of a collection. -/
def inspect : Value → String
  | null => "None"
  | bool b => if b then "True" else "False"
  | num n => n.text
  | str s => Text.quoted s
  | list items => "[" ++ String.intercalate ", " (inspectItems items) ++ "]"
  | map entries => "\x7b" ++ String.intercalate ", " (inspectEntries entries) ++ "\x7d"

def inspectItems : List Value → List String
  | [] => []
  | v :: rest => inspect v :: inspectItems rest

def inspectEntries : List (String × Value) → List String
  | [] => []
  | (k, v) :: rest => (Text.quoted k ++ ": " ++ inspect v) :: inspectEntries rest

end

/-- The text of a value on its own. -/
def display : Value → String
  | str s => s
  | v => v.inspect

@[simp] theorem display_str (s : String) : display (str s) = s := rfl

end WorkGraph.Value
