import WorkGraph.Fault
import WorkGraph.Record.Checked
import WorkGraph.Text.Blank
import WorkGraph.Text.Digit
import WorkGraph.Text.Pieces

/-!
# Paths into documents

A path such as `items[0].name` is a list of tokens, keys and indexes. `Path.split` reads it, `Path.render` writes it,
and `Path.walk` follows it through a document, to null where nothing is there. `step_key_of_not_map` and `walk_null` say
that a walk which has left the document stays outside.
-/

namespace WorkGraph.Path

inductive Token where
  | key (name : String)
  | index (i : Int)
  deriving DecidableEq, Repr

/-! ## Reading a path -/

/-- The digit runs of a sequence of bracketed indexes, with at most a line break behind it; none for anything else.
`inside` holds the digits since the last open bracket. -/
def brackets : (inside : Option (List Char)) → List Char → Option (List (List Char))
  | none, [] => some []
  | none, c :: cs =>
    if c == '[' then brackets (some []) cs
    else if c == '\n' && cs.isEmpty then some []
    else none
  | some _, [] => none
  | some digits, c :: cs =>
    if Text.isDigit c then brackets (some (digits ++ [c])) cs
    else if c == ']' && !digits.isEmpty then (brackets none cs).map (digits :: ·)
    else none

def isBracket (c : Char) : Bool :=
  c == '[' || c == ']'

/-- The index that a run of digits writes, up to the limit of digits. -/
def index (digits : List Char) : Except Fault Token :=
  if Checked.digitLimit < digits.length then .error (.unconvertible (.digits digits.length))
  else .ok (.index (Text.readDigits digits))

/-- The tokens of a piece: a key and indexes, or the whole piece as a key where the brackets do not fit. An empty key is
no token. -/
def pieceTokens (piece : List Char) : Except Fault (List Token) :=
  let name := piece.takeWhile (!isBracket ·)
  match brackets none (piece.drop name.length) with
  | none => .ok [.key (String.ofList piece)]
  | some runs => do
    let indexes ← runs.mapM index
    return (if name.isEmpty then [] else [.key (String.ofList name)]) ++ indexes

/-- The tokens of a path. Blanks around the path do not count. -/
def splitChars (cs : List Char) : Except Fault (List Token) := do
  return (← (Text.pieces '.' (Text.strip cs)).mapM pieceTokens).flatten

def split (path : String) : Except Fault (List Token) :=
  splitChars path.toList

/-! ## Writing a path -/

/-- A token as it continues a path: an index in brackets, a key behind a point. -/
def Token.text : Token → String
  | .key name => "." ++ name
  | .index i => "[" ++ toString i ++ "]"

/-- The path that tokens write; the first key stands without a point. -/
def render : List Token → String
  | [] => ""
  | .key name :: rest => name ++ String.join (rest.map Token.text)
  | tokens => String.join (tokens.map Token.text)

/-! ## Following a path -/

/-- The member of a list at an index, which counts from the end if it is negative; null past the end. -/
def item (items : List Value) (i : Int) : Except Fault Value :=
  if i < 0 then
    if i + items.length < 0 then .error .outOfBounds
    else .ok (items[(i + items.length).toNat]?.getD .null)
  else .ok (items[i.toNat]?.getD .null)

/-- One step: into a map by a key, or by an index as its text; into a list by an index. Elsewhere there is nothing. -/
def step (current : Value) (token : Token) : Except Fault Value :=
  match current, token with
  | .map entries, .key name => .ok (Value.field entries name)
  | .map entries, .index i => .ok (Value.field entries (toString i))
  | .list items, .index i => item items i
  | _, _ => .ok .null

/-- The value at the end of a list of tokens. -/
def walk (value : Value) (tokens : List Token) : Except Fault Value :=
  tokens.foldlM step value

/-- The value at the end of a path. -/
def get (value : Value) (path : String) : Except Fault Value := do
  walk value (← split path)

@[simp] theorem walk_nil (value : Value) : walk value [] = .ok value := rfl

@[simp] theorem walk_cons (value : Value) (token : Token) (rest : List Token) :
    walk value (token :: rest) = step value token >>= (walk · rest) := rfl

theorem step_null (token : Token) : step .null token = .ok .null := by
  cases token <;> rfl

/-- Nothing is below null. -/
theorem walk_null (tokens : List Token) : walk .null tokens = .ok .null := by
  induction tokens with
  | nil => rfl
  | cons token rest ih => rw [walk_cons, step_null]; exact ih

/-- Only maps have keys. -/
theorem step_key_of_not_map {value : Value} (h : value.entries? = none) (name : String) :
    step value (.key name) = .ok .null := by
  cases value <;> first | rfl | simp [Value.entries?] at h

end WorkGraph.Path
