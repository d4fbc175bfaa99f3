import WorkGraph.Json.Printer
import WorkGraph.Lookup

/-!
# Templates

A template is a text with slots, each a path between double braces. `Template.parts` takes it apart into verbatim
characters and slots (`source_parts`: nothing is lost), and `Template.fill` puts the text of the value of each path in
its place. What is put in is not read again. A template that is one slot stands for the value itself
(`Template.evaluate`), and `Template.fillAll` fills the texts of a whole document, its keys included.
-/

namespace WorkGraph

/-- The text of a value in a template: null leaves nothing, collections are written on one line. -/
def Value.templateText : Value → String
  | .null => ""
  | .bool b => if b then "true" else "false"
  | .num n => n.text
  | .str s => s
  | v => Json.Style.compact.render v

namespace Template

inductive Part where
  | verbatim (c : Char)
  | slot (path : List Char)
  deriving DecidableEq, Repr

def isBrace (c : Char) : Bool :=
  c == '{' || c == '}'

/-- The path of a slot that starts behind its two open braces, and what follows its closing ones. A path is not empty
and holds no braces. -/
def slot? (cs : List Char) : Option (List Char × List Char) :=
  let path := cs.takeWhile (!isBrace ·)
  match path, cs.dropWhile (!isBrace ·) with
  | _ :: _, '}' :: '}' :: rest => some (path, rest)
  | _, _ => none

theorem eq_of_slot? {cs path rest : List Char} (h : slot? cs = some (path, rest)) :
    cs = path ++ '}' :: '}' :: rest := by
  have hcut := List.takeWhile_append_dropWhile (p := (!isBrace ·)) (l := cs)
  unfold slot? at h
  simp only at h
  split at h
  · next _ _ hd =>
    simp only [Option.some.injEq, Prod.mk.injEq] at h
    obtain ⟨rfl, rfl⟩ := h
    rw [← hcut, hd]
    simp_all
  · simp at h

theorem length_of_slot? {cs path rest : List Char} (h : slot? cs = some (path, rest)) : rest.length < cs.length := by
  have := congrArg List.length (eq_of_slot? h)
  simp only [List.length_append, List.length_cons] at this
  omega

/-- The parts of a template, from left to right: a slot wherever one starts, else a verbatim character. -/
def parts (cs : List Char) : List Part :=
  match cs with
  | [] => []
  | '{' :: '{' :: rest =>
    match h : slot? rest with
    | some (path, after) =>
      have : after.length < rest.length := length_of_slot? h
      .slot path :: parts after
    | none => .verbatim '{' :: parts ('{' :: rest)
  | c :: rest => .verbatim c :: parts rest
termination_by cs.length

/-- The characters that a part was read from. -/
def Part.source : Part → List Char
  | verbatim c => [c]
  | slot path => '{' :: '{' :: path ++ ['}', '}']

/-- The parts make up the template. -/
theorem source_parts (cs : List Char) : (parts cs).flatMap Part.source = cs := by
  fun_induction parts cs with
  | case1 => rfl
  | case2 rest path after h _ ih =>
    simp [Part.source, ih, eq_of_slot? h]
  | case3 rest h ih => simp [Part.source, ih]
  | case4 c rest h ih => simp [Part.source, ih]

/-- The text of a part. -/
def Part.fill (s : Scope) : Part → Except Fault String
  | verbatim c => .ok (String.singleton c)
  | slot path => Value.templateText <$> s.resolve path

/-- Whether two open braces stand next to each other. -/
def hasSlotStart : List Char → Bool
  | '{' :: '{' :: _ => true
  | _ :: rest => hasSlotStart rest
  | [] => false

/-- The template with the value of each slot in its place. -/
def fillText (s : Scope) (template : String) : Except Fault String :=
  if hasSlotStart template.toList then String.join <$> (parts template.toList).mapM (Part.fill s)
  else .ok template

/-- The text of a value as a template; what is no text is written as its value. -/
def fill (s : Scope) : Value → Except Fault String
  | .str template => fillText s template
  | v => .ok v.templateText

/-- The path of a text that is one slot with nothing but blanks around it. -/
def single? (cs : List Char) : Option (List Char) :=
  match Text.strip cs with
  | '{' :: '{' :: rest =>
    match slot? rest with
    | some (path, []) => some path
    | _ => none
  | _ => none

/-- The value of an expression: of one slot or of a bare path the value itself, of any other template its text. -/
def evaluate (s : Scope) : Value → Except Fault Value
  | .str expression =>
    match single? expression.toList with
    | some path => s.resolve path
    | none =>
      if hasSlotStart expression.toList then .str <$> fillText s expression
      else s.resolve expression.toList
  | v => .ok v

mutual

/-- A document with every text filled, keys included. Keys that become equal are one, with the later value. -/
def fillAll (s : Scope) : Value → Except Fault Value
  | .str template => .str <$> fillText s template
  | .list items => .list <$> fillItems s items
  | .map entries => .map <$> fillEntries s entries []
  | v => .ok v

def fillItems (s : Scope) : List Value → Except Fault (List Value)
  | [] => .ok []
  | v :: rest => do
    let v ← fillAll s v
    return v :: (← fillItems s rest)

def fillEntries (s : Scope) : List (String × Value) → (filled : Entries Value) → Except Fault (Entries Value)
  | [], filled => .ok filled
  | (key, v) :: rest, filled => do
    let key ← fillText s key
    let v ← fillAll s v
    fillEntries s rest (filled.set key v)

end

end Template

end WorkGraph
