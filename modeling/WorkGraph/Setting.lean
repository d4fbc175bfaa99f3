import WorkGraph.Calendar
import WorkGraph.Value.Conversion

/-!
# Settings

A `Setting` is more than a document can hold: besides texts and numbers there are bytes, dates and moments, a key of a
map may be any of these, and there are pairs and sets. `Setting.ofValue` takes any document as a setting, and
`Setting.toValue?` goes back where there is nothing else in it. `Setting.shown` is the document closest to a setting.
-/

namespace WorkGraph

/-- A setting without parts. -/
inductive Atom where
  | null
  | bool (b : Bool)
  | num (n : Number)
  | str (s : String)
  | bytes (data : List Nat)
  | date (d : Date)
  | moment (m : Moment)

namespace Atom

def int (n : Int) : Atom := num (.int n)

/-- The document that an atom is, if it is one. -/
def toValue? : Atom → Option Value
  | null => some .null
  | bool b => some (.bool b)
  | num n => some (.num n)
  | str s => some (.str s)
  | bytes _ | date _ | moment _ => none

/-- Null, false, zero and what is empty count as false, all else as true. -/
def truthy : Atom → Bool
  | bytes data => !data.isEmpty
  | a => a.toValue?.all Value.truthy

/-- Equality by content, under which truth values count as one and zero. What is no number is the same as itself. -/
def same : Atom → Atom → Bool
  | num (.float .nan), num (.float .nan) => true
  | bytes x, bytes y => x == y
  | date x, date y => x == y
  | moment x, moment y => x.same y
  | a, b => a.toValue?.any fun v => b.toValue?.any v.same

def hexDigit (n : Nat) : Char :=
  Char.ofNat (if n < 10 then 48 + n else 87 + n)

/-- A byte between quotes. -/
def byteText (quote : Char) (n : Nat) : List Char :=
  let c := Char.ofNat n
  if c == quote || c == '\\' then ['\\', c]
  else if c == '\t' then ['\\', 't']
  else if c == '\n' then ['\\', 'n']
  else if c == '\r' then ['\\', 'r']
  else if n < 32 || 127 ≤ n then ['\\', 'x', hexDigit (n / 16), hexDigit (n % 16)]
  else [c]

/-- Bytes between quotes, which are double if there are single ones in between and no double ones. -/
def bytesText (data : List Nat) : String :=
  let quote := if data.contains 39 && !data.contains 34 then '"' else '\''
  String.ofList ('b' :: quote :: data.flatMap (byteText quote) ++ [quote])

/-- The text of an atom. -/
def text : Atom → String
  | bytes data => bytesText data
  | date d => d.text
  | moment m => m.text
  | a => a.toValue?.elim "" Value.display

/-- What an atom is called in an error text. -/
def kindName : Atom → String
  | bytes _ => "bytes"
  | date _ => "date"
  | moment _ => "datetime"
  | a => a.toValue?.elim "" Value.kindName

/-- Bytes as characters. Those beyond ASCII write nothing that a number has. -/
def characters (data : List Nat) : String :=
  String.ofList (data.map fun n => if n < 128 then Char.ofNat n else '?')

def toInteger : Atom → Except Fault Int
  | bytes data => Conversion.integer 10 (characters data)
  | a => a.toValue?.elim (.error (.misuse (.asInteger a.kindName))) Value.toInteger

def toDouble : Atom → Except Fault Double
  | bytes data => Conversion.double (characters data)
  | a => a.toValue?.elim (.error (.misuse (.asReal a.kindName))) Value.toDouble

end Atom

inductive Setting where
  | atom (a : Atom)
  | list (items : List Setting)
  | pair (first second : Setting)
  | map (entries : List (Atom × Setting))
  | set (members : List Atom)

namespace Setting

def str (s : String) : Setting := atom (.str s)

/-- What a setting is called in an error text. -/
def kindName : Setting → String
  | atom a => a.kindName
  | list _ => "list"
  | pair _ _ => "tuple"
  | map _ => "dict"
  | set _ => "set"

mutual

/-- A document as a setting. -/
def ofValue : Value → Setting
  | .null => atom .null
  | .bool b => atom (.bool b)
  | .num n => atom (.num n)
  | .str s => atom (.str s)
  | .list items => list (ofItems items)
  | .map entries => map (ofEntries entries)

def ofItems : List Value → List Setting
  | [] => []
  | v :: rest => ofValue v :: ofItems rest

def ofEntries : List (String × Value) → List (Atom × Setting)
  | [] => []
  | (key, v) :: rest => (.str key, ofValue v) :: ofEntries rest

end

mutual

/-- The document that a setting is, if it is one. -/
def toValue? : Setting → Option Value
  | atom a => a.toValue?
  | list items => (toItems? items).map Value.list
  | map entries => (toEntries? entries).map Value.map
  | pair _ _ => none
  | set _ => none

def toItems? : List Setting → Option (List Value)
  | [] => some []
  | s :: rest => do
    let v ← toValue? s
    return v :: (← toItems? rest)

def toEntries? : List (Atom × Setting) → Option (List (String × Value))
  | [] => some []
  | (.str key, s) :: rest => do
    let v ← toValue? s
    return (key, v) :: (← toEntries? rest)
  | _ :: _ => none

end

mutual

/-- The document closest to a setting: keys are texts, pairs and sets are lists, and what no document holds is its
text. -/
def shown : Setting → Value
  | atom a => a.toValue?.getD (.str a.text)
  | list items => .list (shownItems items)
  | pair first second => .list [shown first, shown second]
  | map entries => .map (Entries.ofList (shownEntries entries))
  | set members => .list (members.map fun a => a.toValue?.getD (.str a.text))

def shownItems : List Setting → List Value
  | [] => []
  | s :: rest => shown s :: shownItems rest

def shownEntries : List (Atom × Setting) → List (String × Value)
  | [] => []
  | (key, s) :: rest => (key.text, shown s) :: shownEntries rest

end

mutual

/-- Every document is read back from the setting that it is. -/
theorem toValue?_ofValue : ∀ v : Value, toValue? (ofValue v) = some v
  | .null | .bool _ | .num _ | .str _ => rfl
  | .list items => by rw [ofValue, toValue?, toItems?_ofItems items]; rfl
  | .map entries => by rw [ofValue, toValue?, toEntries?_ofEntries entries]; rfl

theorem toItems?_ofItems : ∀ items : List Value, toItems? (ofItems items) = some items
  | [] => rfl
  | v :: rest => by rw [ofItems, toItems?, toValue?_ofValue v, toItems?_ofItems rest]; rfl

theorem toEntries?_ofEntries : ∀ entries : List (String × Value), toEntries? (ofEntries entries) = some entries
  | [] => rfl
  | (key, v) :: rest => by rw [ofEntries, toEntries?, toValue?_ofValue v, toEntries?_ofEntries rest]; rfl

end

end Setting

end WorkGraph
