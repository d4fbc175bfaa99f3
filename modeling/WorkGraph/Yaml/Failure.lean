import WorkGraph.Fault

/-!
# Why there are no settings

A text of settings may be malformed, and a part of a well-formed text may be refused by what it is converted to; the
first failure counts. `Reading α` is a value or a failure.
-/

namespace WorkGraph.Yaml

inductive Failure where
  /-- The text, or a type that it gives to a part, is wrong. -/
  | malformed
  /-- A conversion fails. -/
  | fault (cause : Fault)

abbrev Reading (α : Type) := Except Failure α

namespace Reading

variable {α : Type}

def malformed : Reading α := .error .malformed

/-- The value that is there, if the text is not malformed. -/
def need : Option α → Reading α
  | some a => .ok a
  | none => malformed

/-- Whether the text may go on. -/
def check (b : Bool) : Reading Unit :=
  if b then .ok () else malformed

/-- The value of a conversion. -/
def convert : Except Fault α → Reading α
  | .ok a => .ok a
  | .error cause => .error (.fault cause)

@[simp] theorem need_some (a : α) : need (some a) = .ok a := rfl

@[simp] theorem check_true : check true = .ok () := rfl

end Reading

end WorkGraph.Yaml
