/-!
# Bytes written in base 64

Four characters write three bytes. `Base64.decode?` passes over characters that write nothing and stops at the equals
signs that complete the last four; a text that ends within four characters writes no bytes.
-/

namespace WorkGraph.Text.Base64

/-- The value of a character; others write nothing. -/
def value? (c : Char) : Option Nat :=
  if c.isUpper then some (c.toNat - 65)
  else if c.isLower then some (c.toNat - 71)
  else if c.isDigit then some (c.toNat + 4)
  else if c == '+' then some 62
  else if c == '/' then some 63
  else none

/-- The bytes that follow `place` characters of four, of which the bits `left` are still to be written. `pads` counts
the equals signs since the last character. -/
def decodeFrom (place left pads : Nat) : List Char → Option (List Nat)
  | [] => if place == 0 then some [] else none
  | c :: rest =>
    if c == '=' then
      if 4 ≤ place + pads + 1 ∧ 2 ≤ place then some []
      else decodeFrom place left (if 2 ≤ place then pads + 1 else pads) rest
    else match value? c, place with
      | none, _ => decodeFrom place left pads rest
      | some v, 0 => decodeFrom 1 v 0 rest
      | some v, 1 => (decodeFrom 2 (v % 16) 0 rest).map ((left * 4 + v / 16) :: ·)
      | some v, 2 => (decodeFrom 3 (v % 4) 0 rest).map ((left * 16 + v / 4) :: ·)
      | some v, _ => (decodeFrom 0 0 0 rest).map ((left * 64 + v) :: ·)

def decode? (cs : List Char) : Option (List Nat) :=
  decodeFrom 0 0 0 cs

example : decode? "aGk=".toList = some [104, 105] := by decide +kernel
example : decode? "aG k\n=x".toList = some [104, 105] := by decide +kernel
example : decode? "aGk".toList = none := by decide +kernel

end WorkGraph.Text.Base64
