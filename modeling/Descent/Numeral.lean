import Descent.Text

/-!
# Positional numerals

Digits and the values of digit runs in a base of at most sixteen.  Reading is total: a text
that is no digit run of the base has no value.
-/

namespace Descent.Numeral

/-- The value of a digit, hexadecimal digits in either case. -/
def digit? (c : CodePoint) : Option Nat :=
  let n := c.toNat
  if 0x30 ≤ n ∧ n ≤ 0x39 then some (n - 0x30)
  else if 0x41 ≤ n ∧ n ≤ 0x46 then some (n - 0x37)
  else if 0x61 ≤ n ∧ n ≤ 0x66 then some (n - 0x57)
  else none

def digitIn? (base : Nat) (c : CodePoint) : Option Nat :=
  (digit? c).filter (· < base)

def continue? (base : Nat) : (value : Nat) → Text → Option Nat
  | value, [] => some value
  | value, c :: rest =>
      match digitIn? base c with
      | none => none
      | some d => continue? base (base * value + d) rest

def read? (base : Nat) (t : Text) : Option Nat :=
  if t.isEmpty then none else continue? base 0 t

/-- How many digits a decimal numeral may have, leading zeros included. -/
def decimalLimit : Nat := 4300

end Descent.Numeral
