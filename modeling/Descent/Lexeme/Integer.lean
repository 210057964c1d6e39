import Descent.Lexeme.Blank

/-!
# Written integers

Integers in four bases.  A prefix that names a base is binding: without a digit of the base
behind it there is no number, and the zero of the prefix is not read alone.
-/

namespace Descent

/-- A base that a prefix names. -/
structure NumeralBase where
  mark : Text
  digits : Text
  /-- What its digits are called. -/
  kind : Text
  radix : Nat

def NumeralBase.all : List NumeralBase :=
  [ ⟨"0b", Alphabet.binary, "binary", 2⟩,
    ⟨"0o", Alphabet.octal, "octal", 8⟩,
    ⟨"0x", Alphabet.hexadecimal, "hexadecimal", 16⟩ ]

namespace Grammar

def decimalNumber : Grammar := (someOf Alphabet.decimal).map Value.decimal

def digitsOf (base : NumeralBase) : Grammar :=
  ((someOf base.digits).expect ("a " ++ base.kind ++ " digit after " ++ base.mark)).map
    (Value.positional base.radix)

/-- The digits behind an optional prefix. -/
def digitsAfter : Value → Grammar
  | .nothing => decimalNumber
  | .text mark =>
      match NumeralBase.all.find? (·.mark == mark) with
      | some base => digitsOf base
      | none => .raise (.unsuitable (.text mark))
  | v => .raise (.unsuitable v)

def unsignedInteger : Grammar :=
  (oneOf (NumeralBase.all.map fun base => literal base.mark)).optional.flatMap digitsAfter

def applySign : Value → Except Fault Value
  | .list [.text _, n] => Value.negate n
  | .list [.nothing, n] => .ok n
  | v => .error (.unsuitable v)

def integerNumber : Grammar :=
  (sequence [(literal "-").optional, unsignedInteger]).map applySign

end Grammar

end Descent
