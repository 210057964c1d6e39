import Descent.Numeral
import Descent.Value.Printer

/-!
# Faults

What can go wrong other than that an input does not match: a grammar that is put together from
unsuitable parts, and an operation on outputs that is not defined.  Faults are told apart by
their cause, and each cause has its wording.
-/

namespace Descent

/-- Why a grammar could not be built, or why its application was broken off. -/
inductive Fault where
  /-- A value stands where a parser is expected. -/
  | notAParser (found : Value)
  /-- A choice or a sequence has fewer than two parts. -/
  | tooFewParsers
  | noWords
  /-- Options are given for a pattern that has been read already. -/
  | optionsOfReadPattern
  | invalidPattern
  | tooManyDigits (count : Nat)
  | unknownOperator (symbol : Text)
  | unknownName (name : Text)
  | divisionByZero
  /-- A float is divided by zero, or an integer by a zero float. -/
  | floatDivisionByZero
  /-- The quotient of two integers is too large for a float. -/
  | quotientTooLarge
  /-- An integer is too large for the float that an operation needs. -/
  | integerTooLarge
  /-- A list, a tuple or a text is too short for the item that is picked. -/
  | indexOutOfRange (found : Value)
  /-- An operation is not defined for the value it is given. -/
  | unsuitable (found : Value)
  /-- A user's function refuses to go on. -/
  | refused (reason : Text)

def Value.kind : Value → Text
  | .tuple _ => "tuple"
  | .text _ => "string"
  | _ => "list"

def Fault.message : Fault → Text
  | .notAParser found =>
      "Expected a parser, a string or a compiled pattern, got " ++ found.written ++ "."
  | .tooFewParsers => "At least two parsers required."
  | .noWords => "At least one word required."
  | .optionsOfReadPattern => "cannot process flags argument with a compiled pattern"
  | .invalidPattern => "invalid pattern"
  | .tooManyDigits count =>
      "Exceeds the limit (" ++ Text.ofNat Numeral.decimalLimit ++
        " digits) for integer string conversion: value has " ++ Text.ofNat count ++
        " digits; use sys.set_int_max_str_digits() to increase the limit"
  | .unknownOperator symbol => symbol.quoted
  | .unknownName name => name.quoted
  | .divisionByZero => "division by zero"
  | .floatDivisionByZero => "float division by zero"
  | .quotientTooLarge => "integer division result too large for a float"
  | .integerTooLarge => "int too large to convert to float"
  | .indexOutOfRange found => found.kind ++ " index out of range"
  | .unsuitable found => "Unsuitable value " ++ found.written ++ "."
  | .refused reason => reason

end Descent
