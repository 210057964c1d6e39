import Descent.Lexeme.Blank

/-!
# Written decimal fractions

Decimal numbers with a fraction, an exponent or both, read as the nearest float whatever their
length.
-/

namespace Descent

namespace Pattern

def decimalDigits : Pattern := oneOrMore (oneOf Alphabet.decimal)

def exponent : Pattern := seqAll [oneOf "eE", maybe (oneOf "+-"), decimalDigits]

/-- A point with digits behind it, and perhaps an exponent. -/
def fraction : Pattern := seqAll [oneOf ".", decimalDigits, maybe exponent]

def floatNumber : Pattern :=
  seqAll
    [ maybe (oneOf "-"),
      alt
        (seqAll [decimalDigits, alt fraction (seqAll [maybe (oneOf "."), exponent])])
        fraction ]

end Pattern

namespace Numeral

def spanDigits (t : Text) : Text × Text :=
  (t.takeWhile CharSet.digits, t.dropWhile CharSet.digits)

/-- The value of a written exponent, and zero without one. -/
def exponentOf? : Text → Option Int
  | [] => some 0
  | [_] => none
  | _ :: c :: digits =>
      if c = '-' then (read? 10 digits).map fun n => -(n : Int)
      else if c = '+' then (read? 10 digits).map Int.ofNat
      else (read? 10 (c :: digits)).map Int.ofNat

/-- The float nearest to a decimal number that may have a sign, a fraction and an exponent. -/
def float? (t : Text) : Option Float :=
  let (negative, t) :=
    match Text.strip? "-" t with
    | some t => (true, t)
    | none => (false, t)
  let (whole, t) := spanDigits t
  let (fraction, t) :=
    match Text.strip? "." t with
    | some t => spanDigits t
    | none => ([], t)
  match read? 10 (whole ++ fraction), exponentOf? t with
  | some digits, some exponent =>
      some (Binary64.ofDecimal negative digits (exponent - fraction.length))
  | _, _ => none

end Numeral

def Value.toFloat : Value → Except Fault Value
  | .text t =>
      match Numeral.float? t with
      | some x => .ok (.float x)
      | none => .error (.unsuitable (.text t))
  | v => .error (.unsuitable v)

/-- A decimal number with a fraction, an exponent or both.  An integer is not one. -/
def Grammar.floatNumber : Grammar := (pattern .floatNumber).map Value.toFloat

end Descent
