import Descent.Fault

/-!
# Arithmetic on numbers

Sums, differences, products and quotients.  Those of integers are exact, except that a quotient
is the float nearest to the exact quotient.  With a float on either side both operands become
floats first, so an integer that is too large for a float is reported before a division by
zero.
-/

namespace Descent.Number

def toFloat : Number → Except Fault Float
  | .int n =>
      match Binary64.ofInt? n with
      | some x => .ok x
      | none => .error .integerTooLarge
  | .float x => .ok x

/-- An operation that is given for integers and for floats. -/
def onBoth (ints : Int → Int → Except Fault Number) (floats : Float → Float → Except Fault Number)
    (a b : Number) : Except Fault Number :=
  match a, b with
  | .int m, .int n => ints m n
  | a, b => do
      let x ← a.toFloat
      let y ← b.toFloat
      floats x y

/-- The quotient of two integers.  It is negative zero if it is zero and exactly one of the two is
negative. -/
def divInts (m n : Int) : Except Fault Number :=
  if n = 0 then .error .divisionByZero
  else
    match Binary64.ofQuotient? (decide (m < 0) != decide (n < 0)) m.natAbs n.natAbs with
    | some x => .ok (.float x)
    | none => .error .quotientTooLarge

def divFloats (x y : Float) : Except Fault Number :=
  if y == 0 then .error .floatDivisionByZero else .ok (.float (x / y))

def add : Number → Number → Except Fault Number :=
  onBoth (fun m n => .ok (.int (m + n))) (fun x y => .ok (.float (x + y)))

def sub : Number → Number → Except Fault Number :=
  onBoth (fun m n => .ok (.int (m - n))) (fun x y => .ok (.float (x - y)))

def mul : Number → Number → Except Fault Number :=
  onBoth (fun m n => .ok (.int (m * n))) (fun x y => .ok (.float (x * y)))

def div : Number → Number → Except Fault Number := onBoth divInts divFloats

def neg : Number → Number
  | .int n => .int (-n)
  | .float x => .float (-x)

end Descent.Number
