import Descent.Binary64

/-!
# Numbers

Integers of any size and floats.  The two kinds are compared by their exact values.
-/

namespace Descent

/-- An exact integer or a float. -/
inductive Number where
  | int (n : Int)
  | float (x : Float)
deriving DecidableEq

namespace Number

/-- Numeric equality, across the two kinds by exact value. -/
def equal : Number → Number → Bool
  | .int m, .int n => m == n
  | .int m, .float y => Binary64.equalsInt y m
  | .float x, .int n => Binary64.equalsInt x n
  | .float x, .float y => x == y

end Number

end Descent
