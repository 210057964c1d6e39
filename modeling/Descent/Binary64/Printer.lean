import Descent.Binary64

/-!
# Written floats

A float is written with as few digits as tell it from all other floats, and if two decimals of that
length are read as the float, with the nearer one.  Every finite float is a decimal itself, although
one of many digits, so the search drops digits of that decimal, as many as it can at once.
-/

namespace Descent.Binary64

/-- The number `digits * 10 ^ exponent`. -/
structure Decimal where
  digits : Nat
  exponent : Int
deriving DecidableEq

namespace Decimal

/-- The two neighbours of a decimal that have `count` digits fewer behind, the nearer one first. -/
def neighbours (d : Decimal) (count : Nat) : List Decimal :=
  let below := d.digits / Nat.pow 10 count
  let nearest := roundedQuotient d.digits (Nat.pow 10 count)
  [nearest, 2 * below + 1 - nearest].map fun digits => ⟨digits, d.exponent + count⟩

/-- The shortest decimal that is read as it should be, among the neighbours with at most `count`
digits fewer and the decimal itself. -/
def shortened (reads : Decimal → Bool) (d : Decimal) : (count : Nat) → Decimal
  | 0 => d
  | count + 1 =>
      match (d.neighbours (count + 1)).find? reads with
      | some shorter => shorter
      | none => d.shortened reads count

def zeros (count : Nat) : Text := List.replicate count '0'

/-- The text of a run of digits with a point behind the first `point` of them.  Zeros fill up what
is missing on either side of the point. -/
def positional (digits : Text) (point : Int) : Text :=
  let whole := digits.take point.toNat ++ zeros (point.toNat - digits.length)
  let fraction := zeros (-point).toNat ++ digits.drop point.toNat
  (if whole.isEmpty then zeros 1 else whole) ++ ('.' : CodePoint) ::
    (if fraction.isEmpty then zeros 1 else fraction)

/-- The text of a run of digits with a point behind the first of them, unless there is only one, and
an exponent of at least two digits. -/
def scientific (digits : Text) (exponent : Int) : Text :=
  let fraction : Text := if digits.length = 1 then [] else ('.' : CodePoint) :: digits.drop 1
  let sign : CodePoint := if exponent < 0 then '-' else '+'
  let magnitude := Text.ofNat exponent.natAbs
  digits.take 1 ++ fraction ++ ('e' : CodePoint) :: sign ::
    (zeros (2 - magnitude.length) ++ magnitude)

/-- The text of a decimal.  Very small and very large ones are written with an exponent. -/
def written (d : Decimal) : Text :=
  let digits := Text.ofNat d.digits
  let point : Int := digits.length + d.exponent
  if d.digits = 0 then "0.0"
  else if -4 < point ∧ point ≤ 16 then positional digits point
  else scientific digits (point - 1)

end Decimal

/-- The magnitude of a finite float as a decimal. -/
def Exact.toDecimal (x : Exact) : Decimal :=
  if 0 ≤ x.exponent then ⟨x.significand.natAbs * Nat.pow 2 x.exponent.toNat, 0⟩
  else ⟨x.significand.natAbs * Nat.pow 5 (-x.exponent).toNat, x.exponent⟩

def isNegative (x : Float) : Bool := 0x8000000000000000 ≤ x.toBits.toNat

/-- The shortest decimal that is read as the magnitude of a float, given the exact value. -/
def shortest (x : Float) (exact : Exact) : Decimal :=
  exact.toDecimal.shortened (fun d => ofDecimal (isNegative x) d.digits d.exponent = x)
    (Text.ofNat exact.toDecimal.digits).length

def written (x : Float) : Text :=
  let sign : Text := if isNegative x then "-" else []
  match decode? x with
  | some exact => sign ++ (shortest x exact).written
  | none => if x.isNaN then "nan" else sign ++ "inf"

end Descent.Binary64
