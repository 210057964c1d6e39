import Descent.Text

/-!
# Binary floating point of 64 bits

Rounding exact quotients and decimals to the nearest float, a tie going to the even neighbour,
and the exact value of a float.  All of it is integer arithmetic on the bits.
-/

namespace Descent.Binary64

/-- The quotient rounded to the nearest integer, a half going to the even neighbour. -/
def roundedQuotient (num den : Nat) : Nat :=
  let quotient := num / den
  let rest := num % den
  if 2 * rest < den then quotient
  else if den < 2 * rest then quotient + 1
  else quotient + quotient % 2

/-- `num * 2 ^ (-exponent) / den` as a rounded integer. -/
def scaledQuotient (num den : Nat) (exponent : Int) : Nat :=
  if 0 ≤ exponent then roundedQuotient num (den <<< exponent.toNat)
  else roundedQuotient (num <<< (-exponent).toNat) den

/-- The largest `k` with `2 ^ k ≤ num / den`, for positive numbers. -/
def quotientLog2 (num den : Nat) : Int :=
  let estimate : Int := (num.log2 : Int) - (den.log2 : Int)
  let reached : Bool :=
    if 0 ≤ estimate then den <<< estimate.toNat ≤ num
    else den ≤ num <<< (-estimate).toNat
  if reached then estimate else estimate - 1

/-- The bits of infinity, which are above those of every finite magnitude. -/
def infinityBits : Nat := 0x7FF0000000000000

/-- The bits of the float nearest to a positive quotient.  They reach `infinityBits` exactly when
the quotient is too large for a finite float.  A significand that is rounded up to the next
power of two carries into the exponent. -/
def quotientBits (num den : Nat) : Nat :=
  let exponent : Int := max (quotientLog2 num den - 52) (-1074)
  (exponent + 1074).toNat <<< 52 + scaledQuotient num den exponent

def ofMagnitude (negative : Bool) (bits : Nat) : Float :=
  Float.ofBits (UInt64.ofNat (if negative then bits + 0x8000000000000000 else bits))

/-- The float nearest to a quotient with a positive denominator, or nothing if it is too large. -/
def ofQuotient? (negative : Bool) (num den : Nat) : Option Float :=
  if num = 0 then some (ofMagnitude negative 0)
  else
    let bits := quotientBits num den
    if bits < infinityBits then some (ofMagnitude negative bits) else none

/-- The float nearest to `digits * 10 ^ exponent`, which is an infinity if that is too large.
Exponents far outside the range are decided without computing the power. -/
def ofDecimal (negative : Bool) (digits : Nat) (exponent : Int) : Float :=
  if digits = 0 then ofMagnitude negative 0
  else if 400 < exponent then ofMagnitude negative infinityBits
  else if (digits.log2 : Int) + 1100 < -3 * exponent then ofMagnitude negative 0
  else
    let quotient? :=
      if 0 ≤ exponent then ofQuotient? negative (digits * Nat.pow 10 exponent.toNat) 1
      else ofQuotient? negative digits (Nat.pow 10 (-exponent).toNat)
    quotient?.getD (ofMagnitude negative infinityBits)

def ofInt? (n : Int) : Option Float :=
  ofQuotient? (n < 0) n.natAbs 1

/-- A finite float is `significand * 2 ^ exponent`. -/
structure Exact where
  significand : Int
  exponent : Int
deriving DecidableEq

def decode? (x : Float) : Option Exact :=
  let bits : Nat := x.toBits.toNat
  let field : Nat := bits / Nat.pow 2 52 % Nat.pow 2 11
  let fraction : Nat := bits % Nat.pow 2 52
  let signed (n : Nat) : Int := if Nat.pow 2 63 ≤ bits then -n else n
  if field = 2047 then none
  else if field = 0 then some ⟨signed fraction, -1074⟩
  else some ⟨signed (fraction + Nat.pow 2 52), (field : Int) - 1075⟩

def equalsInt (x : Float) (n : Int) : Bool :=
  match decode? x with
  | none => false
  | some ⟨significand, exponent⟩ =>
      if 0 ≤ exponent then significand * Int.pow 2 exponent.toNat == n
      else significand == n * Int.pow 2 (-exponent).toNat

end Descent.Binary64
