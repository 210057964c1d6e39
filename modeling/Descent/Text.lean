/-!
# Text

A text is a list of code points.  Surrogates are code points like any other, so a text
may hold one without its partner and two in a row stay two.  String literals are read as
texts by a coercion, which keeps the rest of the library free of conversions.
-/

namespace Descent

/-- A Unicode code point, surrogates included. -/
structure CodePoint where
  toNat : Nat
  isLt : toNat < 0x110000
deriving DecidableEq

theorem CodePoint.toNat_lt_of_char (c : Char) : c.toNat < 0x110000 := by
  rcases c.valid with h | h
  · exact Nat.lt_trans h (by decide)
  · exact h.2

def CodePoint.ofChar (c : Char) : CodePoint := ⟨c.toNat, toNat_lt_of_char c⟩

instance : Coe Char CodePoint := ⟨CodePoint.ofChar⟩

instance : Inhabited CodePoint := ⟨⟨0, by decide⟩⟩

def CodePoint.ofNat? (n : Nat) : Option CodePoint :=
  if h : n < 0x110000 then some ⟨n, h⟩ else none

abbrev Text := List CodePoint

namespace Text

def ofString (s : String) : Text := s.toList.map CodePoint.ofChar

instance : Coe String Text := ⟨ofString⟩

def ofNat (n : Nat) : Text := ofString (toString n)

/-- The decimal text of an integer, with `-` in front of a negative one. -/
def ofInt (n : Int) : Text :=
  if n < 0 then ('-' : CodePoint) :: ofNat n.natAbs else ofNat n.natAbs

/-- What follows `head` in `src`, if `src` begins with it. -/
def strip? : (head src : Text) → Option Text
  | [], src => some src
  | _ :: _, [] => none
  | c :: head, d :: src => if c = d then strip? head src else none

theorem strip?_eq_some_iff {head src rest : Text} :
    strip? head src = some rest ↔ src = head ++ rest := by
  induction head generalizing src with
  | nil => simp [strip?, eq_comm]
  | cons c head ih =>
      cases src with
      | nil => simp [strip?]
      | cons d src =>
          by_cases h : c = d
          · simp [strip?, h, ih]
          · simp [strip?, h, Ne.symm h]

@[simp] theorem strip?_append (head rest : Text) :
    strip? head (head ++ rest) = some rest :=
  strip?_eq_some_iff.2 rfl

end Text

end Descent
