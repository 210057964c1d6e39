import Descent.Binary64.Printer
import Descent.Proofs.Binary64.Quotient
import Descent.Proofs.Lexeme.LongestFraction
import Descent.Proofs.Numeral.Written
import Mathlib

/-!
# Written floats are read back

The magnitude of a finite float is a decimal, and that decimal is read as the float.  A shorter one
takes its place only if it is read alike.  The text of a decimal, wherever the point stands in it and
whether or not there is an exponent behind, is a written float that stands for the decimal.  So the
grammar of floats outputs the float whose text it is given.

That the bits of a float determine it is a fact that only the whole of Mathlib brings along.
-/

namespace Descent

open Numeral

namespace Binary64

variable {x : Float} {exact : Exact}

/-! ### The decimal of a float -/

theorem ofMagnitude_isNegative {magnitude : Nat}
    (h : x.toBits.toNat = magnitude + if isNegative x then 2 ^ 63 else 0) :
    ofMagnitude (isNegative x) magnitude = x := by
  have hbits : (if isNegative x then magnitude + 0x8000000000000000 else magnitude) =
      x.toBits.toNat := by
    rw [h]
    split_ifs <;> rfl
  rw [ofMagnitude, hbits, UInt64.ofNat_toNat, Float.ofBits_toBits]

theorem canonical_of_decode? (h : decode? x = some exact) :
    Canonical exact.significand.natAbs exact.exponent ∧
      x.toBits.toNat = (exact.exponent + 1074).toNat * 2 ^ 52 + exact.significand.natAbs +
        if isNegative x then 2 ^ 63 else 0 := by
  have hlt : x.toBits.toNat < 2 ^ 64 := x.toBits.toNat_lt
  have hpow (n : Nat) : Nat.pow 2 n = 2 ^ n := rfl
  have habs (n : Nat) : (if 2 ^ 63 ≤ x.toBits.toNat then -(n : Int) else n).natAbs = n := by
    split_ifs <;> simp
  simp only [isNegative, decide_eq_true_eq]
  simp only [decode?, hpow] at h
  generalize x.toBits.toNat = bits at *
  by_cases hspecial : bits / 2 ^ 52 % 2 ^ 11 = 2047
  · rw [if_pos hspecial] at h
    cases h
  by_cases hleast : bits / 2 ^ 52 % 2 ^ 11 = 0
  · rw [if_neg hspecial, if_pos hleast] at h
    obtain rfl := Option.some.inj h
    simp only [habs]
    refine ⟨⟨by omega, by omega, .inr rfl⟩, ?_⟩
    split_ifs <;> omega
  · rw [if_neg hspecial, if_neg hleast] at h
    obtain rfl := Option.some.inj h
    simp only [habs]
    refine ⟨⟨by omega, by omega, .inl (by omega)⟩, ?_⟩
    split_ifs <;> omega

theorem ofDecimal_toDecimal (h : decode? x = some exact) :
    ofDecimal (isNegative x) exact.toDecimal.digits exact.toDecimal.exponent = x := by
  obtain ⟨hcanonical, hbits⟩ := canonical_of_decode? h
  have hmagnitude := ofMagnitude_isNegative hbits
  unfold Exact.toDecimal
  set m := exact.significand.natAbs
  set e := exact.exponent
  obtain ⟨hleast, hmost⟩ := hcanonical.exponent_mem
  rcases Nat.eq_zero_or_pos m with hm | hm
  · have he : e = -1074 := hcanonical.full_or_least.resolve_left (by omega)
    have hzero : (e + 1074).toNat * 2 ^ 52 + m = 0 := by omega
    rw [hzero] at hmagnitude
    rw [if_neg (by omega), hm, Nat.zero_mul, ofDecimal_zero]
    exact hmagnitude
  split_ifs with he
  · obtain ⟨k, hk⟩ := Int.eq_ofNat_of_zero_le he
    rw [hk] at hcanonical hmagnitude
    rw [hk, Int.toNat_natCast]
    exact (hcanonical.ofDecimal_integral hm _).trans hmagnitude
  · obtain ⟨k, hk⟩ : ∃ k : Nat, e = -k := ⟨(-e).toNat, by omega⟩
    rw [hk] at hcanonical hmagnitude
    rw [hk, neg_neg, Int.toNat_natCast]
    exact (hcanonical.ofDecimal_fraction hm (by omega) _).trans hmagnitude

theorem Decimal.shortened_reads {reads : Decimal → Bool} {d : Decimal} (h : reads d = true)
    (count : Nat) : reads (d.shortened reads count) = true := by
  induction count with
  | zero => exact h
  | succ count ih =>
      rw [shortened]
      split
      next shorter hfind => exact List.find?_some hfind
      next => exact ih

/-- The decimal that a finite float is written as is read as that float. -/
theorem ofDecimal_shortest (h : decode? x = some exact) :
    ofDecimal (isNegative x) (shortest x exact).digits (shortest x exact).exponent = x := by
  unfold shortest
  generalize (Text.ofNat exact.toDecimal.digits).length = count
  set reads : Decimal → Bool := fun d => ofDecimal (isNegative x) d.digits d.exponent = x
  have hexact : reads exact.toDecimal = true := decide_eq_true (ofDecimal_toDecimal h)
  exact of_decide_eq_true (Decimal.shortened_reads hexact count)

end Binary64

/-! ### The text of a decimal -/

theorem Numeral.someDigits_ofNat (n : Nat) : SomeDigits (Text.ofNat n) where
  ne_nil := by
    rw [ofNat_eq_digits]
    exact digits_ne_nil 10 n
  digits c hc := by
    rw [ofNat_eq_digits] at hc
    exact (Alphabet.mem_decimal_iff c).mpr (digitsOf_digits (by omega) (by omega) n c hc)

namespace Binary64.Decimal

variable {t : Text} {n : Nat} {e : Int}

theorem someDigits_zeros (count : Nat) : SomeDigits (zeros (count + 1)) where
  ne_nil := by simp [zeros]
  digits c hc := by
    obtain rfl := List.eq_of_mem_replicate hc
    decide

theorem someDigits_zeros_append (ht : SomeDigits t) (count : Nat) :
    SomeDigits (zeros count ++ t) := by
  cases count with
  | zero => exact ht
  | succ count => exact (someDigits_zeros count).append ht

theorem someDigits_append_zeros (ht : SomeDigits t) (count : Nat) :
    SomeDigits (t ++ zeros count) := by
  cases count with
  | zero => exact (List.append_nil t).symm ▸ ht
  | succ count => exact ht.append (someDigits_zeros count)

theorem length_zeros (count : Nat) : (zeros count).length = count :=
  List.length_replicate

theorem value_zeros (count : Nat) : value 10 (zeros count) = 0 := by
  induction count with
  | zero => rfl
  | succ count ih =>
      have hsplit : zeros (count + 1) = zeros count ++ zeros 1 := List.replicate_add ..
      rw [hsplit, value_append, ih]
      rfl

theorem someDigits_take (ht : SomeDigits t) {p : Nat} (hp : 0 < p) : SomeDigits (t.take p) where
  ne_nil := by simp [ht.ne_nil, hp.ne']
  digits c hc := ht.digits c (List.mem_of_mem_take hc)

theorem someDigits_drop (ht : SomeDigits t) {p : Nat} (hp : p < t.length) :
    SomeDigits (t.drop p) where
  ne_nil := by simpa using hp
  digits c hc := ht.digits c (List.mem_of_mem_drop hc)

/-- The text is a float without a sign, and stands for a number that is read like the decimal. -/
def Renders (t : Text) (n : Nat) (e : Int) : Prop :=
  ∃ digits e', UnsignedFloat t digits e' ∧
    ∀ negative, ofDecimal negative (value 10 digits) e' = ofDecimal negative n e

theorem renders_of_point {whole fraction : Text} (hwhole : SomeDigits whole)
    (hfraction : SomeDigits fraction)
    (hread : ∀ negative, ofDecimal negative (value 10 (whole ++ fraction)) (-fraction.length) =
      ofDecimal negative n e) :
    Renders (whole ++ ('.' : CodePoint) :: fraction) n e := by
  have hpoint := UnsignedFloat.point hwhole hfraction .none
  rw [List.append_nil, zero_sub] at hpoint
  exact ⟨_, _, hpoint, hread⟩

theorem renders_positional_behind (ht : SomeDigits t) (hn : value 10 t ≠ 0) {k : Nat}
    (hk : k ≤ 400) : Renders (positional t (t.length + k)) (value 10 t) k := by
  have htext : positional t (t.length + k) = (t ++ zeros k) ++ ('.' : CodePoint) :: zeros 1 := by
    have hpoint : ((t.length : Int) + k).toNat = t.length + k := by omega
    have htake : t.take (t.length + k) = t := List.take_of_length_le (by omega)
    have hdrop : t.drop (t.length + k) = [] := List.drop_of_length_le (by omega)
    have hzeros : t.length + k - t.length = k := by omega
    simp [positional, hpoint, htake, hdrop, hzeros, zeros, ht.ne_nil]
  rw [htext]
  apply renders_of_point
  · exact someDigits_append_zeros ht k
  · exact someDigits_zeros 0
  · intro negative
    have hvalue : value 10 (t ++ zeros k ++ zeros 1) = value 10 t * 10 ^ (k + 1) := by
      rw [value_append, value_append, value_zeros, value_zeros, length_zeros, length_zeros]
      ring
    rw [hvalue]
    exact ofDecimal_zeros negative hn hk

theorem renders_positional_inside (ht : SomeDigits t) {p : Nat} (hp : 0 < p) (hlt : p < t.length) :
    Renders (positional t p) (value 10 t) ((p : Int) - t.length) := by
  have hwhole := someDigits_take ht hp
  have hfraction := someDigits_drop ht hlt
  have htext : positional t p = t.take p ++ ('.' : CodePoint) :: t.drop p := by
    have hnone : p - t.length = 0 := by omega
    simp [positional, hnone, zeros, hwhole.ne_nil, hfraction.ne_nil]
  rw [htext]
  apply renders_of_point hwhole hfraction
  intro negative
  have hexponent : (-(t.drop p).length : Int) = (p : Int) - t.length := by
    rw [List.length_drop]
    omega
  rw [List.take_append_drop, hexponent]

theorem renders_positional_front (ht : SomeDigits t) (j : Nat) :
    Renders (positional t (-j)) (value 10 t) (-(j + t.length)) := by
  have htext : positional t (-j) = zeros 1 ++ ('.' : CodePoint) :: (zeros j ++ t) := by
    simp [positional, zeros, ht.ne_nil]
  rw [htext]
  apply renders_of_point (someDigits_zeros 0)
  · exact someDigits_zeros_append ht j
  · intro negative
    have hvalue : value 10 (zeros 1 ++ (zeros j ++ t)) = value 10 t := by
      simp [value_append, value_zeros]
    rw [hvalue, List.length_append, length_zeros, Nat.cast_add]

theorem renders_positional (ht : SomeDigits t) (hn : value 10 t ≠ 0)
    (hpoint : (t.length : Int) + e ≤ 16) : Renders (positional t (t.length + e)) (value 10 t) e := by
  rcases le_or_gt 0 e with he | he
  · obtain ⟨k, rfl⟩ := Int.eq_ofNat_of_zero_le he
    exact renders_positional_behind ht hn (by omega)
  rcases lt_or_ge 0 ((t.length : Int) + e) with hinside | hfront
  · obtain ⟨p, hp⟩ := Int.eq_ofNat_of_zero_le hinside.le
    have hrenders := renders_positional_inside ht (show 0 < p by omega) (by omega)
    rwa [hp, show e = (p : Int) - t.length by omega]
  · obtain ⟨j, hj⟩ : ∃ j : Nat, (t.length : Int) + e = -j := ⟨(-(t.length + e)).toNat, by omega⟩
    have hrenders := renders_positional_front ht j
    rwa [hj, show e = -((j : Int) + t.length) by omega]

theorem exponentOf_scientific (e : Int) :
    ExponentOf (('e' : CodePoint) :: (if e < 0 then '-' else '+' : CodePoint) ::
      (zeros (2 - (Text.ofNat e.natAbs).length) ++ Text.ofNat e.natAbs)) e := by
  set magnitude := Text.ofNat e.natAbs
  have hdigits := someDigits_zeros_append (someDigits_ofNat e.natAbs) (2 - magnitude.length)
  have hvalue : value 10 (zeros (2 - magnitude.length) ++ magnitude) = e.natAbs := by
    rw [value_append, value_zeros, value_ofNat]
    omega
  have hmark : ('e' : CodePoint) ∈ ("eE" : Text) := by decide
  split_ifs with he
  · have hminus := ExponentOf.minus hmark hdigits
    rwa [hvalue, show -(e.natAbs : Int) = e by omega] at hminus
  · have hplus := ExponentOf.plus hmark hdigits
    rwa [hvalue, show (e.natAbs : Int) = e by omega] at hplus

theorem renders_scientific (ht : SomeDigits t) :
    Renders (scientific t (t.length + e - 1)) (value 10 t) e := by
  set exponent : Int := t.length + e - 1 with hexponent
  have hwritten := exponentOf_scientific exponent
  have hlength := List.length_pos_of_ne_nil ht.ne_nil
  by_cases hone : t.length = 1
  · have htake : t.take 1 = t := List.take_of_length_le hone.le
    have hfloat := UnsignedFloat.whole ht (by simp) hwritten
    have he : exponent = e := by omega
    simp only [scientific, if_pos hone, htake, List.append_nil]
    exact ⟨_, _, hfloat, fun negative => by rw [he]⟩
  · have hwhole := someDigits_take ht one_pos
    have hfraction := someDigits_drop ht (show 1 < t.length by omega)
    have hfloat := UnsignedFloat.point hwhole hfraction hwritten
    have he : exponent - (t.drop 1).length = e := by
      rw [List.length_drop]
      omega
    rw [List.take_append_drop, he] at hfloat
    simp only [scientific, if_neg hone, List.append_assoc, List.cons_append]
    exact ⟨_, _, hfloat, fun _ => rfl⟩

theorem renders_written (d : Decimal) : Renders d.written d.digits d.exponent := by
  have hvalue := value_ofNat d.digits
  simp only [written]
  split_ifs with hzero hpoint
  · have htext : ("0.0" : Text) = zeros 1 ++ ('.' : CodePoint) :: zeros 1 := rfl
    rw [htext, hzero]
    apply renders_of_point (someDigits_zeros 0) (someDigits_zeros 0)
    intro negative
    rw [show value 10 (zeros 1 ++ zeros 1) = 0 from value_zeros 2, ofDecimal_zero, ofDecimal_zero]
  · have hrenders := renders_positional (someDigits_ofNat d.digits) (by rwa [hvalue]) hpoint.2
    rwa [hvalue] at hrenders
  · have hrenders := renders_scientific (e := d.exponent) (someDigits_ofNat d.digits)
    rwa [hvalue] at hrenders

end Binary64.Decimal

/-- The grammar of floats outputs every finite float whose text it is given. -/
theorem Grammar.floatNumber_reads_written {x : Float} {exact : Binary64.Exact}
    (h : Binary64.decode? x = some exact) (defs : Definitions) (limit : Nat) :
    floatNumber.apply defs limit (Binary64.written x) = .returned (.success (.float x) []) := by
  obtain ⟨digits, e, hunsigned, hread⟩ := (Binary64.shortest x exact).renders_written
  have hwritten : WrittenFloat (Binary64.written x) (Binary64.isNegative x) digits e := by
    simp only [Binary64.written, h]
    generalize (Binary64.shortest x exact).written = body at hunsigned ⊢
    cases Binary64.isNegative x with
    | true => exact .minus hunsigned
    | false => exact .unsigned hunsigned
  have hlongest : Text.IsLongestPrefix IsFloat (Binary64.written x) (Binary64.written x) :=
    ⟨⟨_, _, _, hwritten⟩, List.prefix_refl _, fun _ _ hprefix => hprefix.length_le⟩
  have hrun := run_floatNumber_of_isLongestPrefix (List.append_nil _).symm hlongest hwritten
    (defs.context limit)
  rwa [hread, Binary64.ofDecimal_shortest h] at hrun

end Descent
