import Descent.Binary64
import Mathlib.Data.Int.Log
import Mathlib.Tactic

/-!
# Rounded quotients

The float nearest to a quotient depends on the quotient alone, not on how it is written, and it is
exact if the quotient is the value of a float.  Both follow from what the exponent is: the logarithm
that finds it is the logarithm of the quotient.
-/

namespace Descent.Binary64

variable {num den m : Nat} {e : Int}

/-! ### Logarithms -/

/-- The comparison that settles the logarithm of a quotient. -/
theorem reached_iff (hden : 0 < den) (k : Int) :
    (if 0 ≤ k then decide (den <<< k.toNat ≤ num) else decide (den ≤ num <<< (-k).toNat)) = true ↔
      (2 : ℚ) ^ k ≤ num / den := by
  have hden' : (0 : ℚ) < den := by exact_mod_cast hden
  rw [le_div_iff₀ hden']
  split_ifs with hk
  · obtain ⟨k, rfl⟩ := Int.eq_ofNat_of_zero_le hk
    rw [decide_eq_true_iff, Int.toNat_natCast, Nat.shiftLeft_eq, zpow_natCast, mul_comm]
    exact_mod_cast Iff.rfl
  · obtain ⟨k, rfl⟩ : ∃ n : Nat, k = -n := ⟨(-k).toNat, by omega⟩
    rw [decide_eq_true_iff, neg_neg, Int.toNat_natCast, Nat.shiftLeft_eq, zpow_neg, zpow_natCast,
      inv_mul_le_iff₀ (by positivity), mul_comm]
    exact_mod_cast Iff.rfl

theorem quotientLog2_eq_log (hnum : 0 < num) (hden : 0 < den) :
    quotientLog2 num den = Int.log 2 ((num : ℚ) / den) := by
  have hpos : (0 : ℚ) < num / den := by positivity
  have hnum₁ : (2 : ℚ) ^ Nat.log 2 num ≤ num := by exact_mod_cast Nat.pow_log_le_self 2 hnum.ne'
  have hnum₂ : (num : ℚ) < 2 ^ (Nat.log 2 num + 1) := by
    exact_mod_cast Nat.lt_pow_succ_log_self one_lt_two num
  have hden₁ : (2 : ℚ) ^ Nat.log 2 den ≤ den := by exact_mod_cast Nat.pow_log_le_self 2 hden.ne'
  have hden₂ : (den : ℚ) < 2 ^ (Nat.log 2 den + 1) := by
    exact_mod_cast Nat.lt_pow_succ_log_self one_lt_two den
  set estimate : Int := (Nat.log 2 num : Int) - Nat.log 2 den with hestimate
  have hlower : estimate - 1 ≤ Int.log 2 ((num : ℚ) / den) := by
    rw [← Int.zpow_le_iff_le_log one_lt_two hpos, le_div_iff₀ (by positivity)]
    calc (2 : ℚ) ^ (estimate - 1) * den
        ≤ 2 ^ (estimate - 1) * 2 ^ (Nat.log 2 den + 1) := by gcongr
      _ = 2 ^ Nat.log 2 num := by
          rw [← zpow_natCast, ← zpow_natCast, ← zpow_add₀ two_ne_zero, hestimate]
          congr 1
          push_cast
          ring
      _ ≤ num := hnum₁
  have hupper : Int.log 2 ((num : ℚ) / den) < estimate + 1 := by
    rw [← Int.lt_zpow_iff_log_lt one_lt_two hpos, div_lt_iff₀ (by positivity)]
    calc (num : ℚ)
        < 2 ^ (Nat.log 2 num + 1) := hnum₂
      _ = 2 ^ (estimate + 1) * 2 ^ Nat.log 2 den := by
          rw [← zpow_natCast, ← zpow_natCast, ← zpow_add₀ two_ne_zero, hestimate]
          congr 1
          push_cast
          ring
      _ ≤ 2 ^ (estimate + 1) * den := by gcongr
  have hreached := (reached_iff hden estimate).trans (Int.zpow_le_iff_le_log one_lt_two hpos)
  simp only [quotientLog2, Nat.log2_eq_log_two, ← hestimate, hreached]
  split_ifs <;> omega

theorem log_mul_zpow (hm : 0 < m) (e : Int) :
    Int.log 2 ((m : ℚ) * 2 ^ e) = (Nat.log 2 m : Int) + e := by
  have hpos : (0 : ℚ) < m * 2 ^ e := by positivity
  have hlower : (2 : ℚ) ^ Nat.log 2 m ≤ m := by exact_mod_cast Nat.pow_log_le_self 2 hm.ne'
  have hupper : (m : ℚ) < 2 ^ (Nat.log 2 m + 1) := by
    exact_mod_cast Nat.lt_pow_succ_log_self one_lt_two m
  apply le_antisymm
  · rw [← Int.lt_add_one_iff, ← Int.lt_zpow_iff_log_lt one_lt_two hpos,
      show (Nat.log 2 m : Int) + e + 1 = ((Nat.log 2 m + 1 : Nat) : Int) + e by push_cast; ring,
      Nat.cast_ofNat, zpow_add₀ two_ne_zero, zpow_natCast]
    gcongr
  · rw [← Int.zpow_le_iff_le_log one_lt_two hpos, Nat.cast_ofNat, zpow_add₀ two_ne_zero,
      zpow_natCast]
    gcongr

/-! ### Equal quotients -/

theorem roundedQuotient_mul_right (num den : Nat) {c : Nat} (hc : 0 < c) :
    roundedQuotient (num * c) (den * c) = roundedQuotient num den := by
  have htwice (r : Nat) : 2 * (r * c) = 2 * r * c := (Nat.mul_assoc 2 r c).symm
  simp only [roundedQuotient, Nat.mul_div_mul_right _ _ hc, Nat.mul_mod_mul_right, htwice,
    Nat.mul_lt_mul_right hc]

theorem scaledQuotient_mul_right (num den : Nat) {c : Nat} (hc : 0 < c) (e : Int) :
    scaledQuotient (num * c) (den * c) e = scaledQuotient num den e := by
  have hshift (n k : Nat) : (n * c) <<< k = (n <<< k) * c := by
    rw [Nat.shiftLeft_eq, Nat.shiftLeft_eq]
    ring
  simp only [scaledQuotient, hshift, roundedQuotient_mul_right _ _ hc]

theorem quotientBits_mul_right (hnum : 0 < num) (hden : 0 < den) {c : Nat} (hc : 0 < c) :
    quotientBits (num * c) (den * c) = quotientBits num den := by
  have hc' : (c : ℚ) ≠ 0 := by positivity
  have hlog : quotientLog2 (num * c) (den * c) = quotientLog2 num den := by
    rw [quotientLog2_eq_log (by positivity) (by positivity), quotientLog2_eq_log hnum hden]
    push_cast
    rw [mul_div_mul_right _ _ hc']
  simp only [quotientBits, hlog, scaledQuotient_mul_right _ _ hc]

theorem ofQuotient?_mul_right (negative : Bool) (num : Nat) (hden : 0 < den) {c : Nat}
    (hc : 0 < c) : ofQuotient? negative (num * c) (den * c) = ofQuotient? negative num den := by
  rcases Nat.eq_zero_or_pos num with rfl | hnum
  · simp [ofQuotient?]
  · rw [ofQuotient?, ofQuotient?, if_neg (Nat.mul_pos hnum hc).ne', if_neg hnum.ne',
      quotientBits_mul_right hnum hden hc]

/-! ### Exact quotients -/

theorem roundedQuotient_mul (m : Nat) (hden : 0 < den) : roundedQuotient (m * den) den = m := by
  simp [roundedQuotient, Nat.mul_div_cancel m hden, hden]

theorem scaledQuotient_of_exact (hden : 0 < den) (hexact : (num : ℚ) / den = m * 2 ^ e) :
    scaledQuotient num den e = m := by
  have hden' : (den : ℚ) ≠ 0 := by positivity
  have hnum : (num : ℚ) = m * 2 ^ e * den := (div_eq_iff hden').mp hexact
  unfold scaledQuotient
  split_ifs with he
  · obtain ⟨k, rfl⟩ := Int.eq_ofNat_of_zero_le he
    have hmul : num = m * (den <<< k) := by
      rw [Nat.shiftLeft_eq]
      rw [zpow_natCast] at hnum
      have hcast : (num : ℚ) = m * (den * 2 ^ k) := by rw [hnum]; ring
      exact_mod_cast hcast
    have hpos : 0 < den <<< k := by
      rw [Nat.shiftLeft_eq]
      positivity
    rw [Int.toNat_natCast, hmul]
    exact roundedQuotient_mul m hpos
  · obtain ⟨k, rfl⟩ : ∃ k : Nat, e = -k := ⟨(-e).toNat, by omega⟩
    have hmul : num <<< k = m * den := by
      rw [Nat.shiftLeft_eq]
      rw [zpow_neg, zpow_natCast] at hnum
      have hcast : (num : ℚ) * 2 ^ k = m * den := by
        rw [hnum]
        field_simp
      exact_mod_cast hcast
    rw [neg_neg, Int.toNat_natCast, hmul]
    exact roundedQuotient_mul m hden

/-- The bits of a float are its significand, and above that its exponent.  A significand of full
length carries one into the exponent. -/
structure Canonical (m : Nat) (e : Int) : Prop where
  lt : m < 2 ^ 53
  exponent_mem : -1074 ≤ e ∧ e ≤ 971
  full_or_least : 2 ^ 52 ≤ m ∨ e = -1074

theorem Canonical.max_log (h : Canonical m e) (hm : 0 < m) :
    max ((Nat.log 2 m : Int) + e - 52) (-1074) = e := by
  have hlog : Nat.log 2 m < 53 := Nat.log_lt_of_lt_pow hm.ne' h.lt
  obtain ⟨hleast, -⟩ := h.exponent_mem
  rcases h.full_or_least with hfull | rfl
  · have hle : 52 ≤ Nat.log 2 m := Nat.le_log_of_pow_le one_lt_two hfull
    omega
  · omega

theorem pos_of_exact (hm : 0 < m) (hexact : (num : ℚ) / den = m * 2 ^ e) : 0 < num := by
  apply Nat.pos_of_ne_zero
  rintro rfl
  have hpos : (0 : ℚ) < m * 2 ^ e := by positivity
  rw [← hexact] at hpos
  simp at hpos

theorem quotientBits_of_exact (h : Canonical m e) (hm : 0 < m) (hden : 0 < den)
    (hexact : (num : ℚ) / den = m * 2 ^ e) :
    quotientBits num den = (e + 1074).toNat * 2 ^ 52 + m := by
  have hnum : 0 < num := pos_of_exact hm hexact
  have hlog : quotientLog2 num den = (Nat.log 2 m : Int) + e := by
    rw [quotientLog2_eq_log hnum hden, hexact, log_mul_zpow hm]
  simp only [quotientBits, hlog, h.max_log hm, scaledQuotient_of_exact hden hexact,
    Nat.shiftLeft_eq]

theorem Canonical.bits_lt (h : Canonical m e) : (e + 1074).toNat * 2 ^ 52 + m < infinityBits := by
  have hlt := h.lt
  obtain ⟨hleast, hmost⟩ := h.exponent_mem
  unfold infinityBits
  omega

theorem ofQuotient?_of_exact (h : Canonical m e) (hm : 0 < m) (hden : 0 < den)
    (hexact : (num : ℚ) / den = m * 2 ^ e) (negative : Bool) :
    ofQuotient? negative num den = some (ofMagnitude negative ((e + 1074).toNat * 2 ^ 52 + m)) := by
  have hnum : 0 < num := pos_of_exact hm hexact
  rw [ofQuotient?, if_neg hnum.ne', quotientBits_of_exact h hm hden hexact]
  exact if_pos h.bits_lt

/-! ### Decimals -/

theorem ofDecimal_zero (negative : Bool) (e : Int) :
    ofDecimal negative 0 e = ofMagnitude negative 0 :=
  if_pos rfl

theorem ofDecimal_natCast {digits k : Nat} (hdigits : digits ≠ 0) (hk : k ≤ 400)
    (negative : Bool) :
    ofDecimal negative digits k =
      (ofQuotient? negative (digits * 10 ^ k) 1).getD (ofMagnitude negative infinityBits) := by
  rw [ofDecimal, if_neg hdigits, if_neg (by omega), if_neg (by omega)]
  simp only [Int.natCast_nonneg, if_true, Int.toNat_natCast]
  rfl

theorem ofDecimal_neg {digits k : Nat} (hdigits : digits ≠ 0) (hk : 0 < k)
    (hlog : 3 * k ≤ Nat.log 2 digits + 1100) (negative : Bool) :
    ofDecimal negative digits (-k) =
      (ofQuotient? negative digits (10 ^ k)).getD (ofMagnitude negative infinityBits) := by
  rw [← Nat.log2_eq_log_two] at hlog
  rw [ofDecimal, if_neg hdigits, if_neg (by omega), if_neg (by omega)]
  simp only [if_neg (show ¬ (0 : Int) ≤ -k by omega), neg_neg, Int.toNat_natCast]
  rfl

/-- A decimal with more zeros behind and a smaller exponent is read alike. -/
theorem ofDecimal_zeros (negative : Bool) {digits k : Nat} (hdigits : digits ≠ 0) (hk : k ≤ 400) :
    ofDecimal negative (digits * 10 ^ (k + 1)) (-1) = ofDecimal negative digits k := by
  have hmany : ofDecimal negative (digits * 10 ^ (k + 1)) (-(1 : Nat)) = _ :=
    ofDecimal_neg (by positivity) one_pos (by omega) negative
  have hscale : ofQuotient? negative (digits * 10 ^ (k + 1)) (10 ^ 1) =
      ofQuotient? negative (digits * 10 ^ k) 1 := by
    rw [pow_one, pow_succ, ← Nat.mul_assoc]
    exact ofQuotient?_mul_right negative _ one_pos (by omega)
  rw [hscale, ← ofDecimal_natCast hdigits hk] at hmany
  exact hmany

theorem Canonical.ofDecimal_integral {k : Nat} (h : Canonical m k) (hm : 0 < m)
    (negative : Bool) :
    ofDecimal negative (m * 2 ^ k) 0 =
      ofMagnitude negative (((k : Int) + 1074).toNat * 2 ^ 52 + m) := by
  have hexact : ((m * 2 ^ k * 10 ^ 0 : Nat) : ℚ) / (1 : Nat) = m * 2 ^ (k : Int) := by
    push_cast
    simp
  have hread : ofDecimal negative (m * 2 ^ k) (0 : Nat) = _ :=
    ofDecimal_natCast (by positivity) (by omega) negative
  rw [ofQuotient?_of_exact h hm one_pos hexact] at hread
  exact hread

/-- A power of two below one is a decimal, because ten is a multiple of two. -/
theorem Canonical.ofDecimal_fraction {k : Nat} (h : Canonical m (-k)) (hm : 0 < m) (hk : 0 < k)
    (negative : Bool) :
    ofDecimal negative (m * 5 ^ k) (-k) =
      ofMagnitude negative ((-(k : Int) + 1074).toNat * 2 ^ 52 + m) := by
  have hexact : ((m * 5 ^ k : Nat) : ℚ) / (10 ^ k : Nat) = m * 2 ^ (-k : Int) := by
    rw [show 10 = 5 * 2 from rfl, mul_pow]
    push_cast
    rw [zpow_neg, zpow_natCast]
    field_simp
  have hlog : 2 * k ≤ Nat.log 2 (m * 5 ^ k) := by
    apply Nat.le_log_of_pow_le one_lt_two
    calc 2 ^ (2 * k) = (2 ^ 2) ^ k := pow_mul 2 2 k
      _ ≤ 5 ^ k := Nat.pow_le_pow_left (by omega) k
      _ ≤ m * 5 ^ k := Nat.le_mul_of_pos_left _ hm
  have hleast := h.exponent_mem.1
  have hread : ofDecimal negative (m * 5 ^ k) (-k) = _ :=
    ofDecimal_neg (by positivity) hk (by omega) negative
  rw [ofQuotient?_of_exact h hm (by positivity) hexact] at hread
  exact hread

end Descent.Binary64
