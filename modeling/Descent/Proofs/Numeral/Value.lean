import Descent.Lexeme.Alphabet
import Descent.Pattern
import Descent.Value.Operations
import Mathlib.Data.Nat.Digits.Defs
import Mathlib.Tactic

/-!
# The value of a digit run

Positional notation: a digit counts as often as the base says for each digit behind it.  Reading
a run of digits of the base gives this value, and a run of `n` digits has a value below the
`n`-th power of the base.
-/

namespace Descent

namespace Numeral

/-- The value of a digit, and zero for anything else. -/
def digitValue (c : CodePoint) : Nat := (digit? c).getD 0

def value (base : Nat) (t : Text) : Nat := Nat.ofDigits base (t.reverse.map digitValue)

/-- A text of digits that the base has. -/
def DigitsOf (base : Nat) (t : Text) : Prop := ∀ c ∈ t, (digitIn? base c).isSome

variable {base : Nat}

theorem value_append (base : Nat) (t u : Text) :
    value base (t ++ u) = value base t * base ^ u.length + value base u := by
  simp only [value, List.reverse_append, List.map_append, Nat.ofDigits_append, List.length_map,
    List.length_reverse]
  ring

theorem digitIn?_eq_some_digitValue
    {c : CodePoint} (h : (digitIn? base c).isSome) :
    digitIn? base c = some (digitValue c) ∧ digitValue c < base := by
  obtain ⟨d, hd⟩ := Option.isSome_iff_exists.mp h
  have hparts : digit? c = some d ∧ d < base := by
    simpa [digitIn?, Option.filter_eq_some_iff] using hd
  have hvalue : digitValue c = d := by simp [digitValue, hparts.1]
  rw [hvalue]
  exact ⟨hd, hparts.2⟩

theorem continue?_eq_some
    {t : Text} (h : DigitsOf base t) (start : Nat) :
    continue? base start t = some (start * base ^ t.length + value base t) := by
  induction t generalizing start with
  | nil => simp [continue?, value]
  | cons c t ih =>
      have hc := digitIn?_eq_some_digitValue (h c (by simp))
      have ht : DigitsOf base t := fun x hx => h x (by simp [hx])
      have hvalue :
          value base (c :: t) = value base t + digitValue c * base ^ t.length := by
        simp [value, Nat.ofDigits_append, Nat.mul_comm]
      rw [continue?, hc.1]
      simp only [ih ht, hvalue, List.length_cons, pow_succ]
      congr 1
      ring

theorem read?_eq_some_value
    {t : Text} (hne : t ≠ []) (h : DigitsOf base t) :
    read? base t = some (value base t) := by
  rw [read?, if_neg (by simpa using hne), continue?_eq_some h]
  simp

theorem value_lt
    {t : Text} (hbase : 1 < base) (h : DigitsOf base t) :
    value base t < base ^ t.length := by
  have hdigits : ∀ d ∈ t.reverse.map digitValue, d < base := by
    intro d hd
    simp only [List.mem_map, List.mem_reverse] at hd
    obtain ⟨c, hc, rfl⟩ := hd
    exact (digitIn?_eq_some_digitValue (h c hc)).2
  simpa [value] using Nat.ofDigits_lt_base_pow_length hbase hdigits

end Numeral

namespace Alphabet

theorem mem_decimal_iff (c : CodePoint) :
    c ∈ decimal ↔ (Numeral.digitIn? 10 c).isSome := by
  rcases c with ⟨n, hn⟩
  simp only [Numeral.digitIn?, Numeral.digit?]
  simp [decimal, Text.ofString, CodePoint.ofChar]
  split_ifs <;> simp <;> omega

theorem digits_iff_mem_decimal (c : CodePoint) : CharSet.digits c = true ↔ c ∈ decimal := by
  rcases c with ⟨n, hn⟩
  rw [CharSet.digits, CharSet.range, Bool.and_eq_true, decide_eq_true_iff, decide_eq_true_iff]
  simp [decimal, Text.ofString, CodePoint.ofChar]
  omega

theorem mem_hexadecimal_iff (c : CodePoint) :
    c ∈ hexadecimal ↔ (Numeral.digitIn? 16 c).isSome := by
  rcases c with ⟨n, hn⟩
  simp only [Numeral.digitIn?, Numeral.digit?]
  simp [hexadecimal, Text.ofString, CodePoint.ofChar]
  split_ifs <;> simp <;> omega

end Alphabet

namespace Value

variable {digits : Text}

theorem positional_of_digits
    {base : Nat} (hne : digits ≠ []) (hdigits : Numeral.DigitsOf base digits) :
    positional base (.text digits) = .ok (.int (Numeral.value base digits)) := by
  simp only [positional, Numeral.read?_eq_some_value hne hdigits]

theorem decimal_of_digits
    (hne : digits ≠ []) (hdigits : ∀ c ∈ digits, c ∈ Alphabet.decimal) :
    decimal (.text digits) =
      if Numeral.decimalLimit < digits.length then .error (.tooManyDigits digits.length)
      else .ok (.int (Numeral.value 10 digits)) := by
  rw [decimal, positional_of_digits hne fun c hc => (Alphabet.mem_decimal_iff c).mp (hdigits c hc)]

end Value

end Descent
