import Descent.Arithmetic.Expression
import Descent.Proofs.Lexeme.Characters
import Descent.Proofs.Numeral.Value
import Descent.Proofs.Parser.Fault
import Descent.Proofs.Text.LongestPrefix

/-!
# Decimal numbers read digit by digit

A number is read one digit at a time, by a choice between the ten digits that is repeated as
often as possible.  The result is the value of the longest digit run at the start of the input.
Without a digit there the choice fails on the input itself, and too long a run is refused.
-/

namespace Descent.Arithmetic

open Grammar

/-- No run of decimal digits is longer than a numeral may be. -/
def ShortDigitRuns (src : Text) : Prop :=
  ∀ digits, digits <:+: src → (∀ c ∈ digits, c ∈ Alphabet.decimal) →
    digits.length ≤ Numeral.decimalLimit

theorem ShortDigitRuns.of_infix
    {src part : Text} (h : ShortDigitRuns src) (hpart : part <:+: src) :
    ShortDigitRuns part :=
  fun digits hdigits => h digits (hdigits.trans hpart)

theorem shortDigitRuns_of_length_le
    {src : Text} (h : src.length ≤ Numeral.decimalLimit) : ShortDigitRuns src :=
  fun _ hpart _ => hpart.length_le.trans h

theorem run_number_of_notMem
    {src : Text} (h : ∀ c ∈ src.head?, c ∉ Alphabet.decimal) (ctx : Context) :
    ∃ message, number.run ctx src = Parser.failWith message src := by
  have hcs : Alphabet.decimal ≠ [] := by decide
  obtain ⟨message, hfail⟩ := run_oneOrMore_characters_of_notMem hcs h ctx
  refine ⟨message, ?_⟩
  simp [number, digit, run, Parser.map, hfail, Parser.failWith]

theorem run_number_of_mem
    {src rest : Text} {c : CodePoint} (hsrc : src = c :: rest) (hc : c ∈ Alphabet.decimal)
    {ctx : Context} (hlimit : src.length ≤ ctx.limit) :
    number.run ctx src =
      let digits := src.takeWhile (CharSet.ofText Alphabet.decimal)
      if Numeral.decimalLimit < digits.length then .raised (.tooManyDigits digits.length)
      else .returned (.success (.int (Numeral.value 10 digits))
        (src.dropWhile (CharSet.ofText Alphabet.decimal))) := by
  have hrun := run_oneOrMore_characters_of_mem hsrc hc hlimit
  have hjoin := Value.join_map_singleton (src.takeWhile (CharSet.ofText Alphabet.decimal))
  have hne : src.takeWhile (CharSet.ofText Alphabet.decimal) ≠ [] := by
    simp [hsrc, CharSet.ofText, hc]
  have hdecimal := Value.decimal_of_digits hne (Text.only_takeWhile Alphabet.decimal src)
  simp only [number, digit, run, Parser.map, hrun, Outcome.returned_bind, hjoin, Except.bind,
    hdecimal]
  split <;> simp

/-! ### The digits at the beginning of a text -/

variable {src : Text} {ctx : Context}

theorem ShortDigitRuns.length_leadingDigits_le (h : ShortDigitRuns src) :
    src.leadingDigits.length ≤ Numeral.decimalLimit :=
  h _ (List.takeWhile_prefix _).isInfix (Text.only_takeWhile Alphabet.decimal src)

theorem leadingDigits_eq_nil_iff :
    src.leadingDigits = [] ↔ ∀ c ∈ src.head?, c ∉ Alphabet.decimal := by
  cases src <;> simp [Text.leadingDigits, CharSet.ofText]

theorem run_number_of_no_digits (h : src.leadingDigits = []) (ctx : Context) :
    ∃ message, number.run ctx src = Parser.failWith message src :=
  run_number_of_notMem (leadingDigits_eq_nil_iff.mp h) ctx

theorem run_number_of_digits (h : src.leadingDigits ≠ []) (hlimit : src.length ≤ ctx.limit) :
    number.run ctx src =
      if Numeral.decimalLimit < src.leadingDigits.length then
        .raised (.tooManyDigits src.leadingDigits.length)
      else
        .returned (.success (.int (Numeral.value 10 src.leadingDigits))
          (src.dropWhile (CharSet.ofText Alphabet.decimal))) := by
  cases src with
  | nil => contradiction
  | cons c rest =>
      have hc : c ∈ Alphabet.decimal := by
        by_contra hc
        exact h (leadingDigits_eq_nil_iff.mpr (by simpa using hc))
      exact run_number_of_mem rfl hc hlimit

end Descent.Arithmetic
