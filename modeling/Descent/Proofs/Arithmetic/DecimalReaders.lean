import Descent.Proofs.Arithmetic.Number
import Descent.Proofs.Grammar.Result
import Descent.Proofs.Lexeme.Integer

/-!
# Two readers of decimal numbers

A decimal number may be read digit by digit, as expressions do it, or as an integer that happens to
have neither a sign nor the mark of a base.  Both ways depend on the text only through the longest
run of decimal digits at its beginning.  Without a digit there, both fail on the text itself, and a
run that is too long is refused by both with the same count.
-/

namespace Descent

open Text Numeral

variable {src : Text} {ctx : Context}

namespace Grammar

theorem run_integerNumber_of_unmarked
    (hsign : ¬ "-" <+: src) (hmarks : ∀ base ∈ NumeralBase.all, ¬ base.mark <+: src)
    (ctx : Context) : integerNumber.run ctx src = decimalNumber.run ctx src := by
  have hstrip : strip? "-" src = none := by
    cases hstrip : strip? "-" src with
    | none => rfl
    | some rest => exact absurd ⟨rest, (strip?_eq_some_iff.mp hstrip).symm⟩ hsign
  have hunsigned : src.unsigned = src := by simp [unsigned, hstrip]
  have hpositive : sign src = .nothing := by simp [sign, hstrip]
  rw [run_integerNumber, hunsigned, hpositive, run_unsignedInteger_of_no_mark hmarks,
    run_decimalNumber]
  split_ifs <;> rfl

theorem run_integerNumber_of_begins_unmarked
    (h : ∀ mark ∈ (["-", "0b", "0o", "0x"] : List Text), ¬ mark <+: src) (ctx : Context) :
    integerNumber.run ctx src = decimalNumber.run ctx src := by
  apply run_integerNumber_of_unmarked (h "-" (by simp))
  intro base hbase
  simp only [NumeralBase.all, List.mem_cons, List.not_mem_nil, or_false] at hbase
  rcases hbase with rfl | rfl | rfl <;> exact h _ (by simp)

end Grammar

namespace Arithmetic

open Grammar

theorem readers_fail_of_no_digits
    (h : ∀ mark ∈ (["-", "0b", "0o", "0x"] : List Text), ¬ mark <+: src)
    (hnone : src.leadingDigits = []) (defs : Definitions) :
    ∀ g ∈ [number, integerNumber],
      ∃ message, g.ComesTo defs src (.ok (.failure { input := src, message })) := by
  intro g hg
  simp only [List.mem_cons, List.not_mem_nil, or_false] at hg
  rcases hg with rfl | rfl
  · obtain ⟨message, hfail⟩ := run_number_of_no_digits hnone (defs.context 0)
    exact ⟨message, 0, hfail⟩
  · refine ⟨"input did not match regular expression", 0, ?_⟩
    rw [apply, run_integerNumber_of_begins_unmarked h, run_decimalNumber, if_pos hnone]
    rfl

theorem readers_agree_on_digits
    (h : ∀ mark ∈ (["-", "0b", "0o", "0x"] : List Text), ¬ mark <+: src)
    (hsome : src.leadingDigits ≠ []) (defs : Definitions) :
    ∀ g ∈ [number, integerNumber], g.ComesTo defs src
      (if decimalLimit < src.leadingDigits.length then
        .error (.tooManyDigits src.leadingDigits.length)
      else
        .ok (.success (.int (value 10 src.leadingDigits))
          (src.dropWhile (CharSet.ofText Alphabet.decimal)))) := by
  intro g hg
  simp only [List.mem_cons, List.not_mem_nil, or_false] at hg
  rcases hg with rfl | rfl
  · refine ⟨src.length, ?_⟩
    rw [apply, run_number_of_digits hsome (Nat.le_refl src.length)]
    split_ifs <;> rfl
  · refine ⟨0, ?_⟩
    rw [apply, run_integerNumber_of_begins_unmarked h, run_decimalNumber, if_neg hsome]
    split_ifs <;> rfl

/-- On a text that begins neither with a sign nor with the mark of a base, the number of an
expression and the integer are read alike.  Both take the longest run of decimal digits that the text
begins with, and output its value.  If there is none, both fail on the text itself, and if it is too
long, both raise the same fault. -/
theorem number_agrees_with_integerNumber
    (h : ∀ mark ∈ (["-", "0b", "0o", "0x"] : List Text), ¬ mark <+: src) (defs : Definitions) :
    ∃ digits rest, src = digits ++ rest ∧ IsLongestPrefix (Only Alphabet.decimal) digits src ∧
      (digits = [] → ∀ g ∈ [number, integerNumber],
        ∃ message, g.ComesTo defs src (.ok (.failure { input := src, message }))) ∧
      (digits ≠ [] → digits.length ≤ 4300 → ∀ g ∈ [number, integerNumber],
        g.ComesTo defs src (.ok (.success (.int (value 10 digits)) rest))) ∧
      (4300 < digits.length → ∀ g ∈ [number, integerNumber],
        g.ComesTo defs src (.error (.tooManyDigits digits.length))) := by
  refine ⟨src.leadingDigits, _, List.takeWhile_append_dropWhile.symm,
    isLongestPrefix_takeWhile Alphabet.decimal src, ?_, ?_, ?_⟩
  · intro hnone
    exact readers_fail_of_no_digits h hnone defs
  · intro hsome hshort
    have hboth := readers_agree_on_digits h hsome defs
    have hnot : ¬ decimalLimit < src.leadingDigits.length := Nat.not_lt.mpr hshort
    rwa [if_neg hnot] at hboth
  · intro hlong
    have hsome : src.leadingDigits ≠ [] := List.ne_nil_of_length_pos (Nat.zero_lt_of_lt hlong)
    have hboth := readers_agree_on_digits h hsome defs
    have hover : decimalLimit < src.leadingDigits.length := hlong
    rwa [if_pos hover] at hboth

theorem number_agrees_with_integerNumber_zeros :
    (∀ mark ∈ (["-", "0b", "0o", "0x"] : List Text), ¬ mark <+: ("007b1" : Text)) ∧
      ∀ g ∈ [number, integerNumber],
        g.ComesTo [] "007b1" (.ok (.success (.int 7) "b1")) := by
  have hunmarked :
      ∀ mark ∈ (["-", "0b", "0o", "0x"] : List Text), ¬ mark <+: ("007b1" : Text) := by decide
  refine ⟨hunmarked, ?_⟩
  obtain ⟨digits, rest, hsrc, hlongest, -, hsuccess, -⟩ :=
    number_agrees_with_integerNumber hunmarked []
  have hsplit : ("007b1" : Text) = "007" ++ "b1" := rfl
  have hdigits : IsLongestPrefix (Only Alphabet.decimal) "007" "007b1" :=
    ((continuesBy_only _).isLongestPrefix_iff hsplit).mpr (by decide)
  obtain rfl := hlongest.unique hdigits
  obtain rfl : ("b1" : Text) = rest := List.append_cancel_left (hsplit.symm.trans hsrc)
  exact hsuccess (by decide) (by decide)

end Arithmetic

end Descent
