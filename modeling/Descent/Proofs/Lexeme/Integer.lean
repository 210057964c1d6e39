import Descent.Lexeme.Integer
import Descent.Proofs.Lexeme.Blank
import Descent.Proofs.Numeral.Value
import Descent.Proofs.Parser.Choice
import Descent.Proofs.Parser.Fault

/-!
# Reading integers

An integer may have a sign, and then either a prefix and digits of its base or decimal digits.  A
prefix decides for its base.  Only decimal digits can be too many, and they are exactly if the
longest run of them behind the sign is too long for a numeral.
-/

namespace Descent

/-- What follows a sign, or the whole text if there is none. -/
def Text.unsigned (t : Text) : Text := (Text.strip? "-" t).getD t

/-- What the sign of a text multiplies by. -/
def Text.signum (t : Text) : Int := if (Text.strip? "-" t).isSome then -1 else 1

theorem Text.unsigned_minus (t : Text) : unsigned ('-' :: t) = t := rfl

theorem Text.unsigned_suffix (t : Text) : t.unsigned <:+ t := by
  unfold unsigned
  cases hstrip : strip? "-" t with
  | none => exact List.suffix_refl t
  | some rest => exact ⟨"-", (strip?_eq_some_iff.mp hstrip).symm⟩

namespace Grammar

open Numeral

variable {base : NumeralBase} {ctx : Context} {src rest : Text}

/-! ### Digits -/

theorem mem_decimal_of_mem_leadingDigits {c : CodePoint} (h : c ∈ src.leadingDigits) :
    c ∈ Alphabet.decimal :=
  Text.only_takeWhile Alphabet.decimal src c h

theorem mem_digits_iff (hbase : base ∈ NumeralBase.all) (c : CodePoint) :
    c ∈ base.digits ↔ (digitIn? base.radix c).isSome := by
  rcases c with ⟨n, hn⟩
  simp only [NumeralBase.all, List.mem_cons, List.not_mem_nil, or_false] at hbase
  rcases hbase with rfl | rfl | rfl
  all_goals
    simp only [digitIn?, digit?]
    simp [Alphabet.binary, Alphabet.octal, Alphabet.hexadecimal, Text.ofString, CodePoint.ofChar]
    split_ifs <;> simp <;> omega

theorem run_decimalNumber (ctx : Context) (src : Text) :
    decimalNumber.run ctx src =
      if src.leadingDigits = [] then
        Parser.failWith "input did not match regular expression" src
      else if decimalLimit < src.leadingDigits.length then
        .raised (.tooManyDigits src.leadingDigits.length)
      else
        .returned (.success (.int (value 10 src.leadingDigits))
          (src.dropWhile (CharSet.ofText Alphabet.decimal))) := by
  have hdigits := fun c (hc : c ∈ src.leadingDigits) => mem_decimal_of_mem_leadingDigits hc
  simp only [decimalNumber, run, Parser.map, run_someOf]
  unfold Text.leadingDigits at *
  split_ifs with hnone hlong
  · rfl
  · simp [Value.decimal_of_digits hnone hdigits, hlong]
  · simp [Value.decimal_of_digits hnone hdigits, hlong]

theorem run_digitsOf (hbase : base ∈ NumeralBase.all) (ctx : Context) (src : Text) :
    (digitsOf base).run ctx src =
      if src.takeWhile (CharSet.ofText base.digits) = [] then
        Parser.failWith ("expected " ++ ("a " ++ base.kind ++ " digit after " ++ base.mark)) src
      else
        .returned (.success
          (.int (value base.radix (src.takeWhile (CharSet.ofText base.digits))))
          (src.dropWhile (CharSet.ofText base.digits))) := by
  have hdigits : DigitsOf base.radix (src.takeWhile (CharSet.ofText base.digits)) := by
    intro c hc
    apply (mem_digits_iff hbase c).mp
    exact Text.only_takeWhile base.digits src c hc
  simp only [digitsOf, run, Parser.map, Parser.expect, run_someOf]
  split_ifs with hnone
  · simp [Parser.failWith]
  · simp [Value.positional_of_digits hnone hdigits]

/-! ### Prefixes -/

theorem run_unsignedInteger_of_mark
    (hbase : base ∈ NumeralBase.all) (rest : Text) (ctx : Context) :
    unsignedInteger.run ctx (base.mark ++ rest) = (digitsOf base).run ctx rest := by
  simp only [NumeralBase.all, List.mem_cons, List.not_mem_nil, or_false] at hbase
  rcases hbase with rfl | rfl | rfl <;> rfl

theorem run_unsignedInteger_of_no_mark
    (h : ∀ base ∈ NumeralBase.all, ¬ base.mark <+: src) (ctx : Context) :
    unsignedInteger.run ctx src = decimalNumber.run ctx src := by
  simp only [NumeralBase.all, List.forall_mem_cons] at h
  obtain ⟨hbinary, hoctal, hhexadecimal, -⟩ := h
  simp [unsignedInteger, optional, run, runAll, NumeralBase.all, Parser.flatMap, Parser.oneOf,
    Parser.literal_of_not_prefix hbinary, Parser.literal_of_not_prefix hoctal,
    Parser.literal_of_not_prefix hhexadecimal, Parser.failWith, Parser.nothing, digitsAfter]

theorem length_leadingDigits_of_mark (hbase : base ∈ NumeralBase.all) (rest : Text) :
    (base.mark ++ rest).leadingDigits.length = 1 := by
  simp only [NumeralBase.all, List.mem_cons, List.not_mem_nil, or_false] at hbase
  rcases hbase with rfl | rfl | rfl <;> rfl

theorem exists_mark_or (src : Text) :
    (∃ base ∈ NumeralBase.all, ∃ rest, src = base.mark ++ rest) ∨
      ∀ base ∈ NumeralBase.all, ¬ base.mark <+: src := by
  by_cases h : ∃ base ∈ NumeralBase.all, base.mark <+: src
  · obtain ⟨base, hbase, rest, hsrc⟩ := h
    exact .inl ⟨base, hbase, rest, hsrc.symm⟩
  · exact .inr fun base hbase hmark => h ⟨base, hbase, hmark⟩

theorem exists_reply_unsignedInteger
    (h : src.leadingDigits.length ≤ decimalLimit) (ctx : Context) :
    (∃ f, unsignedInteger.run ctx src = .returned (.failure f)) ∨
      ∃ (n : Int) (rest : Text), unsignedInteger.run ctx src = .returned (.success (.int n) rest) := by
  rcases exists_mark_or src with ⟨base, hbase, rest, rfl⟩ | hnone
  · rw [run_unsignedInteger_of_mark hbase, run_digitsOf hbase]
    split_ifs
    · exact .inl ⟨_, rfl⟩
    · exact .inr ⟨_, _, rfl⟩
  · rw [run_unsignedInteger_of_no_mark hnone, run_decimalNumber, if_neg (Nat.not_lt.mpr h)]
    split_ifs
    · exact .inl ⟨_, rfl⟩
    · exact .inr ⟨_, _, rfl⟩

theorem run_unsignedInteger_of_overlong
    (h : decimalLimit < src.leadingDigits.length) (ctx : Context) :
    unsignedInteger.run ctx src = .raised (.tooManyDigits src.leadingDigits.length) := by
  rcases exists_mark_or src with ⟨base, hbase, rest, rfl⟩ | hnone
  · rw [length_leadingDigits_of_mark hbase] at h
    exact absurd h (by decide)
  · have hne : src.leadingDigits ≠ [] := List.ne_nil_of_length_pos (Nat.zero_lt_of_lt h)
    rw [run_unsignedInteger_of_no_mark hnone, run_decimalNumber, if_neg hne, if_pos h]

/-! ### Signs -/

/-- What the sign of a text is read as. -/
def sign (src : Text) : Value := if (Text.strip? "-" src).isSome then .text "-" else .nothing

theorem applySign_sign (src : Text) (n : Int) :
    applySign (.list [sign src, .int n]) = .ok (.int (src.signum * n)) := by
  unfold sign Text.signum
  split_ifs
  · rw [neg_one_mul]
    rfl
  · rw [one_mul]
    rfl

theorem run_sign (ctx : Context) (src : Text) :
    (literal "-").optional.run ctx src = .returned (.success (sign src) src.unsigned) := by
  simp only [optional, run, runAll, sign, Text.unsigned, Parser.oneOf]
  cases hstrip : Text.strip? "-" src with
  | none => simp [Parser.literal, hstrip, Parser.failWith, Parser.nothing]
  | some rest => simp [Parser.literal, hstrip]

theorem run_integerNumber (ctx : Context) (src : Text) :
    integerNumber.run ctx src = do
      match ← unsignedInteger.run ctx src.unsigned with
      | .failure f => return .failure f
      | .success v rest =>
          return .success (← .ofExcept (applySign (.list [sign src, v]))) rest := by
  have hsign := run_sign ctx src
  simp only [integerNumber, run, runAll, Parser.map, Parser.sequence, Parser.collect, hsign,
    Outcome.returned_bind]
  cases hunsigned : unsignedInteger.run ctx src.unsigned with
  | returned r =>
      cases r with
      | success v rest => simp
      | failure f => simp
  | raised fault => simp
  | exhausted => simp

theorem run_integerNumber_of_failure {f : Failure}
    (h : unsignedInteger.run ctx src.unsigned = .returned (.failure f)) :
    integerNumber.run ctx src = .returned (.failure f) := by
  rw [run_integerNumber, h]
  rfl

theorem run_integerNumber_of_success {n : Int}
    (h : unsignedInteger.run ctx src.unsigned = .returned (.success (.int n) rest)) :
    integerNumber.run ctx src = .returned (.success (.int (src.signum * n)) rest) := by
  rw [run_integerNumber, h]
  simp [applySign_sign]

theorem run_integerNumber_of_overlong
    (h : decimalLimit < src.unsigned.leadingDigits.length) (ctx : Context) :
    integerNumber.run ctx src = .raised (.tooManyDigits src.unsigned.leadingDigits.length) := by
  rw [run_integerNumber, run_unsignedInteger_of_overlong h, Outcome.raised_bind]

theorem exists_reply_integerNumber
    (h : src.unsigned.leadingDigits.length ≤ decimalLimit) (ctx : Context) :
    ∃ r, integerNumber.run ctx src = .returned r := by
  rcases exists_reply_unsignedInteger h ctx with ⟨f, hfail⟩ | ⟨n, rest, hsuccess⟩
  · exact ⟨.failure f, run_integerNumber_of_failure hfail⟩
  · exact ⟨.success (.int (src.signum * n)) rest, run_integerNumber_of_success hsuccess⟩

theorem integerNumber_raises_iff {fault : Fault} :
    integerNumber.run ctx src = .raised fault ↔
      decimalLimit < src.unsigned.leadingDigits.length ∧
        fault = .tooManyDigits src.unsigned.leadingDigits.length := by
  constructor
  · intro h
    by_cases hlong : decimalLimit < src.unsigned.leadingDigits.length
    · obtain rfl : _ = fault := by simpa [run_integerNumber_of_overlong hlong] using h
      exact ⟨hlong, rfl⟩
    · obtain ⟨r, hr⟩ := exists_reply_integerNumber (Nat.not_lt.mp hlong) ctx
      simp [hr] at h
  · rintro ⟨hlong, rfl⟩
    exact run_integerNumber_of_overlong hlong ctx

end Grammar

end Descent
