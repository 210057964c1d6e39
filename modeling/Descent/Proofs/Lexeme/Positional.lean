import Descent.Grammar.Definitions
import Descent.Proofs.Lexeme.Integer
import Descent.Proofs.Numeral.Written

/-!
# Integers in positional notation

An integer is read as its sign says and as the digits say that follow the sign.  A mark of a base
settles the base, and the longest run of digits of that base is the number.  Without a mark the
digits are decimal and must not be too many.  Hence the written form of an integer is read back
in front of every text that does not go on with it: a digit of the base would go on, and behind
the decimal zero also a letter that makes a mark of it.
-/

namespace Descent

namespace Numeral

/-- A mark, what the digits behind it are called, and the base that it names. -/
inductive Marks : (mark kind : Text) → (base : Nat) → Prop
  | binary : Marks "0b" "binary" 2
  | octal : Marks "0o" "octal" 8
  | hexadecimal : Marks "0x" "hexadecimal" 16

/-- The longest run of digits of the base that a text begins with. -/
def digitRun (base : Nat) (t : Text) : Text := t.takeWhile fun c => (digitIn? base c).isSome

def pastDigits (base : Nat) (t : Text) : Text := t.dropWhile fun c => (digitIn? base c).isSome

variable {mark kind t d : Text} {base : Nat}

theorem Marks.base_bounds (h : Marks mark kind base) : 1 < base ∧ base ≤ 16 := by
  cases h <;> decide

/-- A mark is a zero and a letter that is no decimal digit. -/
theorem Marks.exists_letter (h : Marks mark kind base) :
    ∃ letter : CodePoint, mark = [CodePoint.ofChar '0', letter] ∧ digitIn? 10 letter = none := by
  cases h with
  | binary => exact ⟨'b', rfl, by decide⟩
  | octal => exact ⟨'o', rfl, by decide⟩
  | hexadecimal => exact ⟨'x', rfl, by decide⟩

theorem digitRun_append (h : DigitsOf base d) (t : Text) :
    digitRun base (d ++ t) = d ++ digitRun base t :=
  List.takeWhile_append_of_pos h

theorem pastDigits_append (h : DigitsOf base d) (t : Text) :
    pastDigits base (d ++ t) = pastDigits base t :=
  List.dropWhile_append_of_pos h

theorem length_pastDigits_le (base : Nat) (t : Text) : (pastDigits base t).length ≤ t.length :=
  (List.dropWhile_suffix _).length_le

theorem digitRun_eq_nil (h : ∀ c ∈ t.head?, digitIn? base c = none) : digitRun base t = [] := by
  cases t with
  | nil => rfl
  | cons c t => simp [digitRun, h c rfl]

theorem pastDigits_eq_self_iff :
    pastDigits base t = t ↔ ∀ c ∈ t.head?, digitIn? base c = none := by
  rw [pastDigits, List.dropWhile_eq_self_iff]
  cases t <;> simp

/-- Behind the digits of a number, a mark of a base can only begin in the decimal zero. -/
theorem Marks.of_prefix_digits {n : Nat} (h : Marks mark kind base)
    (hbegins : mark <+: digits 10 n ++ t) : n = 0 ∧ mark <+: CodePoint.ofChar '0' :: t := by
  obtain ⟨letter, rfl, hletter⟩ := h.exists_letter
  have hsingle : (digits 10 n).length ≤ 1 := by
    by_contra hmany
    -- Two digits or more would have the letter of the mark among them.
    have hinside : [CodePoint.ofChar '0', letter] <+: digits 10 n := by
      apply List.prefix_of_prefix_length_le hbegins (List.prefix_append _ t)
      simpa [Nat.succ_le_iff] using hmany
    have hdigit := digitsOf_digits (by decide) (by decide) n letter (hinside.subset (by simp))
    simp [hletter] at hdigit
  have hlt : n < 10 := by
    simpa [digits, Nat.length_toDigits_le_iff] using hsingle
  rw [digits_of_lt hlt, List.singleton_append, List.cons_prefix_cons] at hbegins
  have hzero : some 0 = some n := by
    rw [← digit?_digitChar n (by omega), ← hbegins.1]
    rfl
  obtain rfl : 0 = n := by simpa using hzero
  exact ⟨rfl, List.cons_prefix_cons.mpr ⟨rfl, hbegins.2⟩⟩

end Numeral

namespace NumeralBase

open Numeral

variable {mark kind : Text} {radix : Nat}

theorem exists_of_marks (h : Marks mark kind radix) :
    ∃ base ∈ all, base.mark = mark ∧ base.kind = kind ∧ base.radix = radix := by
  cases h with
  | binary => exact ⟨_, .head _, rfl, rfl, rfl⟩
  | octal => exact ⟨_, .tail _ (.head _), rfl, rfl, rfl⟩
  | hexadecimal => exact ⟨_, .tail _ (.tail _ (.head _)), rfl, rfl, rfl⟩

theorem marks_of_mem {base : NumeralBase} (h : base ∈ all) :
    Marks base.mark base.kind base.radix := by
  simp only [all, List.mem_cons, List.not_mem_nil, or_false] at h
  rcases h with rfl | rfl | rfl
  · exact .binary
  · exact .octal
  · exact .hexadecimal

end NumeralBase

/-! ### Signs -/

namespace Text

variable {body : Text}

theorem strip?_minus_of_head (h : ∀ c ∈ body.head?, c ≠ CodePoint.ofChar '-') :
    strip? "-" body = none := by
  cases body with
  | nil => rfl
  | cons c body =>
      have hc : CodePoint.ofChar '-' ≠ c := (h c rfl).symm
      exact if_neg hc

theorem unsigned_sign_append (h : ∀ c ∈ body.head?, c ≠ CodePoint.ofChar '-') (n : Int) :
    unsigned ((if n < 0 then ("-" : Text) else []) ++ body) = body := by
  split_ifs
  · rfl
  · simp [unsigned, strip?_minus_of_head h]

theorem signum_sign_append (h : ∀ c ∈ body.head?, c ≠ CodePoint.ofChar '-') (n : Int) :
    signum ((if n < 0 then ("-" : Text) else []) ++ body) * (n.natAbs : Int) = n := by
  split_ifs with hn
  · have hminus : signum ("-" ++ body) = -1 := rfl
    rw [hminus]
    omega
  · simp only [List.nil_append, signum, strip?_minus_of_head h]
    simp
    omega

end Text

namespace Grammar

open Numeral

variable {mark kind src tail : Text} {base : Nat} {ctx : Context}

theorem ofText_digits {b : NumeralBase} (h : b ∈ NumeralBase.all) :
    CharSet.ofText b.digits = fun c => (digitIn? b.radix c).isSome := by
  funext c
  rw [Bool.eq_iff_iff, ← mem_digits_iff h c]
  simp [CharSet.ofText]

theorem ofText_decimal : CharSet.ofText Alphabet.decimal = fun c => (digitIn? 10 c).isSome := by
  funext c
  rw [Bool.eq_iff_iff, ← Alphabet.mem_decimal_iff c]
  simp [CharSet.ofText]

theorem leadingDigits_eq_digitRun (t : Text) : t.leadingDigits = digitRun 10 t := by
  rw [Text.leadingDigits, ofText_decimal, digitRun]

/-! ### Reading -/

/-- What reading the digits of a base comes to, with a sign in front of them.  A failure says that
there are none. -/
def readDigits (sign : Int) (base : Nat) (message t : Text) : Outcome Reply :=
  if digitRun base t = [] then .returned (.failure { input := t, message })
  else .returned (.success (.int (sign * value base (digitRun base t))) (pastDigits base t))

theorem run_integerNumber_of_marks
    (h : Marks mark kind base) (hsrc : src.unsigned = mark ++ tail) (ctx : Context) :
    integerNumber.run ctx src =
      readDigits src.signum base ("expected a " ++ kind ++ " digit after " ++ mark) tail := by
  obtain ⟨b, hb, rfl, rfl, rfl⟩ := NumeralBase.exists_of_marks h
  have hunsigned := run_unsignedInteger_of_mark hb tail ctx
  rw [← hsrc, run_digitsOf hb, ofText_digits hb, ← digitRun, ← pastDigits] at hunsigned
  unfold readDigits
  split_ifs at hunsigned ⊢
  · exact run_integerNumber_of_failure hunsigned
  · exact run_integerNumber_of_success hunsigned

theorem run_integerNumber_of_no_marks
    (h : ∀ mark kind base, Marks mark kind base → ¬ mark <+: src.unsigned) (ctx : Context) :
    integerNumber.run ctx src =
      if decimalLimit < (digitRun 10 src.unsigned).length then
        .raised (.tooManyDigits (digitRun 10 src.unsigned).length)
      else
        readDigits src.signum 10 "input did not match regular expression" src.unsigned := by
  have hnone : ∀ b ∈ NumeralBase.all, ¬ b.mark <+: src.unsigned :=
    fun b hb => h _ _ _ (NumeralBase.marks_of_mem hb)
  have hunsigned := run_unsignedInteger_of_no_mark hnone ctx
  rw [run_decimalNumber, leadingDigits_eq_digitRun, ofText_decimal, ← pastDigits] at hunsigned
  split_ifs with hlong
  · rw [← leadingDigits_eq_digitRun] at hlong ⊢
    exact run_integerNumber_of_overlong hlong ctx
  · unfold readDigits
    split_ifs at hunsigned ⊢
    · exact run_integerNumber_of_failure hunsigned
    · exact run_integerNumber_of_success hunsigned

/-! ### Writing and reading back -/

variable {d rest : Text} {n : Int}

theorem readDigits_append {sign : Int} (hd : DigitsOf base d) (hne : d ≠ []) (message : Text) :
    readDigits sign base message (d ++ rest) =
      .returned (.success (.int (sign * value base (d ++ digitRun base rest)))
        (pastDigits base rest)) := by
  have hrun : d ++ digitRun base rest ≠ [] := by simp [hne]
  rw [readDigits, digitRun_append hd, pastDigits_append hd, if_neg hrun]

theorem readDigits_digits_eq_iff
    {sign : Int} (hbase : 1 < base) (hbase' : base ≤ 16) (hsign : sign * (n.natAbs : Int) = n)
    (message : Text) :
    readDigits sign base message (digits base n.natAbs ++ rest) =
        .returned (.success (.int n) rest) ↔
      ∀ c ∈ rest.head?, digitIn? base c = none := by
  rw [readDigits_append (digitsOf_digits hbase hbase' _) (digits_ne_nil _ _),
    ← pastDigits_eq_self_iff]
  constructor
  · intro h
    simp only [Outcome.returned.injEq, Reply.success.injEq] at h
    exact h.2
  · intro hrest
    have hnone := digitRun_eq_nil (pastDigits_eq_self_iff.mp hrest)
    rw [hrest, hnone, List.append_nil, value_digits hbase hbase', hsign]

theorem head_of_marks (h : Marks mark kind base) (rest : Text) :
    ∀ c ∈ (mark ++ rest).head?, c ≠ CodePoint.ofChar '-' := by
  obtain ⟨letter, rfl, -⟩ := h.exists_letter
  intro c hc
  obtain rfl : CodePoint.ofChar '0' = c := by simpa using hc
  decide

theorem head_of_digits (m : Nat) (rest : Text) :
    ∀ c ∈ (digits 10 m ++ rest).head?, c ≠ CodePoint.ofChar '-' := by
  rw [List.head?_append_of_ne_nil _ (digits_ne_nil 10 m)]
  rintro c hc rfl
  have hdigit := digitsOf_digits (by decide) (by decide) m _ (List.mem_of_mem_head? hc)
  exact absurd hdigit (by decide)

theorem run_integerNumber_written_iff (h : Marks mark kind base) (ctx : Context) :
    integerNumber.run ctx (written mark base n ++ rest) = .returned (.success (.int n) rest) ↔
      ∀ c ∈ rest.head?, digitIn? base c = none := by
  have hhead := head_of_marks h (digits base n.natAbs ++ rest)
  rw [written, List.append_assoc, List.append_assoc,
    run_integerNumber_of_marks h (Text.unsigned_sign_append hhead n)]
  exact readDigits_digits_eq_iff h.base_bounds.1 h.base_bounds.2 (Text.signum_sign_append hhead n) _

theorem readDigits_ne_of_length_lt {sign : Int} {message t : Text} {v : Value}
    (h : t.length < rest.length) :
    readDigits sign base message t ≠ .returned (.success v rest) := by
  intro heq
  have hle := length_pastDigits_le base t
  unfold readDigits at heq
  split_ifs at heq
  · simp at heq
  · simp only [Outcome.returned.injEq, Reply.success.injEq] at heq
    rw [heq.2] at hle
    omega

/-- A letter that makes a mark of the decimal zero is not left over. -/
theorem run_integerNumber_zero_ne
    (h : Marks mark kind base) (hbegins : mark <+: CodePoint.ofChar '0' :: rest) (v : Value)
    (ctx : Context) :
    integerNumber.run ctx (CodePoint.ofChar '0' :: rest) ≠ .returned (.success v rest) := by
  obtain ⟨letter, hletter, -⟩ := h.exists_letter
  obtain ⟨tail, htail⟩ := hbegins
  have hrest : rest = letter :: tail := by
    rw [hletter] at htail
    exact (List.cons.inj htail).2.symm
  have hunsigned : Text.unsigned (CodePoint.ofChar '0' :: rest) = mark ++ tail := htail.symm
  rw [run_integerNumber_of_marks h hunsigned]
  apply readDigits_ne_of_length_lt
  simp [hrest]

theorem run_integerNumber_ofInt_iff_of_no_marks
    (hlength : (digits 10 n.natAbs).length ≤ decimalLimit)
    (hnone : ∀ mark kind base, Marks mark kind base → ¬ mark <+: digits 10 n.natAbs ++ rest)
    (ctx : Context) :
    integerNumber.run ctx (Text.ofInt n ++ rest) = .returned (.success (.int n) rest) ↔
      ∀ c ∈ rest.head?, digitIn? 10 c = none := by
  have hhead := head_of_digits n.natAbs rest
  have hunsigned := Text.unsigned_sign_append hhead n
  have hdigits : DigitsOf 10 (digits 10 n.natAbs) :=
    digitsOf_digits (by decide) (by decide) n.natAbs
  rw [ofInt_eq_written, written, List.nil_append, List.append_assoc,
    run_integerNumber_of_no_marks (by rwa [hunsigned]), hunsigned, digitRun_append hdigits]
  -- The digits of `n` are few enough, so if there are too many, some of them are in the rest.
  by_cases hlong : decimalLimit < (digits 10 n.natAbs ++ digitRun 10 rest).length
  · rw [if_pos hlong]
    constructor
    · intro heq
      simp at heq
    · intro hrest
      rw [digitRun_eq_nil hrest, List.append_nil] at hlong
      omega
  · rw [if_neg hlong]
    have hsign := Text.signum_sign_append hhead n
    exact readDigits_digits_eq_iff (by decide : 1 < 10) (by decide) hsign _

theorem run_integerNumber_ofInt_iff
    (hlength : (digits 10 n.natAbs).length ≤ decimalLimit) (ctx : Context) :
    integerNumber.run ctx (Text.ofInt n ++ rest) = .returned (.success (.int n) rest) ↔
      (∀ c ∈ rest.head?, digitIn? 10 c = none) ∧
        (n = 0 → ∀ mark kind base, Marks mark kind base → ¬ mark <+: CodePoint.ofChar '0' :: rest) := by
  by_cases hmark : ∃ mark kind base, Marks mark kind base ∧ mark <+: digits 10 n.natAbs ++ rest
  · obtain ⟨mark, kind, base, hmarks, hbegins⟩ := hmark
    obtain ⟨hzero, hbegins'⟩ := hmarks.of_prefix_digits hbegins
    obtain rfl : n = 0 := Int.natAbs_eq_zero.mp hzero
    have hne := run_integerNumber_zero_ne hmarks hbegins' (.int 0) ctx
    constructor
    · intro heq
      exact absurd heq hne
    · intro hrest
      exact absurd hbegins' (hrest.2 rfl _ _ _ hmarks)
  · have hnone : ∀ mark kind base, Marks mark kind base →
        ¬ mark <+: digits 10 n.natAbs ++ rest := by
      intro mark kind base hmarks hbegins
      exact hmark ⟨mark, kind, base, hmarks, hbegins⟩
    have hzero : n = 0 → ∀ mark kind base, Marks mark kind base →
        ¬ mark <+: CodePoint.ofChar '0' :: rest := by
      rintro rfl
      exact hnone
    rw [run_integerNumber_ofInt_iff_of_no_marks hlength hnone, and_iff_left hzero]

/-- An integer is read as its sign, its mark and its digits say.  A mark is binding: without a digit
of its base behind it there is no integer.  Decimal digits must not be more than a numeral may have.
An integer that is written in some base is read back in front of a text exactly if the text does not
go on with the number. -/
theorem integerNumber_reads_positional (defs : Definitions) (limit : Nat) :
    (∀ src : Text,
      (∀ mark kind base tail, Marks mark kind base → src.unsigned = mark ++ tail →
        integerNumber.apply defs limit src =
          readDigits src.signum base ("expected a " ++ kind ++ " digit after " ++ mark) tail) ∧
      ((∀ mark kind base, Marks mark kind base → ¬ mark <+: src.unsigned) →
        integerNumber.apply defs limit src =
          if 4300 < (digitRun 10 src.unsigned).length then
            .raised (.tooManyDigits (digitRun 10 src.unsigned).length)
          else
            readDigits src.signum 10 "input did not match regular expression" src.unsigned)) ∧
    ∀ (n : Int) (rest : Text),
      (∀ mark kind base, Marks mark kind base →
        (integerNumber.apply defs limit (written mark base n ++ rest) =
            .returned (.success (.int n) rest) ↔
          ∀ c ∈ rest.head?, digitIn? base c = none)) ∧
      ((digits 10 n.natAbs).length ≤ 4300 →
        (integerNumber.apply defs limit (Text.ofInt n ++ rest) =
            .returned (.success (.int n) rest) ↔
          (∀ c ∈ rest.head?, digitIn? 10 c = none) ∧
            (n = 0 → ∀ mark kind base, Marks mark kind base →
              ¬ mark <+: CodePoint.ofChar '0' :: rest))) := by
  constructor
  · intro src
    constructor
    · intro mark kind base tail hmarks hsrc
      exact run_integerNumber_of_marks hmarks hsrc _
    · intro hnone
      exact run_integerNumber_of_no_marks hnone _
  · intro n rest
    constructor
    · intro mark kind base hmarks
      exact run_integerNumber_written_iff hmarks _
    · intro hlength
      exact run_integerNumber_ofInt_iff hlength _

example : integerNumber.apply [] 0 "-0x00fFg" = .returned (.success (.int (-255)) "g") := by cbv

end Grammar

end Descent
