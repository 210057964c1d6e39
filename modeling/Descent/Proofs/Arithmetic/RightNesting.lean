import Descent.Arithmetic.RightNested
import Descent.Proofs.Arithmetic.Number
import Descent.Proofs.Arithmetic.SignedChain
import Descent.Proofs.Grammar.Limit
import Descent.Proofs.Lexeme.Escape

/-!
# Sums and differences that nest to the right are read

The grammar refers to itself behind a number and an operator.  There it is tried on what is left,
which is shorter, and if it fails there, the number is read again and the operator stays in front
of what is left.  So the grammar reads the longest chain of digit runs and outputs its value, and it
fails only if there is no digit to begin with.
-/

namespace Descent.Arithmetic

open Grammar Numeral Text SignedChain

variable {ctx : Context} {others : Grammar} {rest behind last src : Text} {v w : Value}

theorem combine_eq_apply (s : Sign) (m n : Int) :
    Value.combine (.list [.int m, .text [s.symbol], .int n]) = .ok (.int (s.apply m n)) := by
  cases s <;> rfl

/-! ### Numbers and operators -/

theorem run_plusOrMinus (ctx : Context) :
    plusOrMinus.run ctx = Parser.oneOf (Parser.characters "+-") :=
  run_characters "+-" ctx

theorem run_plusOrMinus_symbol (s : Sign) (ctx : Context) (behind : Text) :
    plusOrMinus.run ctx (s.symbol :: behind) =
      .returned (.success (.text [s.symbol]) behind) := by
  rw [run_plusOrMinus]
  exact Parser.oneOf_characters_of_mem (Sign.mem_symbols_iff.mpr ⟨s, rfl⟩) behind

theorem run_plusOrMinus_of_no_sign
    (h : ∀ (s : Sign) (behind : Text), rest ≠ s.symbol :: behind) (ctx : Context) :
    ∃ f, plusOrMinus.run ctx rest = .returned (.failure f) := by
  have hhead : ∀ c ∈ rest.head?, c ∉ ("+-" : Text) := by
    intro c hc hmem
    obtain ⟨behind, rfl⟩ := List.head?_eq_some_iff.mp hc
    obtain ⟨s, rfl⟩ := Sign.mem_symbols_iff.mp hmem
    exact h s behind rfl
  obtain ⟨message, hfail⟩ := Parser.oneOf_characters_of_notMem (by decide) hhead
  exact ⟨_, (congrFun (run_plusOrMinus ctx) rest).trans hfail⟩

theorem exists_digits_of_leadingDigits (h : src.leadingDigits ≠ []) :
    ∃ (digits : DigitRun) (rest : Text), src = digits ++ rest ∧
      (∀ c ∈ rest.head?, c ∉ Alphabet.decimal) ∧ src.leadingDigits = digits ∧
      src.dropWhile (CharSet.ofText Alphabet.decimal) = rest :=
  ⟨⟨src.leadingDigits, h, only_takeWhile Alphabet.decimal src⟩, _,
    List.takeWhile_append_dropWhile.symm, notMem_of_head?_dropWhile Alphabet.decimal src, rfl, rfl⟩

/-! ### One level -/

theorem run_compoundOf_of_failure {f : Failure}
    (hnumber : number.run ctx src = .returned (.failure f)) :
    (compoundOf others).run ctx src = .returned (.failure f) := by
  simp [compoundOf, run, runAll, Parser.map, Parser.sequence, Parser.collect, hnumber]

theorem run_compoundOf_of_no_sign {f : Failure}
    (hnumber : number.run ctx src = .returned (.success v rest))
    (hoperator : plusOrMinus.run ctx rest = .returned (.failure f)) :
    (compoundOf others).run ctx src = .returned (.failure f) := by
  simp [compoundOf, run, runAll, Parser.map, Parser.sequence, Parser.collect, hnumber, hoperator]

theorem run_compoundOf_of_nothing_behind {f : Failure}
    (hnumber : number.run ctx src = .returned (.success v rest))
    (hoperator : plusOrMinus.run ctx rest = .returned (.success w behind))
    (hothers : others.run ctx behind = .returned (.failure f)) :
    (compoundOf others).run ctx src = .returned (.failure f) := by
  simp [compoundOf, run, runAll, Parser.map, Parser.sequence, Parser.collect, hnumber, hoperator,
    hothers]

theorem run_compoundOf_of_success {u x : Value}
    (hnumber : number.run ctx src = .returned (.success v rest))
    (hoperator : plusOrMinus.run ctx rest = .returned (.success w behind))
    (hothers : others.run ctx behind = .returned (.success u last))
    (hcombine : Value.combine (.list [v, w, u]) = .ok x) :
    (compoundOf others).run ctx src = .returned (.success x last) := by
  simp [compoundOf, run, runAll, Parser.map, Parser.sequence, Parser.collect, hnumber, hoperator,
    hothers, hcombine]

theorem run_rightNestedOf_of_success
    (h : (compoundOf others).run ctx src = .returned (.success v rest)) :
    (rightNestedOf others).run ctx src = .returned (.success v rest) := by
  rw [rightNestedOf, run_oneOf]
  exact Parser.oneOf_cons_of_success h

theorem run_rightNestedOf_of_failure {f : Failure}
    (h : (compoundOf others).run ctx src = .returned (.failure f)) :
    (rightNestedOf others).run ctx src = number.run ctx src := by
  rw [rightNestedOf, run_oneOf]
  exact Parser.oneOf_cons_of_failure h

/-- A failure if the text begins with no digit, and else the value of a chain that goes no further. -/
inductive ReadsChain : Text → Reply → Prop
  | failure {src : Text} {f : Failure} (hsrc : ∀ c ∈ src.head?, c ∉ Alphabet.decimal) :
      ReadsChain src (.failure f)
  | success (chain : SignedChain) {rest : Text} (hrest : Ends rest) :
      ReadsChain (chain.text ++ rest) (.success (.int chain.value) rest)

/-- Behind the number, everything depends on whether a sign and a chain follow. -/
theorem exists_readsChain_of_number {digits : DigitRun}
    (hnumber : number.run ctx (digits ++ rest) =
      .returned (.success (.int (Numeral.value 10 digits)) rest))
    (hrest : ∀ c ∈ rest.head?, c ∉ Alphabet.decimal)
    (hothers : ∀ (s : Sign) (behind : Text), rest = s.symbol :: behind →
      ∃ r, others.run ctx behind = .returned r ∧ ReadsChain behind r) :
    ∃ r, (rightNestedOf others).run ctx (digits ++ rest) = .returned r ∧
      ReadsChain (digits ++ rest) r := by
  have hfallback (hends : Ends rest) {f : Failure}
      (h : (compoundOf others).run ctx (digits ++ rest) = .returned (.failure f)) :
      ∃ r, (rightNestedOf others).run ctx (digits ++ rest) = .returned r ∧
        ReadsChain (digits ++ rest) r :=
    ⟨_, (run_rightNestedOf_of_failure h).trans hnumber, .success (.number digits) hends⟩
  by_cases hsign : ∃ (s : Sign) (behind : Text), rest = s.symbol :: behind
  · obtain ⟨s, behind, rfl⟩ := hsign
    have hoperator := run_plusOrMinus_symbol s ctx behind
    obtain ⟨r, hr, hreads⟩ := hothers s behind rfl
    cases hreads with
    | failure hbehind =>
        -- the sign is not used up, since no digit follows it
        refine hfallback ⟨hrest, ?_⟩ (run_compoundOf_of_nothing_behind hnumber hoperator hr)
        intro s' behind' heq
        obtain ⟨-, rfl⟩ := List.cons.inj heq
        exact hbehind
    | @success chain last hlast =>
        have hcompound := run_compoundOf_of_success hnumber hoperator hr (combine_eq_apply s _ _)
        have hreads := ReadsChain.success (.operation digits s chain) hlast
        rw [SignedChain.text, List.append_assoc, List.cons_append] at hreads
        exact ⟨_, run_rightNestedOf_of_success hcompound, hreads⟩
  · have hno : ∀ (s : Sign) (behind : Text), rest ≠ s.symbol :: behind :=
      fun s behind h => hsign ⟨s, behind, h⟩
    obtain ⟨f, hoperator⟩ := run_plusOrMinus_of_no_sign hno ctx
    exact hfallback ⟨hrest, fun s behind h => absurd h (hno s behind)⟩
      (run_compoundOf_of_no_sign hnumber hoperator)

/-- If chains are read in everything shorter, they are read here. -/
theorem exists_readsChain_rightNestedOf (hdigits : ShortDigitRuns src)
    (hlimit : src.length ≤ ctx.limit)
    (hothers : ∀ behind, behind <:+ src → behind.length < src.length →
      ∃ r, others.run ctx behind = .returned r ∧ ReadsChain behind r) :
    ∃ r, (rightNestedOf others).run ctx src = .returned r ∧ ReadsChain src r := by
  by_cases hnone : src.leadingDigits = []
  · obtain ⟨message, hnumber⟩ := run_number_of_no_digits hnone ctx
    exact ⟨_, (run_rightNestedOf_of_failure (run_compoundOf_of_failure hnumber)).trans hnumber,
      .failure (leadingDigits_eq_nil_iff.mp hnone)⟩
  · obtain ⟨digits, rest, hsrc, hrest, hleading, hdrop⟩ := exists_digits_of_leadingDigits hnone
    have hshort := Nat.not_lt.mpr hdigits.length_leadingDigits_le
    have hnumber := run_number_of_digits hnone hlimit
    rw [if_neg hshort, hleading, hdrop, hsrc] at hnumber
    rw [hsrc]
    apply exists_readsChain_of_number hnumber hrest
    rintro s behind rfl
    refine hothers behind ?_ ?_
    · rw [hsrc]
      exact (List.suffix_cons s.symbol behind).trans (List.suffix_append _ _)
    · rw [hsrc, List.length_append, List.length_cons]
      omega

/-! ### All levels -/

theorem meaning_expression (limit depth : Nat) :
    rightNestedDefinitions.meaning limit (depth + 1) "expression" =
      rightNested.run { limit, resolve := rightNestedDefinitions.meaning limit depth } :=
  rfl

/-- By induction on the depth of references, of which no more are needed than there are characters. -/
theorem exists_readsChain_meaning {limit depth : Nat} (hdigits : ShortDigitRuns src)
    (hlimit : src.length ≤ limit) (hdepth : src.length < depth) :
    ∃ r, rightNestedDefinitions.meaning limit depth "expression" src = .returned r ∧
      ReadsChain src r := by
  induction depth generalizing src with
  | zero => exact absurd hdepth (Nat.not_lt_zero _)
  | succ depth ih =>
      rw [meaning_expression]
      apply exists_readsChain_rightNestedOf hdigits hlimit
      intro behind hsuffix hshorter
      exact ih (hdigits.of_infix hsuffix.isInfix) (hsuffix.length_le.trans hlimit) (by omega)

theorem exists_readsChain_rightNested (hdigits : ShortDigitRuns src) :
    ∃ r, rightNested.apply rightNestedDefinitions src.length src = .returned r ∧
      ReadsChain src r := by
  apply exists_readsChain_rightNestedOf hdigits (Nat.le_refl src.length)
  intro behind hsuffix hshorter
  exact exists_readsChain_meaning (hdigits.of_infix hsuffix.isInfix) hsuffix.length_le hshorter

theorem ReadsChain.failure_iff {r : Reply} (h : ReadsChain src r) :
    (∃ f, r = .failure f) ↔ ∀ c ∈ src.head?, c ∉ Alphabet.decimal := by
  cases h with
  | failure hsrc => exact ⟨fun _ => hsrc, fun _ => ⟨_, rfl⟩⟩
  | success chain hrest =>
      obtain ⟨c, others, htext, hc⟩ := exists_digit_of_text chain
      simp [htext, hc]

/-- The grammar that was put together ends on every text without a digit run that is too long.  It
fails exactly if the text begins with no digit.  Else it outputs the value of the longest chain of
digit runs with single signs between them that the text begins with, the signs being applied from
right to left, and leaves the rest, be it a sign that no digit follows. -/
theorem rightNested_reads_longest_chain {src : Text} (hdigits : ShortDigitRuns src) :
    Blueprint.workspace rightNestedBlueprints (.built "expression") =
        .ok { definitions := rightNestedDefinitions, start := .grammar rightNested } ∧
      ∃ r, (∀ limit, src.length ≤ limit →
          rightNested.apply rightNestedDefinitions limit src = .returned r) ∧
        ((∃ f, r = .failure f) ↔ ∀ c ∈ src.head?, c ∉ Alphabet.decimal) ∧
        ∀ v rest, r = .success v rest →
          ∃ chain : SignedChain, src = chain.text ++ rest ∧ v = .int chain.value ∧
            IsLongestPrefix (fun t => ∃ chain' : SignedChain, chain'.text = t) chain.text src ∧
            (∀ chain' : SignedChain, chain'.text = chain.text → chain' = chain) ∧ Ends rest := by
  obtain ⟨r, hr, hreads⟩ := exists_readsChain_rightNested hdigits
  refine ⟨rfl, r, fun limit hlimit => apply_eq_of_le hr hlimit, hreads.failure_iff, ?_⟩
  rintro v rest rfl
  cases hreads with
  | success chain hrest =>
      exact ⟨chain, rfl, rfl, isLongestPrefix_of_ends chain hrest,
        fun chain' htext => text_injective htext, hrest⟩

theorem someDigits_singleton {c : CodePoint} (hc : c ∈ Alphabet.decimal) : SomeDigits [c] where
  ne_nil := by simp
  digits := by simpa [Digits] using hc

/-- The chain `9-4-3`. -/
def differences : SignedChain :=
  .operation ⟨"9", someDigits_singleton (by decide)⟩ .minus
    (.operation ⟨"4", someDigits_singleton (by decide)⟩ .minus
      (.number ⟨"3", someDigits_singleton (by decide)⟩))

/-- The last operator is left over, and the other two are applied from right to left. -/
theorem rightNested_reads_longest_chain_differences :
    ShortDigitRuns "9-4-3+x" ∧ ∀ limit, 7 ≤ limit →
      rightNested.apply rightNestedDefinitions limit "9-4-3+x" =
        .returned (.success (.int 8) "+x") := by
  have hdigits : ShortDigitRuns "9-4-3+x" := shortDigitRuns_of_length_le (by decide)
  have hends : Ends "+x" := by
    refine ⟨by decide, ?_⟩
    intro s behind heq
    obtain ⟨-, rfl⟩ := List.cons.inj heq
    decide
  have hsplit : ("9-4-3+x" : Text) = differences.text ++ "+x" := rfl
  have hlongest := isLongestPrefix_of_ends differences hends
  refine ⟨hdigits, ?_⟩
  obtain ⟨-, r, hr, hfailure, hsuccess⟩ := rightNested_reads_longest_chain hdigits
  cases r with
  | failure f => exact absurd (hfailure.mp ⟨f, rfl⟩) (by decide)
  | success v rest =>
      obtain ⟨chain, hsrc, rfl, hchain, -, -⟩ := hsuccess v rest rfl
      obtain rfl : chain = differences := text_injective (hchain.unique hlongest)
      obtain rfl : ("+x" : Text) = rest := List.append_cancel_left (hsplit.symm.trans hsrc)
      exact hr

end Descent.Arithmetic
