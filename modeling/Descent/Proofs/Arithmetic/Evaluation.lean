import Descent.Arithmetic.Evaluation
import Descent.Proofs.Arithmetic.LeftNesting
import Descent.Proofs.Arithmetic.LongestPrefix

/-!
# Evaluation as the evaluation of formulas

A text is evaluated like the formula it is the text of.  If it is the text of no formula, it is
refused before anything is computed, so a division by zero in a part of it does not show.  If the
formula has a value, that is the value of the text.  Otherwise the first fault decides: a division
by zero is a failure of the whole text, and a number that is too large remains a fault.
-/

namespace Descent.Arithmetic

open Grammar

variable {text : Text}

theorem evaluate_of_rejected
    {f : Failure} (h : (expression.apply [] (budget text)).parse text = .returned (.rejected f)) :
    evaluate text = .returned (.malformed f) := by
  rw [evaluate, h]
  rfl

theorem evaluate_of_accepted
    {t : Tree}
    (h : (expression.apply [] (budget text)).parse text = .returned (.accepted t.toValue)) :
    evaluate text = ofComputation text t.compute := by
  rw [evaluate, h]
  simp only [Outcome.returned_bind, Tree.ofValue?_toValue]

theorem ofComputation_of_zeroDivision {fault : Fault} (h : fault ∈ zeroDivisions) :
    ofComputation text (.error fault) = .returned (.dividesByZero (divisionByZero text)) := by
  simp only [zeroDivisions, List.mem_cons, List.not_mem_nil, or_false] at h
  rcases h with rfl | rfl <;> rfl

theorem ofComputation_of_overflow {fault : Fault} (h : fault ∈ overflows) :
    ofComputation text (.error fault) = .raised fault := by
  simp only [overflows, List.mem_cons, List.not_mem_nil, or_false] at h
  rcases h with rfl | rfl <;> rfl

theorem exists_rejected
    (hdigits : ShortDigitRuns text) (hnone : ∀ t, ¬ Expression text t) :
    ∃ f, ∀ limit, text.length < limit →
      (expression.apply [] limit).parse text = .returned (.rejected f) := by
  obtain ⟨f, hrejected⟩ :=
    (reads_expression (text.length + 1)).exists_rejected ⟨hdigits, Nat.lt_succ_self _⟩ hnone
  exact ⟨f, fun limit hlimit => parse_eq_of_le hrejected hlimit⟩

/-- A text that no formula is written as is refused like an expression that cannot be parsed.  Any
other text evaluates to what its formula evaluates to. -/
theorem evaluate_refines_formula {text : Text} (hdigits : ShortDigitRuns text) :
    ((∀ formula, ¬ Written .sum text formula) →
      ∃ f,
        (∀ limit, text.length < limit →
          (expression.apply [] limit).parse text = .returned (.rejected f)) ∧
        evaluate text = .returned (.malformed f)) ∧
    ∀ formula, Written .sum text formula →
      (∃ n, formula.eval = .ok n ∧ evaluate text = .returned (.value n)) ∨
      (∃ fault ∈ zeroDivisions, formula.eval = .error fault ∧
        evaluate text =
          .returned (.dividesByZero { input := text, message := "division by zero" })) ∨
      (∃ fault ∈ overflows, formula.eval = .error fault ∧ evaluate text = .raised fault) := by
  have hbudget : text.length < budget text := by
    unfold budget
    omega
  constructor
  · intro hnone
    obtain ⟨f, hrejected⟩ := exists_rejected hdigits fun t ht => by
      obtain ⟨formula, hformula⟩ := ht.exists_written
      exact hnone formula hformula
    exact ⟨f, hrejected, evaluate_of_rejected (hrejected _ hbudget)⟩
  · intro formula hformula
    obtain ⟨t, ht, hcompute⟩ := hformula.exists_tree
    have haccepted : (expression.apply [] (budget text)).parse text =
        .returned (.accepted t.toValue) :=
      ((reads_expression _).parse_eq_accepted_iff ⟨hdigits, hbudget⟩).mpr ⟨t, rfl, ht⟩
    have hevaluate := evaluate_of_accepted haccepted
    rw [hcompute] at hevaluate
    cases heval : formula.eval with
    | ok n =>
        rw [heval] at hevaluate
        exact .inl ⟨n, rfl, hevaluate⟩
    | error fault =>
        rw [heval] at hevaluate
        rcases List.mem_append.mp (Formula.eval_eq_error heval) with hzero | hlarge
        · rw [ofComputation_of_zeroDivision hzero] at hevaluate
          exact .inr (.inl ⟨fault, hzero, rfl, hevaluate⟩)
        · rw [ofComputation_of_overflow hlarge] at hevaluate
          exact .inr (.inr ⟨fault, hlarge, rfl, hevaluate⟩)

theorem written_digits
    {digits : Text} {n : Int} (hne : digits ≠ []) (hdigits : ∀ c ∈ digits, c ∈ Alphabet.decimal)
    (hn : (Numeral.value 10 digits : Int) = n) : Written .factor digits (.number n) := by
  have hnumber := Written.number Text.blanks_nil hne hdigits Text.blanks_nil
  rw [List.nil_append, List.append_nil, hn] at hnumber
  exact hnumber

theorem evaluate_refines_formula_chains :
    (ShortDigitRuns "9-4-3" ∧
      Written .sum "9-4-3"
        (.operation .sub (.operation .sub (.number 9) (.number 4)) (.number 3)) ∧
      evaluate "9-4-3" = .returned (.value (.int 2))) ∧
    (ShortDigitRuns "8/0-1" ∧
      Written .sum "8/0-1"
        (.operation .sub (.operation .div (.number 8) (.number 0)) (.number 1)) ∧
      evaluate "8/0-1" =
        .returned (.dividesByZero { input := "8/0-1", message := "division by zero" })) ∧
    (ShortDigitRuns "8/0-" ∧ (∀ formula, ¬ Written .sum "8/0-" formula) ∧
      ∃ f, evaluate "8/0-" = .returned (.malformed f)) := by
  have hdifference : ShortDigitRuns "9-4-3" := shortDigitRuns_of_length_le (by decide)
  have hquotient : ShortDigitRuns "8/0-1" := shortDigitRuns_of_length_le (by decide)
  have hbroken : ShortDigitRuns "8/0-" := shortDigitRuns_of_length_le (by decide)
  have hsub : Operator.sub ∈ [Operator.add, Operator.sub] := by simp
  have hdiv : Operator.div ∈ [Operator.mul, Operator.div] := by simp
  have h0 : Written .factor "0" (.number 0) := written_digits (by decide) (by decide) rfl
  have h1 : Written .factor "1" (.number 1) := written_digits (by decide) (by decide) rfl
  have h3 : Written .factor "3" (.number 3) := written_digits (by decide) (by decide) rfl
  have h4 : Written .factor "4" (.number 4) := written_digits (by decide) (by decide) rfl
  have h8 : Written .factor "8" (.number 8) := written_digits (by decide) (by decide) rfl
  have h9 : Written .factor "9" (.number 9) := written_digits (by decide) (by decide) rfl
  refine ⟨⟨hdifference, ?_⟩, ⟨hquotient, ?_⟩, hbroken, ?_⟩
  · have hinner : Written .sum "9-4" (.operation .sub (.number 9) (.number 4)) :=
      .addition (.product (.factor h9)) hsub Text.blanks_nil Text.blanks_nil (.factor h4)
    have hwritten : Written .sum "9-4-3"
        (.operation .sub (.operation .sub (.number 9) (.number 4)) (.number 3)) :=
      .addition hinner hsub Text.blanks_nil Text.blanks_nil (.factor h3)
    refine ⟨hwritten, ?_⟩
    rcases (evaluate_refines_formula hdifference).2 _ hwritten with
      ⟨n, heval, hevaluate⟩ | ⟨fault, -, heval, -⟩ | ⟨fault, -, heval, -⟩
    · obtain rfl : Number.int 2 = n := Except.ok.inj heval
      exact hevaluate
    · cases heval
    · cases heval
  · have hinner : Written .product "8/0" (.operation .div (.number 8) (.number 0)) :=
      .multiplication (.factor h8) hdiv Text.blanks_nil Text.blanks_nil h0
    have hwritten : Written .sum "8/0-1"
        (.operation .sub (.operation .div (.number 8) (.number 0)) (.number 1)) :=
      .addition (.product hinner) hsub Text.blanks_nil Text.blanks_nil (.factor h1)
    refine ⟨hwritten, ?_⟩
    rcases (evaluate_refines_formula hquotient).2 _ hwritten with
      ⟨n, heval, -⟩ | ⟨fault, -, -, hevaluate⟩ | ⟨fault, hfault, heval, -⟩
    · cases heval
    · exact hevaluate
    · obtain rfl : Fault.divisionByZero = fault := Except.error.inj heval
      simp [overflows] at hfault
  · have hnone : ∀ formula, ¬ Written .sum "8/0-" formula := by
      intro formula hwritten
      obtain ⟨t, ht, -⟩ := hwritten.exists_tree
      have hreadable : Readable 9 "8/0-" := ⟨hbroken, by decide⟩
      have hfull := (reads_expression 9).parses hreadable ht
      have hrun : expression.apply [] 9 "8/0-" =
          .returned (.success (Tree.chain (.number 8) [("/", .number 0)]).toValue "-") := by
        cbv
      rw [hrun] at hfull
      obtain ⟨-, hrest⟩ : _ ∧ ("-" : Text) = [] := by simpa using hfull
      exact absurd hrest (by decide)
    obtain ⟨f, -, hevaluate⟩ := (evaluate_refines_formula hbroken).1 hnone
    exact ⟨hnone, f, hevaluate⟩

end Descent.Arithmetic
