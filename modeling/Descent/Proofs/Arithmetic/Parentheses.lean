import Descent.Proofs.Arithmetic.Conversion
import Descent.Proofs.Arithmetic.FirstFault

/-!
# Parentheses around the beginning of a chain

The operations of a chain are applied from left to right, so it makes no difference whether the
first of them are a chain of their own.  In a text, parentheses make the beginning of a chain one.
The tree has another shape then, but it computes alike, and since parentheses neither add digits nor
separate any, the same numerals are converted in the same order.
-/

namespace Descent.Arithmetic

open Text

/-! ### Chains that begin with a chain -/

namespace Tree

theorem compute_chained_chained (first : Tree) (operations₁ operations₂ : List (Text × Tree)) :
    (chained (chained first operations₁) operations₂).compute =
      (chained first (operations₁ ++ operations₂)).compute := by
  simp only [compute_chained, computeFrom_append, bind_assoc]

theorem compute_chain_chain (first : Tree) (operations₁ operations₂ : List (Text × Tree)) :
    (chain (chain first operations₁) operations₂).compute =
      (chain first (operations₁ ++ operations₂)).compute := by
  simp only [compute, computeFrom_append, bind_assoc]

end Tree

/-! ### Levels of precedence -/

inductive Level where
  | products
  | sums

namespace Level

def symbols : Level → Text
  | products => "*/"
  | sums => "+-"

/-- What stands between the operators of a level: factors, or chains of factors. -/
def operand : Level → TreeLanguage
  | products => FactorOf Expression
  | sums => ChainOf (FactorOf Expression) "*/"

variable {level : Level} {w w' : Text} {t : Tree} {operations : List (Text × Tree)}

theorem symbols_notMem_decimal (level : Level) : ∀ c ∈ level.symbols, c ∉ Alphabet.decimal := by
  cases level <;> decide

theorem expression_append (hw : level.operand w t)
    (hw' : Operations level.operand level.symbols w' operations) :
    Expression (w ++ w') (Tree.chained t operations) := by
  have hchain : ChainOf level.operand level.symbols (w ++ w') (Tree.chained t operations) :=
    chainOf_iff.mpr ⟨w, w', t, operations, rfl, rfl, hw, hw'⟩
  cases level with
  | products => exact .sum (.single hchain)
  | sums => exact .sum hchain

end Level

/-! ### Enclosed texts -/

/-- A text in parentheses, with blanks on either side of them. -/
inductive Enclosed (w : Text) : Text → Prop
  | parentheses {before left right after : Text}
      (hbefore : Blanks before) (hleft : Blanks left) (hright : Blanks right)
      (hafter : Blanks after) :
      Enclosed w
        (before ++ ('(' : CodePoint) :: (left ++ (w ++ (right ++ (')' : CodePoint) :: after))))

variable {level : Level} {w w' w₁ w₂ enclosed : Text} {first t : Tree}
  {operations₁ operations₂ : List (Text × Tree)}

/-- An expression in parentheses is an operand of either level. -/
theorem Enclosed.operand (henclosed : Enclosed w enclosed) (h : Expression w t) (level : Level) :
    level.operand enclosed t := by
  cases henclosed with
  | parentheses hbefore hleft hright hafter =>
      have hfactor := FactorOf.parenthesized hbefore hleft h hright hafter
      cases level with
      | products => exact hfactor
      | sums => exact .single hfactor

theorem Enclosed.convertNumerals_eq (henclosed : Enclosed w enclosed) :
    enclosed.convertNumerals = w.convertNumerals := by
  cases henclosed with
  | parentheses hbefore hleft hright hafter =>
      exact convertNumerals_parenthesized hbefore hleft hright hafter w

/-! ### Texts that evaluate alike -/

/-- Both texts have the same value, or both divide by zero, or both raise the same fault.  The
failure of a division by zero has the text that was evaluated as its input. -/
def EvaluateAlike (text text' : Text) : Prop :=
  (∃ n, evaluate text = .returned (.value n) ∧ evaluate text' = .returned (.value n)) ∨
    (evaluate text =
        .returned (.dividesByZero { input := text, message := "division by zero" }) ∧
      evaluate text' =
        .returned (.dividesByZero { input := text', message := "division by zero" })) ∨
    ∃ fault, evaluate text = .raised fault ∧ evaluate text' = .raised fault

/-- Only the input of a failure depends on the text that is computed. -/
theorem ofComputation_cases (computation : Except Fault Number) :
    (∃ n, ∀ text, ofComputation text computation = .returned (.value n)) ∨
      (∀ text, ofComputation text computation =
        .returned (.dividesByZero (divisionByZero text))) ∨
      ∃ fault, ∀ text, ofComputation text computation = .raised fault := by
  rcases computation with fault | n
  · cases fault with
    | divisionByZero => exact .inr (.inl fun _ => rfl)
    | floatDivisionByZero => exact .inr (.inl fun _ => rfl)
    | _ => exact .inr (.inr ⟨_, fun _ => rfl⟩)
  · exact .inl ⟨n, fun _ => rfl⟩

theorem Expression.evaluateAlike {t' : Tree} (h : Expression w t) (h' : Expression w' t')
    (hnumerals : w.convertNumerals = w'.convertNumerals) (hcompute : t.compute = t'.compute) :
    EvaluateAlike w w' := by
  have heval := h.evaluate_eq
  have heval' := h'.evaluate_eq
  rw [hnumerals, hcompute] at heval
  rcases w'.convertNumerals_cases with hconverted | ⟨fault, hraised⟩
  · rw [hconverted, Outcome.returned_bind] at heval heval'
    rcases ofComputation_cases t'.compute with ⟨n, hn⟩ | hzero | ⟨fault, hfault⟩
    · exact .inl ⟨n, heval.trans (hn w), heval'.trans (hn w')⟩
    · exact .inr (.inl ⟨heval.trans (hzero w), heval'.trans (hzero w')⟩)
    · exact .inr (.inr ⟨fault, heval.trans (hfault w), heval'.trans (hfault w')⟩)
  · rw [hraised] at heval heval'
    exact .inr (.inr ⟨fault, heval, heval'⟩)

theorem evaluateAlike_enclosed_append (hfirst : level.operand w first)
    (h₁ : Operations level.operand level.symbols w₁ operations₁)
    (h₂ : Operations level.operand level.symbols w₂ operations₂)
    (henclosed : Enclosed (w ++ w₁) enclosed) :
    EvaluateAlike (enclosed ++ w₂) (w ++ (w₁ ++ w₂)) := by
  have hflat := Level.expression_append hfirst (h₁.append h₂)
  have hsegment := henclosed.operand (Level.expression_append hfirst h₁) level
  have hnested := Level.expression_append hsegment h₂
  have hnumerals : (enclosed ++ w₂).convertNumerals = (w ++ (w₁ ++ w₂)).convertNumerals := by
    have hhead := h₂.head?_notMem_decimal level.symbols_notMem_decimal
    rw [convertNumerals_append hhead, henclosed.convertNumerals_eq, ← convertNumerals_append hhead,
      List.append_assoc]
  exact hnested.evaluateAlike hflat hnumerals (Tree.compute_chained_chained ..)

/-- A chain that begins with a chain computes like the flat chain of all the operations.  A
computation stops with the fault of the first operation that breaks it off, and an unknown symbol
does so before its operand is computed.  So parentheses around the beginning of a chain of factors
or of terms do not change what a text evaluates to, be it a value, a failure or a fault.  The only
failure is a division by zero, with the text that was evaluated as its input. -/
theorem leading_parentheses_change_nothing :
    (∀ first operations₁ operations₂,
      (Tree.chain (.chain first operations₁) operations₂).compute =
        (Tree.chain first (operations₁ ++ operations₂)).compute) ∧
    (∀ first operations fault,
      (Tree.chain first operations).compute = .error fault ↔
        first.compute = .error fault ∨
          ∃ value, first.compute = .ok value ∧ Tree.StopsWith value operations fault) ∧
    (∀ t fault, Tree.compute t = .error fault → Tree.IsFault fault) ∧
    ∀ (level : Level) (w w₁ w₂ enclosed : Text) first operations₁ operations₂,
      level.operand w first →
      Operations level.operand level.symbols w₁ operations₁ →
      Operations level.operand level.symbols w₂ operations₂ →
      Enclosed (w ++ w₁) enclosed →
        EvaluateAlike (enclosed ++ w₂) (w ++ (w₁ ++ w₂)) :=
  ⟨Tree.compute_chain_chain, fun _ _ _ => Tree.compute_chain_eq_error_iff,
    Tree.isFault_of_compute, fun _ _ _ _ _ _ _ _ => evaluateAlike_enclosed_append⟩

theorem Level.operand_digits (level : Level) {digits : Text} {n : Int} (hne : digits ≠ [])
    (hdigits : ∀ c ∈ digits, c ∈ Alphabet.decimal) (hn : (Numeral.value 10 digits : Int) = n) :
    level.operand digits (.number n) := by
  have hnumber : FactorOf Expression ([] ++ (digits ++ [])) (.number (Numeral.value 10 digits)) :=
    .number blanks_nil hne hdigits blanks_nil
  rw [List.nil_append, List.append_nil, hn] at hnumber
  cases level with
  | products => exact hnumber
  | sums => exact .single hnumber

theorem Level.operations_digits (level : Level) {symbol : CodePoint}
    (hsymbol : symbol ∈ level.symbols) {digits : Text} {n : Int} (hne : digits ≠ [])
    (hdigits : ∀ c ∈ digits, c ∈ Alphabet.decimal) (hn : (Numeral.value 10 digits : Int) = n) :
    Operations level.operand level.symbols (symbol :: digits) [([symbol], .number n)] := by
  have hone := Operations.cons blanks_nil hsymbol blanks_nil
    (level.operand_digits hne hdigits hn) .nil
  simpa using hone

theorem leading_parentheses_change_nothing_quotients :
    (Tree.chain (.chain (.number 8) [("%", .chain (.number 1) [("/", .number 0)])])
        [("-", .number 3)]).compute = .error (.unknownOperator "%") ∧
    (Level.sums.operand "9" (.number 9) ∧
      Operations Level.sums.operand Level.sums.symbols "-4" [("-", .number 4)] ∧
      Operations Level.sums.operand Level.sums.symbols "-3" [("-", .number 3)] ∧
      Enclosed "9-4" "(9-4)" ∧ evaluate "(9-4)-3" = .returned (.value (.int 2))) ∧
    (Level.products.operand "8" (.number 8) ∧
      Operations Level.products.operand Level.products.symbols "/0" [("/", .number 0)] ∧
      Operations Level.products.operand Level.products.symbols "*2" [("*", .number 2)] ∧
      Enclosed "8/0" "(8/0)" ∧
      evaluate "(8/0)*2" =
        .returned (.dividesByZero { input := "(8/0)*2", message := "division by zero" })) := by
  obtain ⟨htrees, -, -, htexts⟩ := leading_parentheses_change_nothing
  have h9 : Level.sums.operand "9" (.number 9) :=
    Level.sums.operand_digits (by decide) (by decide) rfl
  have h4 : Operations Level.sums.operand Level.sums.symbols "-4" [("-", .number 4)] :=
    Level.sums.operations_digits (by decide) (by decide) (by decide) rfl
  have h3 : Operations Level.sums.operand Level.sums.symbols "-3" [("-", .number 3)] :=
    Level.sums.operations_digits (by decide) (by decide) (by decide) rfl
  have h8 : Level.products.operand "8" (.number 8) :=
    Level.products.operand_digits (by decide) (by decide) rfl
  have h0 : Operations Level.products.operand Level.products.symbols "/0" [("/", .number 0)] :=
    Level.products.operations_digits (by decide) (by decide) (by decide) rfl
  have h2 : Operations Level.products.operand Level.products.symbols "*2" [("*", .number 2)] :=
    Level.products.operations_digits (by decide) (by decide) (by decide) rfl
  have hdifference : Enclosed "9-4" "(9-4)" :=
    .parentheses blanks_nil blanks_nil blanks_nil blanks_nil
  have hquotient : Enclosed "8/0" "(8/0)" :=
    .parentheses blanks_nil blanks_nil blanks_nil blanks_nil
  refine ⟨?_, ⟨h9, h4, h3, hdifference, ?_⟩, h8, h0, h2, hquotient, ?_⟩
  · rw [htrees]
    rfl
  · have halike : EvaluateAlike "(9-4)-3" "9-4-3" :=
      htexts .sums "9" "-4" "-3" "(9-4)" _ _ _ h9 h4 h3 hdifference
    have hflat : evaluate "9-4-3" = .returned (.value (.int 2)) := by cbv
    rcases halike with ⟨n, hnested, hn⟩ | ⟨-, hzero⟩ | ⟨fault, -, hraised⟩
    · exact hnested.trans (hn.symm.trans hflat)
    · exact absurd (hflat.symm.trans hzero) (by simp)
    · exact absurd (hflat.symm.trans hraised) (by simp)
  · have halike : EvaluateAlike "(8/0)*2" "8/0*2" :=
      htexts .products "8" "/0" "*2" "(8/0)" _ _ _ h8 h0 h2 hquotient
    have hflat : evaluate "8/0*2" =
        .returned (.dividesByZero { input := "8/0*2", message := "division by zero" }) := by
      cbv
    rcases halike with ⟨n, -, hn⟩ | ⟨hnested, -⟩ | ⟨fault, -, hraised⟩
    · exact absurd (hflat.symm.trans hn) (by simp)
    · exact hnested
    · exact absurd (hflat.symm.trans hraised) (by simp)

end Descent.Arithmetic
