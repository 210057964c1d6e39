import Descent.Grammar.Definitions
import Descent.Proofs.Arithmetic.Factor
import Descent.Proofs.Arithmetic.Level
import Descent.Proofs.Grammar.Limit

/-!
# Expressions read off the front of a text

The grammar of expressions reads the language of expressions.  The two levels and the factor have
been treated for any grammar between the parentheses, so one more unrolling of the grammar reads
one more code point, and the language is read whatever the length of the text.  As the grammar
never stops before the end of an expression that the text begins with, it finds the longest one.
-/

namespace Descent.Arithmetic

open Text Grammar

/-- What may continue an expression. -/
def expressionMore : Text := factorMore ++ "*/" ++ "+-"

theorem reads_expressionOf
    {inner : Grammar} {ctx : Context} {more : Text} {n : Nat}
    (hinner : Reads (inner.run ctx) Expression more n) (hclose : (')' : CodePoint) ∉ more)
    (hn : n < ctx.limit) :
    Reads ((expressionOf inner).run ctx) Expression expressionMore (n + 1) := by
  have hfactor := reads_factorOf hinner trailsBlanks_expression hclose (Nat.le_of_lt hn)
  have hfactorBlanks := trailsBlanks_factorOf Expression
  have hterm :
      Reads ((termOf inner).run ctx) (ChainOf (FactorOf Expression) "*/") (factorMore ++ "*/")
        (n + 1) :=
    reads_level hfactor hfactorBlanks (by decide) (by decide) hn
  have htermBlanks := trailsBlanks_chainOf hfactorBlanks "*/"
  have hsum :
      Reads ((expressionOf inner).run ctx) (ChainOf (ChainOf (FactorOf Expression) "*/") "+-")
        expressionMore (n + 1) :=
    reads_level hterm htermBlanks (by decide) (by decide) hn
  apply hsum.of_iff
  intro w t
  constructor
  · exact .sum
  · intro h
    cases h with
    | sum hw => exact hw

/-- Every unrolling of the grammar reads expressions that are one code point longer. -/
theorem reads_recursive {ctx : Context} {depth : Nat} (hdepth : depth ≤ ctx.limit) :
    Reads (Parser.recursive (fun p => (expressionOf .self).run { ctx with self := p }) depth)
      Expression expressionMore depth := by
  induction depth with
  | zero =>
      constructor
      · exact fun b src hb => rfl
      · decide
      · exact fun src hsrc => absurd hsrc.length_lt (Nat.not_lt_zero _)
      · exact fun w t after hw hsrc => absurd hsrc.length_lt (Nat.not_lt_zero _)
  | succ depth ih =>
      have hself := ih (Nat.le_of_lt hdepth)
      set p := Parser.recursive (fun p => (expressionOf .self).run { ctx with self := p }) depth
      have hinner : Reads (Grammar.self.run { ctx with self := p }) Expression expressionMore depth :=
        hself
      exact reads_expressionOf hinner (by decide) hdepth

theorem reads_expression (limit : Nat) :
    Reads (expression.apply [] limit) Expression expressionMore limit :=
  reads_recursive (Nat.le_refl limit)

/-! ### The longest prefix -/

/-- The longest text of a language that a text begins with, its only tree, and what follows. -/
structure LongestPrefix (L : TreeLanguage) (src w rest : Text) (t : Tree) : Prop where
  eq_append : src = w ++ rest
  mem : L w t
  length_le : ∀ w' t', w' <+: src → L w' t' → w'.length ≤ w.length
  tree_eq : ∀ t', L w t' → t' = t

section Reads

variable {p : Parser} {L : TreeLanguage} {more src rest : Text} {n : Nat}

theorem Reads.tree_eq
    {t t' : Tree} (h : Reads p L more n) (hsrc : Readable n src) (hw : L src t) (hw' : L src t') :
    t' = t := by
  have hsuccess := h.parses hsrc hw
  rw [h.parses hsrc hw'] at hsuccess
  exact Tree.toValue_injective (by simpa using hsuccess)

theorem Reads.success_of_prefix
    {w : Text} {t : Tree} (h : Reads p L more n) (hsrc : Readable n src) (hw : L w t)
    (hfront : w <+: src) :
    ∃ v rest, p src = .returned (.success v rest) ∧ w.length + rest.length ≤ src.length := by
  obtain ⟨after, rfl⟩ := hfront
  obtain ⟨t', rest, hsuccess, hrest, -⟩ := h.reaches w t after hw hsrc
  refine ⟨t'.toValue, rest, hsuccess, ?_⟩
  rw [List.length_append]
  exact Nat.add_le_add_left hrest.length_le _

theorem Reads.failure_iff (h : Reads p L more n) (hsrc : Readable n src) :
    (∃ f, p src = .returned (.failure f)) ↔ ∀ w t, w <+: src → ¬ L w t := by
  constructor
  · rintro ⟨f, hfail⟩ w t hfront hw
    obtain ⟨v, rest, hsuccess, -⟩ := h.success_of_prefix hsrc hw hfront
    simp [hfail] at hsuccess
  · intro hnone
    rcases h.returns src hsrc with hfail | ⟨w, t, rest, hsplit, hw, -⟩
    · exact hfail
    · exact absurd hw (hnone w t ⟨rest, hsplit.symm⟩)

theorem Reads.longestPrefix
    {v : Value} (h : Reads p L more n) (hsrc : Readable n src)
    (hsuccess : p src = .returned (.success v rest)) :
    ∃ w t, v = t.toValue ∧ LongestPrefix L src w rest t := by
  rcases h.returns src hsrc with ⟨f, hfail⟩ | ⟨w, t, last, hsplit, hw, hresult⟩
  · simp [hfail] at hsuccess
  · obtain ⟨rfl, rfl⟩ : t.toValue = v ∧ last = rest := by simpa [hresult] using hsuccess
    refine ⟨w, t, rfl, hsplit, hw, ?_, ?_⟩
    · intro w' t' hfront hw'
      obtain ⟨v', rest', hresult', hle⟩ := h.success_of_prefix hsrc hw' hfront
      obtain ⟨-, rfl⟩ : t.toValue = v' ∧ last = rest' := by simpa [hresult] using hresult'
      have hlength := congrArg List.length hsplit
      rw [List.length_append] at hlength
      omega
    · intro t' hw'
      have hfront : w <+: src := ⟨last, hsplit.symm⟩
      exact h.tree_eq (hsrc.of_infix hfront.isInfix) hw hw'

theorem Reads.exists_rejected
    (h : Reads p L more n) (hsrc : Readable n src) (hnone : ∀ t, ¬ L src t) :
    ∃ f, p.parse src = .returned (.rejected f) := by
  rcases h.returns src hsrc with ⟨f, hfail⟩ | ⟨w, t, rest, hsplit, hw, hsuccess⟩
  · exact ⟨f, by simp [Parser.parse, hfail]⟩
  · cases rest with
    | nil =>
        rw [List.append_nil] at hsplit
        exact absurd (hsplit ▸ hw) (hnone t)
    | cons c rest => exact ⟨_, by simp [Parser.parse, hsuccess]; rfl⟩

theorem Reads.parse_eq_accepted_iff
    {v : Value} (h : Reads p L more n) (hsrc : Readable n src) :
    p.parse src = .returned (.accepted v) ↔ ∃ t, v = t.toValue ∧ L src t := by
  constructor
  · intro hparse
    by_cases hmem : ∃ t, L src t
    · obtain ⟨t, hw⟩ := hmem
      obtain rfl : t.toValue = v := by simpa [Parser.parse, h.parses hsrc hw] using hparse
      exact ⟨t, rfl, hw⟩
    · obtain ⟨f, hreject⟩ := h.exists_rejected hsrc fun t hw => hmem ⟨t, hw⟩
      simp [hparse] at hreject
  · rintro ⟨t, rfl, hw⟩
    simp [Parser.parse, h.parses hsrc hw]

end Reads

/-- The grammar of expressions ends on every text.  It fails exactly if the text does not begin
with an expression, and else it outputs the tree of the longest expression the text begins with.
A whole text is accepted exactly if it is an expression. -/
theorem expression_reads_longest_prefix {src : Text} (hdigits : ShortDigitRuns src) :
    ∃ r, (∀ limit, src.length < limit → expression.apply [] limit src = .returned r) ∧
      ((∃ f, r = .failure f) ↔ ∀ w t, w <+: src → ¬ Expression w t) ∧
      (∀ v rest, r = .success v rest →
        ∃ w t, v = t.toValue ∧ LongestPrefix Expression src w rest t) ∧
      ∀ limit v, src.length < limit →
        ((expression.apply [] limit).parse src = .returned (.accepted v) ↔
          ∃ t, v = t.toValue ∧ Expression src t) := by
  have hread := reads_expression (src.length + 1)
  have hsrc : Readable (src.length + 1) src := ⟨hdigits, Nat.lt_succ_self _⟩
  obtain ⟨r, hr⟩ := hread.exists_returned hsrc
  have hfailure := hread.failure_iff hsrc
  simp only [hr, Outcome.returned.injEq] at hfailure
  refine ⟨r, fun limit hlimit => apply_eq_of_le hr hlimit, hfailure, ?_, ?_⟩
  · rintro v rest rfl
    exact hread.longestPrefix hsrc hr
  · intro limit v hlimit
    exact (reads_expression limit).parse_eq_accepted_iff ⟨hdigits, hlimit⟩

theorem expression_reads_longest_prefix_product :
    ShortDigitRuns " (1 + 2)*3 - x" ∧
      LongestPrefix Expression " (1 + 2)*3 - x" " (1 + 2)*3 " "- x"
        (.chain (.chain (.number 1) [("+", .number 2)]) [("*", .number 3)]) := by
  have hdigits : ShortDigitRuns " (1 + 2)*3 - x" := shortDigitRuns_of_length_le (by decide)
  refine ⟨hdigits, ?_⟩
  have hrun :
      expression.apply [] 20 " (1 + 2)*3 - x" =
        .returned (.success
          (Tree.chain (.chain (.number 1) [("+", .number 2)]) [("*", .number 3)]).toValue
          "- x") := by
    cbv
  obtain ⟨r, hr, -, hlongest, -⟩ := expression_reads_longest_prefix hdigits
  have hsame := hr 20 (by decide)
  rw [hrun] at hsame
  obtain ⟨w, t, ht, hfront⟩ := hlongest _ _ (Outcome.returned.inj hsame).symm
  obtain rfl := Tree.toValue_injective ht
  obtain rfl : (" (1 + 2)*3 " : Text) = w := List.append_cancel_right hfront.eq_append
  exact hfront

end Descent.Arithmetic
