import Descent.Arithmetic.Evaluation
import Descent.Proofs.Arithmetic.LongestPrefix

/-!
# Expressions with numerals of any length

The numerals of an expression are converted while it is parsed, from left to right, and the first
one that is too long breaks the parser off.  Nothing else does: an expression without one is read to
its end.  So reading an expression comes to the same as converting the digit runs of its text one
after the other and then replying with its tree.  This is said of an expression in front of
something that cannot continue it, whatever numerals are in there.
-/

namespace Descent

/-! ### Converting the digit runs of a text -/

/-- The longest runs of decimal digits in a text, in order.  Between two neighbouring characters that
are no digits there is an empty run. -/
def Text.digitRuns (t : Text) : List Text := t.splitOnP fun c => !CharSet.ofText Alphabet.decimal c

def convertNumeral (run : Text) : Outcome PUnit :=
  if Numeral.decimalLimit < run.length then .raised (.tooManyDigits run.length) else .returned ⟨⟩

/-- Converts the digit runs of a text, up to the first one that is too long for a numeral. -/
def Text.convertNumerals (t : Text) : Outcome PUnit := forM t.digitRuns convertNumeral

namespace Text

variable {c : CodePoint} {b digits rest t : Text}

theorem convertNumerals_nil : convertNumerals [] = .returned ⟨⟩ := rfl

theorem convertNumerals_digits (h : ∀ c ∈ digits, c ∈ Alphabet.decimal) :
    digits.convertNumerals = convertNumeral digits := by
  have hruns : digits.digitRuns = [digits] :=
    List.splitOnP_eq_singleton (by simpa [CharSet.ofText] using h)
  rw [convertNumerals, hruns, List.forM_cons, List.forM_nil]
  exact bind_pure_unit

theorem convertNumerals_append_cons (hc : c ∉ Alphabet.decimal) (t rest : Text) :
    (t ++ c :: rest).convertNumerals = (do
      t.convertNumerals
      rest.convertNumerals) := by
  have hruns : (t ++ c :: rest).digitRuns = t.digitRuns ++ rest.digitRuns :=
    List.splitOnP_append_cons t rest (by simpa [CharSet.ofText] using hc)
  rw [convertNumerals, hruns, List.forM_append]
  rfl

theorem convertNumerals_cons (hc : c ∉ Alphabet.decimal) (t : Text) :
    convertNumerals (c :: t) = t.convertNumerals :=
  convertNumerals_append_cons hc [] t

theorem convertNumerals_append (hrest : ∀ c ∈ rest.head?, c ∉ Alphabet.decimal) (t : Text) :
    (t ++ rest).convertNumerals = (do
      t.convertNumerals
      rest.convertNumerals) := by
  cases rest with
  | nil =>
      rw [List.append_nil, convertNumerals_nil]
      exact bind_pure_unit.symm
  | cons c rest =>
      have hc : c ∉ Alphabet.decimal := hrest c rfl
      rw [convertNumerals_append_cons hc, convertNumerals_cons hc]

theorem convertNumerals_append_left (hb : ∀ c ∈ b, c ∉ Alphabet.decimal) (t : Text) :
    (b ++ t).convertNumerals = t.convertNumerals := by
  induction b with
  | nil => rfl
  | cons c b ih =>
      rw [List.cons_append, convertNumerals_cons (hb c (by simp))]
      exact ih fun d hd => hb d (List.mem_cons_of_mem c hd)

theorem convertNumerals_append_right (hb : ∀ c ∈ b, c ∉ Alphabet.decimal) (t : Text) :
    (t ++ b).convertNumerals = t.convertNumerals := by
  have hhead : ∀ c ∈ b.head?, c ∉ Alphabet.decimal :=
    fun c hc => hb c (List.mem_of_mem_head? hc)
  have hnone : b.convertNumerals = .returned ⟨⟩ := by
    simpa [convertNumerals_nil] using convertNumerals_append_left hb []
  rw [convertNumerals_append hhead, hnone]
  exact bind_pure_unit

theorem convertNumerals_cases (t : Text) :
    t.convertNumerals = .returned ⟨⟩ ∨ ∃ fault, t.convertNumerals = .raised fault := by
  unfold convertNumerals
  induction t.digitRuns with
  | nil => exact .inl rfl
  | cons run runs ih =>
      rw [List.forM_cons, convertNumeral]
      split_ifs with hlong
      · exact .inr ⟨_, rfl⟩
      · exact ih

theorem Blanks.notMem_decimal (hb : Blanks b) : ∀ c ∈ b, c ∉ Alphabet.decimal :=
  fun c hc => Arithmetic.notMem_decimal_of_mem_blank (hb c hc)

/-- Parentheses do not separate digits that belong together. -/
theorem convertNumerals_parenthesized
    {before left right behind : Text} (hbefore : Blanks before) (hleft : Blanks left)
    (hright : Blanks right) (hbehind : Blanks behind) (w : Text) :
    convertNumerals (before ++ ('(' : CodePoint) ::
        (left ++ (w ++ (right ++ (')' : CodePoint) :: behind)))) = w.convertNumerals := by
  have hopen : ('(' : CodePoint) ∉ Alphabet.decimal := by decide
  rw [convertNumerals_append_left hbefore.notMem_decimal, convertNumerals_cons hopen,
    convertNumerals_append_left hleft.notMem_decimal]
  apply convertNumerals_append_right
  intro c hc
  rcases List.mem_append.mp hc with hc | hc
  · exact hright.notMem_decimal c hc
  · rcases List.mem_cons.mp hc with rfl | hc
    · decide
    · exact hbehind.notMem_decimal c hc

end Text

namespace Arithmetic

open Text Grammar

/-- In front of what cannot continue it, the parser reads every text of the language that is shorter
than `n` together with what follows: it converts the numerals in the text and outputs the tree. -/
structure ReadsThrough (p : Parser) (L : TreeLanguage) (more : Text) (n : Nat) : Prop where
  skips : SkipsBlanks p
  factorMore_subset : factorMore ⊆ more
  trails : TrailsBlanks L
  reads : ∀ w t after, L w t → (w ++ after).length < n → BeginsOutside more after →
    p (w ++ after) = (do
      w.convertNumerals
      return .success t.toValue after)

variable {ctx : Context} {p : Parser} {inner operand : Grammar} {L : TreeLanguage}
  {symbols more src rest after w : Text} {t : Tree} {operations : List (Text × Tree)} {n : Nat}

theorem ReadsThrough.blank_subset (h : ReadsThrough p L more n) : Alphabet.blank ⊆ more :=
  List.Subset.trans (List.subset_append_left _ _) h.factorMore_subset

theorem ReadsThrough.notMem_decimal (h : ReadsThrough p L more n) {c : CodePoint} (hc : c ∉ more) :
    c ∉ Alphabet.decimal :=
  fun hmem => hc (h.factorMore_subset (List.mem_append_right _ hmem))

/-! ### Factors -/

theorem run_number_eq_convertNumeral
    (h : src.leadingDigits ≠ []) (hlimit : src.length ≤ ctx.limit) :
    number.run ctx src = (do
      convertNumeral src.leadingDigits
      return .success (.int (Numeral.value 10 src.leadingDigits))
        (src.dropWhile (CharSet.ofText Alphabet.decimal))) := by
  rw [run_number_of_digits h hlimit, convertNumeral]
  split_ifs <;> rfl

theorem run_factorOf_digits
    {before digits behind : Text} (hbefore : Blanks before) (hne : digits ≠ [])
    (hdigits : ∀ c ∈ digits, c ∈ Alphabet.decimal) (hbehind : Blanks behind)
    (hlimit : (before ++ (digits ++ behind) ++ after).length ≤ ctx.limit)
    (hafter : BeginsOutside factorMore after) (inner : Grammar) :
    (factorOf inner).run ctx (before ++ (digits ++ behind) ++ after) = (do
      (before ++ (digits ++ behind)).convertNumerals
      return .success (.int (Numeral.value 10 digits)) after) := by
  have hpositive : ∀ c ∈ digits, CharSet.ofText Alphabet.decimal c = true := by
    simpa [CharSet.ofText] using hdigits
  obtain ⟨hnone, hrest⟩ := (dropBlanks_dropWhile_digits hbehind after).2 hafter
  have hleading : leadingDigits (digits ++ (behind ++ after)) = digits := by
    rw [leadingDigits, List.takeWhile_append_of_pos hpositive, hnone, List.append_nil]
  have hdrop : dropBlanks (before ++ (digits ++ behind) ++ after) = digits ++ (behind ++ after) := by
    simp only [List.append_assoc]
    exact dropBlanks_append_digits hbefore hne hdigits _
  have hnumber : number.run ctx (digits ++ (behind ++ after)) = _ :=
    run_number_eq_convertNumeral (by rwa [hleading]) (by simp at hlimit ⊢; omega)
  rw [hleading, List.dropWhile_append_of_pos hpositive] at hnumber
  have htoken : number.token.run ctx (before ++ (digits ++ behind) ++ after) = (do
      convertNumeral digits
      return .success (.int (Numeral.value 10 digits)) after) := by
    rw [run_token, hdrop, hnumber]
    simp [bind_assoc, hrest]
  have hconvert : (before ++ (digits ++ behind)).convertNumerals = convertNumeral digits := by
    rw [convertNumerals_append_left hbefore.notMem_decimal,
      convertNumerals_append_right hbehind.notMem_decimal, convertNumerals_digits hdigits]
  simp only [factorOf, run, runAll, Parser.oneOf, htoken, hconvert]
  simp [bind_assoc]

theorem run_factorOf_of_readsThrough
    (hinner : ReadsThrough (inner.run ctx) L more n) (hclose : (')' : CodePoint) ∉ more)
    {before left right behind : Text} (hbefore : Blanks before) (hleft : Blanks left) (hw : L w t)
    (hright : Blanks right) (hbehind : Blanks behind) (hafter : BeginsOutside factorMore after)
    (hlength : (before ++ ('(' : CodePoint) ::
      (left ++ (w ++ (right ++ (')' : CodePoint) :: behind))) ++ after).length ≤ n) :
    (factorOf inner).run ctx (before ++ ('(' : CodePoint) ::
        (left ++ (w ++ (right ++ (')' : CodePoint) :: behind))) ++ after) = (do
      w.convertNumerals
      return .success t.toValue after) := by
  have hlast := run_token_close hbehind ctx after
  rw [dropBlanks_eq_of_beginsOutside (List.subset_append_left _ _) hafter] at hlast
  have hread := hinner.reads (w ++ right) t ((')' : CodePoint) :: (behind ++ after))
    (hinner.trails w t right hw hright) (by simp at hlength ⊢; omega)
    (beginsOutside_cons.mpr hclose)
  rw [run_factorOf_parentheses hinner.skips hbefore hleft, hread,
    convertNumerals_append_right hright.notMem_decimal]
  simp [bind_assoc, hlast]

theorem readsThrough_factorOf
    (hinner : ReadsThrough (inner.run ctx) L more n) (hclose : (')' : CodePoint) ∉ more)
    (hn : n ≤ ctx.limit) :
    ReadsThrough ((factorOf inner).run ctx) (FactorOf L) factorMore (n + 1) where
  skips := skipsBlanks_factorOf inner ctx
  factorMore_subset := List.Subset.refl _
  trails := trailsBlanks_factorOf L
  reads w t after hw hlength hafter := by
    cases hw with
    | number hbefore hne hdigits hbehind =>
        exact run_factorOf_digits hbefore hne hdigits hbehind (by omega) hafter inner
    | parenthesized hbefore hleft hw hright hbehind =>
        rw [convertNumerals_parenthesized hbefore hleft hright hbehind]
        exact run_factorOf_of_readsThrough hinner hclose hbefore hleft hw hright hbehind hafter
          (by omega)

/-! ### Levels -/

theorem Operations.head?_notMem_decimal
    (h : Operations L symbols w operations) (hsymbols : ∀ c ∈ symbols, c ∉ Alphabet.decimal) :
    ∀ c ∈ w.head?, c ∉ Alphabet.decimal := by
  intro c hc
  cases h with
  | nil => simp at hc
  | @cons before _ _ _ symbol _ _ hbefore hsymbol =>
      cases before with
      | nil =>
          obtain rfl : symbol = c := by simpa using hc
          exact hsymbols symbol hsymbol
      | cons d before =>
          obtain rfl : d = c := by simpa using hc
          exact hbefore.notMem_decimal d (by simp)

/-- What stands behind an operand, less the blanks that the operand takes, cannot continue it. -/
theorem Operations.dropBlanks_beginsOutside
    (h : Operations L symbols rest operations) (hsymbols : ∀ c ∈ symbols, c ∉ more)
    (hmore : Alphabet.blank ⊆ more) (hafter : BeginsOutside more after) :
    BeginsOutside more (rest ++ after).dropBlanks := by
  cases h with
  | nil =>
      rw [List.nil_append, dropBlanks_eq_of_beginsOutside hmore hafter]
      exact hafter
  | @cons before _ _ _ symbol _ _ hbefore hsymbol =>
      have hblank : symbol ∉ Alphabet.blank := fun hmem => hsymbols symbol hsymbol (hmore hmem)
      rw [List.append_assoc, List.cons_append, dropBlanks_append_cons hbefore hblank]
      exact beginsOutside_cons.mpr (hsymbols symbol hsymbol)

/-- An operand takes the blanks behind it, and leaves the first operator in front. -/
theorem run_operand_of_operations
    (hoperand : ReadsThrough (operand.run ctx) L more n) (hsymbols : ∀ c ∈ symbols, c ∉ more)
    (hw : L w t) (hrest : Operations L symbols rest operations) (hafter : BeginsOutside more after)
    (hlength : (w ++ (rest ++ after)).length < n) :
    operand.run ctx (w ++ (rest ++ after)) = (do
      w.convertNumerals
      return .success t.toValue (rest ++ after).dropBlanks) := by
  obtain ⟨b, hb, hsplit⟩ := exists_blanks_append_dropBlanks (rest ++ after)
  have hword : w ++ (rest ++ after) = (w ++ b) ++ (rest ++ after).dropBlanks := by
    rw [List.append_assoc, ← hsplit]
  have hbegins := hrest.dropBlanks_beginsOutside hsymbols hoperand.blank_subset hafter
  rw [hword] at hlength ⊢
  rw [hoperand.reads (w ++ b) t _ (hoperand.trails w t b hw hb) hlength hbegins,
    convertNumerals_append_right hb.notMem_decimal]

theorem gather_operations
    (hoperand : ReadsThrough (operand.run ctx) L more n) (hsymbols : ∀ c ∈ symbols, c ∉ more)
    (hne : symbols ≠ []) (hrest : Operations L symbols rest operations)
    (hafter : BeginsOutside (more ++ symbols) after) (hlength : (rest ++ after).length < n)
    {limit : Nat} (hlimit : (rest ++ after).length < limit) :
    ((operation operand symbols).run ctx).gather limit (rest ++ after).dropBlanks = (do
      rest.convertNumerals
      return (Tree.operationsToValue operations, after)) := by
  have hblank : ∀ c ∈ symbols, c ∉ Alphabet.blank :=
    fun c hc hmem => hsymbols c hc (hoperand.blank_subset hmem)
  have hdecimal : ∀ c ∈ symbols, c ∉ Alphabet.decimal :=
    fun c hc => hoperand.notMem_decimal (hsymbols c hc)
  have hoperandAfter : BeginsOutside more after := hafter.mono (List.subset_append_left _ _)
  induction hrest generalizing limit with
  | nil =>
      obtain ⟨limit, rfl⟩ := Nat.exists_eq_add_one_of_ne_zero (Nat.ne_zero_of_lt hlimit)
      have hdrop : after.dropBlanks = after :=
        dropBlanks_eq_of_beginsOutside hoperand.blank_subset hoperandAfter
      have hnot : ∀ c ∈ after.dropBlanks.head?, c ∉ symbols := by
        rw [hdrop]
        exact hafter.mono (List.subset_append_right _ _)
      obtain ⟨f, hstop⟩ := run_operation_of_notMem hne hnot operand ctx
      rw [List.nil_append, hdrop, Parser.gather_of_failure hstop]
      rfl
  | @cons before behind w rest symbol t operations hbefore hsymbol hbehind hw hrest ih =>
      obtain ⟨limit, rfl⟩ := Nat.exists_eq_add_one_of_ne_zero (Nat.ne_zero_of_lt hlimit)
      have hsrc : dropBlanks (before ++ symbol :: (behind ++ (w ++ rest)) ++ after) =
          symbol :: (behind ++ (w ++ (rest ++ after))) := by
        simp only [List.append_assoc, List.cons_append]
        exact dropBlanks_append_cons hbefore (hblank symbol hsymbol) _
      have hhead : dropBlanks (symbol :: (behind ++ (w ++ (rest ++ after)))) =
          symbol :: (behind ++ (w ++ (rest ++ after))) :=
        dropBlanks_append_cons blanks_nil (hblank symbol hsymbol) _
      have hconvert : convertNumerals (before ++ symbol :: (behind ++ (w ++ rest))) = (do
          w.convertNumerals
          rest.convertNumerals) := by
        rw [convertNumerals_append_left hbefore.notMem_decimal,
          convertNumerals_cons (hdecimal symbol hsymbol),
          convertNumerals_append_left hbehind.notMem_decimal,
          convertNumerals_append (hrest.head?_notMem_decimal hdecimal)]
      simp only [List.length_append, List.length_cons] at hlength hlimit
      -- the operand takes the blanks in front of the next operator, where the repetition goes on
      have hfirst := run_operand_of_operations hoperand hsymbols hw hrest hoperandAfter
        (by simp only [List.length_append]; omega)
      rw [← hoperand.skips behind _ hbehind] at hfirst
      have hothers : ((operation operand symbols).run ctx).gather limit (rest ++ after).dropBlanks =
          _ :=
        ih (by simp only [List.length_append]; omega) (by simp only [List.length_append]; omega)
      rw [hsrc, Parser.gather, run_operation_of_mem hoperand.skips hsymbol hhead, hfirst, hconvert]
      simp [bind_assoc, hothers, Tree.operationsToValue]

theorem readsThrough_level
    (hoperand : ReadsThrough (operand.run ctx) L more n) (hsymbols : ∀ c ∈ symbols, c ∉ more)
    (hne : symbols ≠ []) (hn : n ≤ ctx.limit) :
    ReadsThrough ((level operand symbols).run ctx) (ChainOf L symbols) (more ++ symbols) n where
  skips := hoperand.skips.sequence.map
  factorMore_subset := List.Subset.trans hoperand.factorMore_subset (List.subset_append_left _ _)
  trails := trailsBlanks_chainOf hoperand.trails symbols
  reads w t after hw hlength hafter := by
    obtain ⟨w, rest, first, operations, rfl, rfl, hw, hrest⟩ := chainOf_iff.mp hw
    rw [List.append_assoc] at hlength ⊢
    have hshorter : (rest ++ after).length < n := by
      rw [List.length_append] at hlength
      omega
    have hfirst := run_operand_of_operations hoperand hsymbols hw hrest
      (hafter.mono (List.subset_append_left _ _)) hlength
    have hgather := gather_operations hoperand hsymbols hne hrest hafter hshorter
      (Nat.lt_of_lt_of_le hshorter hn)
    have hhead := hrest.head?_notMem_decimal fun c hc => hoperand.notMem_decimal (hsymbols c hc)
    rw [run_level, hfirst, convertNumerals_append hhead]
    simp [bind_assoc, hgather, chain_toValue]

/-! ### Expressions -/

theorem readsThrough_expressionOf
    (hinner : ReadsThrough (inner.run ctx) Expression more n) (hclose : (')' : CodePoint) ∉ more)
    (hn : n < ctx.limit) :
    ReadsThrough ((expressionOf inner).run ctx) Expression expressionMore (n + 1) := by
  have hterm : ReadsThrough ((termOf inner).run ctx) (ChainOf (FactorOf Expression) "*/")
      (factorMore ++ "*/") (n + 1) :=
    readsThrough_level (readsThrough_factorOf hinner hclose (Nat.le_of_lt hn)) (by decide)
      (by decide) hn
  have hsum : ReadsThrough ((expressionOf inner).run ctx)
      (ChainOf (ChainOf (FactorOf Expression) "*/") "+-") expressionMore (n + 1) :=
    readsThrough_level hterm (by decide) (by decide) hn
  refine ⟨hsum.skips, hsum.factorMore_subset, trailsBlanks_expression, fun w t after hw => ?_⟩
  cases hw with
  | sum hw => exact hsum.reads w t after hw

/-- Every unrolling of the grammar reads expressions that are one code point longer. -/
theorem readsThrough_recursive {depth : Nat} (hdepth : depth ≤ ctx.limit) :
    ReadsThrough (Parser.recursive (fun p => (expressionOf .self).run { ctx with self := p }) depth)
      Expression expressionMore depth := by
  induction depth with
  | zero =>
      constructor
      · exact fun b src hb => rfl
      · decide
      · exact trailsBlanks_expression
      · exact fun w t after _ hlength => absurd hlength (Nat.not_lt_zero _)
  | succ depth ih =>
      have hself := ih (Nat.le_of_lt hdepth)
      set p := Parser.recursive (fun p => (expressionOf .self).run { ctx with self := p }) depth
      have hinner : ReadsThrough (Grammar.self.run { ctx with self := p }) Expression expressionMore
          depth := hself
      exact readsThrough_expressionOf hinner (by decide) hdepth

theorem readsThrough_expression (limit : Nat) :
    ReadsThrough (expression.apply [] limit) Expression expressionMore limit :=
  readsThrough_recursive (Nat.le_refl limit)

/-- Evaluating an expression converts its numerals from left to right and then computes its tree. -/
theorem Expression.evaluate_eq (h : Expression w t) :
    evaluate w = (do
      w.convertNumerals
      ofComputation w t.compute) := by
  have hread := (readsThrough_expression (budget w)).reads w t [] h
    (by rw [List.append_nil, budget]; omega) beginsOutside_nil
  rw [List.append_nil] at hread
  rw [evaluate, Parser.parse, hread]
  simp [bind_assoc, Tree.ofValue?_toValue]

end Arithmetic

end Descent
