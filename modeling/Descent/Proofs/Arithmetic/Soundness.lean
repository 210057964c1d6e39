import Descent.Grammar.Definitions
import Descent.Proofs.Arithmetic.Factor
import Descent.Proofs.Arithmetic.Harmless
import Descent.Proofs.Arithmetic.Level

/-!
# What the grammars of arithmetic match

Whatever the limit and whatever stands in the text, a match of the grammar of expressions is an
expression, and its output is the tree of that expression.  A match is taken to pieces in the same
way as the grammar is put together.  Nothing is said here of when there is a match.
-/

namespace Descent.Arithmetic

open Text Grammar

/-- Every match of the parser is a text of the language with its tree, and what it leaves. -/
def MatchesIn (p : Parser) (L : TreeLanguage) : Prop :=
  ∀ src v rest, p src = .returned (.success v rest) →
    ∃ w t, src = w ++ rest ∧ v = t.toValue ∧ L w t

variable {ctx : Context} {operand inner : Grammar} {L : TreeLanguage} {symbols src rest : Text}
  {v : Value}

/-! ### Tokens -/

theorem of_token_eq_success {g : Grammar} (h : g.token.run ctx src = .returned (.success v rest)) :
    ∃ middle : Text, g.run ctx src.dropBlanks = .returned (.success v middle) ∧
      rest = middle.dropBlanks := by
  rw [run_token] at h
  obtain ⟨⟨u, middle⟩ | f, hfirst, hlast⟩ := Outcome.bind_eq_returned_iff.mp h
  · obtain ⟨rfl, rfl⟩ : u = v ∧ middle.dropBlanks = rest := by simpa using hlast
    exact ⟨middle, hfirst, rfl⟩
  · simp at hlast

theorem of_symbol_eq_success {g : Grammar}
    (hg : g.run ctx = Parser.oneOf (Parser.characters symbols)) (hne : symbols ≠ [])
    (h : g.token.run ctx src = .returned (.success v rest)) :
    ∃ c ∈ symbols, ∃ before after : Text, Blanks before ∧ Blanks after ∧ v = .text [c] ∧
      src = before ++ c :: (after ++ rest) := by
  obtain ⟨before, hbefore, hsrc⟩ := exists_blanks_append_dropBlanks src
  by_cases hhead : ∃ c ∈ src.dropBlanks.head?, c ∈ symbols
  · obtain ⟨c, hc, hmem⟩ := hhead
    obtain ⟨body, hbody⟩ := List.head?_eq_some_iff.mp hc
    obtain ⟨after, hafter, hsplit⟩ := exists_blanks_append_dropBlanks body
    obtain ⟨rfl, rfl⟩ : .text [c] = v ∧ dropBlanks body = rest := by
      simpa [run_token_of_mem hg hbody hmem] using h
    refine ⟨c, hmem, before, after, hbefore, hafter, rfl, ?_⟩
    rw [← hsplit, ← hbody]
    exact hsrc
  · obtain ⟨f, hfail⟩ := run_token_of_notMem hg hne fun c hc hmem => hhead ⟨c, hc, hmem⟩
    simp [hfail] at h

/-! ### Factors -/

theorem of_number_eq_success (h : number.run ctx src = .returned (.success v rest)) :
    src.leadingDigits ≠ [] ∧ v = .int (Numeral.value 10 src.leadingDigits) ∧
      src = src.leadingDigits ++ rest := by
  obtain ⟨ctx', hgrows, hlimit⟩ := ctx.exists_growsTo src.length
  have hreply := (growsTo_run number hgrows src).eq_returned h
  by_cases hhead : ∃ c ∈ src.head?, c ∈ Alphabet.decimal
  · obtain ⟨c, hc, hdigit⟩ := hhead
    obtain ⟨tail, rfl⟩ := List.head?_eq_some_iff.mp hc
    rw [run_number_of_mem rfl hdigit hlimit] at hreply
    dsimp only at hreply
    split_ifs at hreply
    obtain ⟨rfl, rfl⟩ :
        .int (Numeral.value 10 (leadingDigits (c :: tail))) = v ∧
          (c :: tail).dropWhile (CharSet.ofText Alphabet.decimal) = rest := by
      simpa [leadingDigits] using hreply
    refine ⟨?_, rfl, List.takeWhile_append_dropWhile.symm⟩
    simp [leadingDigits, CharSet.ofText, hdigit]
  · obtain ⟨message, hfail⟩ := run_number_of_notMem (fun c hc hd => hhead ⟨c, hc, hd⟩) ctx'
    simp [hfail, Parser.failWith] at hreply

theorem matchesIn_token_number : MatchesIn (number.token.run ctx) (FactorOf L) := by
  intro src v rest h
  obtain ⟨middle, hnumber, rfl⟩ := of_token_eq_success h
  obtain ⟨hne, rfl, hsplit⟩ := of_number_eq_success hnumber
  obtain ⟨before, hbefore, hsrc⟩ := exists_blanks_append_dropBlanks src
  obtain ⟨after, hafter, hmiddle⟩ := exists_blanks_append_dropBlanks middle
  refine ⟨_, _, ?_, rfl, .number hbefore hne (fun c => mem_decimal_of_mem_leadingDigits) hafter⟩
  rw [List.append_assoc, List.append_assoc, ← hmiddle, ← hsplit]
  exact hsrc

theorem of_parenthesizedOf_eq_success
    (h : (parenthesizedOf inner).run ctx src = .returned (.success v rest)) :
    ∃ (opening closing : Value) (body after : Text),
      (literal "(").token.run ctx src = .returned (.success opening body) ∧
        inner.run ctx body = .returned (.success v after) ∧
          (literal ")").token.run ctx after = .returned (.success closing rest) := by
  obtain ⟨u, hsequence, hpick⟩ := Parser.of_map_eq_success h
  obtain ⟨vs, rfl, hcollect⟩ := Parser.of_sequence_eq_success hsequence
  obtain ⟨opening, body, vs, hopen, hbehind, rfl⟩ := Parser.collect_cons_cases hcollect
  obtain ⟨v', after, vs, hinner, hlast, rfl⟩ := Parser.collect_cons_cases hbehind
  obtain ⟨closing, last, vs, hclose, hend, rfl⟩ := Parser.collect_cons_cases hlast
  obtain ⟨-, rfl⟩ : [] = vs ∧ last = rest := by simpa [runAll, Parser.collect] using hend
  obtain rfl : v' = v := by simpa [Value.pick, Value.items?] using hpick
  exact ⟨opening, closing, body, after, hopen, hinner, hclose⟩

theorem matchesIn_parenthesizedOf (h : MatchesIn (inner.run ctx) L) :
    MatchesIn ((parenthesizedOf inner).run ctx) (FactorOf L) := by
  intro src v rest hmatch
  obtain ⟨opening, closing, body, after, hopen, hinner, hclose⟩ :=
    of_parenthesizedOf_eq_success hmatch
  obtain ⟨c, hc, before, left, hbefore, hleft, -, rfl⟩ :=
    of_symbol_eq_success (run_open ctx) (by simp) hopen
  obtain ⟨w, t, rfl, rfl, hw⟩ := h body v after hinner
  obtain ⟨c', hc', right, behind, hright, hbehind, -, rfl⟩ :=
    of_symbol_eq_success (run_close ctx) (by simp) hclose
  obtain rfl : c = '(' := by simpa using hc
  obtain rfl : c' = ')' := by simpa using hc'
  refine ⟨_, t, ?_, rfl, .parenthesized hbefore hleft hw hright hbehind⟩
  simp

theorem matchesIn_factorOf (h : MatchesIn (inner.run ctx) L) :
    MatchesIn ((factorOf inner).run ctx) (FactorOf L) := by
  intro src v rest hmatch
  obtain ⟨p, hp, hreply⟩ := Parser.of_oneOf_eq_success hmatch
  simp only [runAll, List.mem_cons, List.not_mem_nil, or_false] at hp
  rcases hp with rfl | rfl
  · exact matchesIn_token_number src v rest hreply
  · exact matchesIn_parenthesizedOf h src v rest hreply

/-! ### Levels -/

theorem of_operation_eq_success
    (h : (operation operand symbols).run ctx src = .returned (.success v rest)) :
    ∃ (symbol operandValue : Value) (middle : Text),
      (Grammar.oneOf (symbols.map fun c => literal [c])).token.run ctx src =
          .returned (.success symbol middle) ∧
        operand.run ctx middle = .returned (.success operandValue rest) ∧
          v = .list [symbol, operandValue] := by
  obtain ⟨vs, rfl, hcollect⟩ := Parser.of_sequence_eq_success h
  obtain ⟨symbol, middle, vs, hsymbol, hbehind, rfl⟩ := Parser.collect_cons_cases hcollect
  obtain ⟨operandValue, last, vs, hoperand, hend, rfl⟩ := Parser.collect_cons_cases hbehind
  obtain ⟨rfl, rfl⟩ : [] = vs ∧ last = rest := by simpa [runAll, Parser.collect] using hend
  exact ⟨symbol, operandValue, middle, hsymbol, hoperand, rfl⟩

theorem of_level_eq_success
    (h : (level operand symbols).run ctx src = .returned (.success v rest)) :
    ∃ (first : Value) (middle : Text) (operations : List Value),
      operand.run ctx src = .returned (.success first middle) ∧
        ((operation operand symbols).run ctx).gather ctx.limit middle =
          .returned (operations, rest) ∧
        chain (.list [first, .list operations]) = .ok v := by
  rw [run_level] at h
  obtain ⟨⟨first, middle⟩ | f, hoperand, h⟩ := Outcome.bind_eq_returned_iff.mp h
  · obtain ⟨⟨operations, last⟩, hgather, h⟩ := Outcome.bind_eq_returned_iff.mp h
    obtain ⟨u, hchain, h⟩ := Outcome.bind_eq_returned_iff.mp h
    obtain ⟨rfl, rfl⟩ : u = v ∧ last = rest := by simpa using h
    refine ⟨first, middle, operations, hoperand, hgather, ?_⟩
    cases hok : chain (.list [first, .list operations]) with
    | error fault => simp [hok] at hchain
    | ok w =>
        obtain rfl : w = u := by simpa [hok] using hchain
        rfl
  · simp at h

theorem operations_of_gather (h : MatchesIn (operand.run ctx) L) (hne : symbols ≠ [])
    {limit : Nat} {vs : List Value}
    (hgather : ((operation operand symbols).run ctx).gather limit src = .returned (vs, rest)) :
    ∃ w operations, src = w ++ rest ∧ vs = Tree.operationsToValue operations ∧
      Operations L symbols w operations := by
  induction limit generalizing src vs with
  | zero => simp [Parser.gather] at hgather
  | succ limit ih =>
      rcases Parser.gather_cases hgather with
        ⟨f, -, rfl, rfl⟩ | ⟨hnothing, -⟩ | ⟨v, middle, vs', hfirst, hothers, rfl⟩
      · exact ⟨[], [], rfl, rfl, .nil⟩
      · obtain ⟨symbol, operandValue, middle, -, -, hv⟩ := of_operation_eq_success hnothing
        cases hv
      · obtain ⟨symbol, operandValue, behind, hsymbol, hoperand, rfl⟩ :=
          of_operation_eq_success hfirst
        obtain ⟨c, hc, before, after, hbefore, hafter, rfl, rfl⟩ :=
          of_symbol_eq_success (run_characters symbols ctx) hne hsymbol
        obtain ⟨w, t, rfl, rfl, hw⟩ := h behind operandValue middle hoperand
        obtain ⟨w', operations, rfl, rfl, hoperations⟩ := ih hothers
        refine ⟨_, ([c], t) :: operations, ?_, rfl, .cons hbefore hc hafter hw hoperations⟩
        simp

theorem matchesIn_level (h : MatchesIn (operand.run ctx) L) (hne : symbols ≠ []) :
    MatchesIn ((level operand symbols).run ctx) (ChainOf L symbols) := by
  intro src v rest hmatch
  obtain ⟨first, middle, vs, hoperand, hgather, hchain⟩ := of_level_eq_success hmatch
  obtain ⟨w, t, rfl, rfl, hw⟩ := h src first middle hoperand
  obtain ⟨w', operations, rfl, rfl, hoperations⟩ := operations_of_gather h hne hgather
  rw [chain_toValue] at hchain
  exact ⟨w ++ w', Tree.chained t operations, (List.append_assoc _ _ _).symm,
    (Except.ok.inj hchain).symm,
    chainOf_iff.mpr ⟨w, w', t, operations, rfl, rfl, hw, hoperations⟩⟩

theorem matchesIn_expressionOf (h : MatchesIn (inner.run ctx) Expression) :
    MatchesIn ((expressionOf inner).run ctx) Expression := by
  intro src v rest hmatch
  have hterm : MatchesIn ((termOf inner).run ctx) (ChainOf (FactorOf Expression) "*/") :=
    matchesIn_level (matchesIn_factorOf h) (by decide)
  obtain ⟨w, t, hsrc, hv, hw⟩ := matchesIn_level hterm (by decide) src v rest hmatch
  exact ⟨w, t, hsrc, hv, .sum hw⟩

/-- Every unrolling of the grammar of expressions only matches expressions. -/
theorem matchesIn_recursive (ctx : Context) (depth : Nat) :
    MatchesIn (Parser.recursive (fun p => (expressionOf .self).run { ctx with self := p }) depth)
      Expression := by
  induction depth with
  | zero =>
      intro src v rest h
      simp [Parser.recursive] at h
  | succ depth ih =>
      set p := Parser.recursive (fun p => (expressionOf .self).run { ctx with self := p }) depth
      have hself : MatchesIn (Grammar.self.run { ctx with self := p }) Expression := ih
      exact matchesIn_expressionOf hself

theorem matchesIn_expression (limit : Nat) : MatchesIn (expression.apply [] limit) Expression :=
  matchesIn_recursive _ limit

end Descent.Arithmetic
