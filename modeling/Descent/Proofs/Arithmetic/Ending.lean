import Descent.Proofs.Arithmetic.Soundness
import Descent.Proofs.Parser.Ending

/-!
# The grammar of expressions ends

Whatever the text, a limit above its length suffices for the grammar of expressions.  Every operation
and every pair of parentheses takes a character of its own, so no repetition has more iterations and
no recursion more levels than there are characters.
-/

namespace Descent.Arithmetic

open Text Grammar

/-- The parser ends on all inputs shorter than `n`. -/
def EndsBelow (p : Parser) (n : Nat) : Prop := ∀ src : Text, src.length < n → p.EndsOn src

variable {ctx : Context} {g operand inner : Grammar} {L : TreeLanguage} {symbols src rest : Text}
  {v : Value} {n : Nat}

theorem MatchesIn.length_le {p : Parser} (h : MatchesIn p L)
    (hmatch : p src = .returned (.success v rest)) : rest.length ≤ src.length := by
  obtain ⟨w, t, rfl, -, -⟩ := h src v rest hmatch
  simp

/-! ### Tokens -/

theorem endsBelow_token (h : EndsBelow (g.run ctx) n) : EndsBelow (g.token.run ctx) n := by
  intro src hsrc
  rw [Parser.EndsOn, run_token]
  have hle := (dropBlanks_suffix src).length_le
  apply Parser.endsOn_bind (h src.dropBlanks (Nat.lt_of_le_of_lt hle hsrc))
  rintro (⟨v, rest⟩ | f) - <;> simp

theorem endsBelow_symbol (hg : g.run ctx = Parser.oneOf (Parser.characters symbols)) :
    EndsBelow (g.token.run ctx) n := by
  apply endsBelow_token
  intro src _
  rw [hg]
  apply Parser.endsOn_oneOf
  intro p hp
  obtain ⟨c, -, rfl⟩ := List.mem_map.mp hp
  exact Parser.endsOn_literal

theorem length_lt_of_symbol (hg : g.run ctx = Parser.oneOf (Parser.characters symbols))
    (hne : symbols ≠ []) (h : g.token.run ctx src = .returned (.success v rest)) :
    rest.length < src.length := by
  obtain ⟨c, -, before, after, -, -, -, rfl⟩ := of_symbol_eq_success hg hne h
  simp only [List.length_append, List.length_cons]
  omega

theorem endsBelow_number (hn : n ≤ ctx.limit + 1) : EndsBelow (number.run ctx) n := by
  intro src hsrc
  have hlimit : src.length ≤ ctx.limit := by omega
  by_cases hlong : Numeral.decimalLimit < src.leadingDigits.length
  · simp [Parser.EndsOn, run_number_of_overlong hlimit hlong]
  · obtain ⟨r, hr⟩ := exists_reply_number hlimit (Nat.not_lt.mp hlong)
    simp [Parser.EndsOn, hr]

/-! ### Levels -/

theorem endsBelow_operation (h : EndsBelow (operand.run ctx) n) (hne : symbols ≠ []) :
    EndsBelow ((operation operand symbols).run ctx) n := by
  intro src hsrc
  have hsymbol := run_characters symbols ctx
  apply Parser.endsOn_sequence_cons (endsBelow_symbol hsymbol src hsrc)
  intro v rest hfirst
  have hlt := length_lt_of_symbol hsymbol hne hfirst
  exact Parser.endsOn_sequence_cons (h rest (Nat.lt_trans hlt hsrc))
    fun _ _ _ => Parser.endsOn_sequence_nil

theorem length_lt_of_operation (h : MatchesIn (operand.run ctx) L) (hne : symbols ≠ [])
    (hmatch : (operation operand symbols).run ctx src = .returned (.success v rest)) :
    rest.length < src.length := by
  obtain ⟨symbol, operandValue, middle, hsymbol, hoperand, rfl⟩ := of_operation_eq_success hmatch
  have hlt := length_lt_of_symbol (run_characters symbols ctx) hne hsymbol
  exact Nat.lt_of_le_of_lt (h.length_le hoperand) hlt

theorem endsBelow_level (h : EndsBelow (operand.run ctx) n) (hmatches : MatchesIn (operand.run ctx) L)
    (hne : symbols ≠ []) (hn : n ≤ ctx.limit) : EndsBelow ((level operand symbols).run ctx) n := by
  intro src hsrc
  refine Parser.EndsOn.map (Parser.endsOn_sequence_cons (h src hsrc) fun v rest hfirst => ?_) _
  have hrest : rest.length < n := Nat.lt_of_le_of_lt (hmatches.length_le hfirst) hsrc
  refine Parser.endsOn_sequence_cons (Parser.endsOn_many (Nat.lt_of_lt_of_le hrest hn) ?_ ?_)
    fun _ _ _ => Parser.endsOn_sequence_nil
  · rintro src' (rfl | hlt)
    · exact endsBelow_operation h hne src' hrest
    · exact endsBelow_operation h hne src' (Nat.lt_trans hlt hrest)
  · intro src v rest hmatch
    exact length_lt_of_operation hmatches hne hmatch

/-! ### Parentheses -/

/-- What stands between parentheses is shorter. -/
theorem endsBelow_parenthesizedOf (h : EndsBelow (inner.run ctx) n) :
    EndsBelow ((parenthesizedOf inner).run ctx) (n + 1) := by
  intro src hsrc
  have hopen := endsBelow_symbol (run_open ctx) src hsrc
  refine Parser.EndsOn.map (Parser.endsOn_sequence_cons hopen fun v body hfirst => ?_) _
  have hlt := length_lt_of_symbol (run_open ctx) (by simp) hfirst
  refine Parser.endsOn_sequence_cons (h body (by omega)) fun v after _ => ?_
  have hclose := endsBelow_symbol (run_close ctx) after (Nat.lt_succ_self _)
  exact Parser.endsOn_sequence_cons hclose fun _ _ _ => Parser.endsOn_sequence_nil

theorem endsBelow_factorOf (h : EndsBelow (inner.run ctx) n) (hn : n ≤ ctx.limit) :
    EndsBelow ((factorOf inner).run ctx) (n + 1) := by
  intro src hsrc
  have hnumber : EndsBelow (number.token.run ctx) (n + 1) :=
    endsBelow_token (endsBelow_number (Nat.succ_le_succ hn))
  apply Parser.endsOn_oneOf
  simpa [runAll] using ⟨hnumber src hsrc, endsBelow_parenthesizedOf h src hsrc⟩

theorem endsBelow_expressionOf (h : EndsBelow (inner.run ctx) n)
    (hmatches : MatchesIn (inner.run ctx) Expression) (hn : n < ctx.limit) :
    EndsBelow ((expressionOf inner).run ctx) (n + 1) := by
  have hfactor := matchesIn_factorOf hmatches
  have hterm : EndsBelow ((termOf inner).run ctx) (n + 1) :=
    endsBelow_level (endsBelow_factorOf h (Nat.le_of_lt hn)) hfactor (by decide) hn
  exact endsBelow_level hterm (matchesIn_level hfactor (by decide)) (by decide) hn

theorem endsBelow_recursive {depth : Nat} (hdepth : depth ≤ ctx.limit) : EndsBelow
    (Parser.recursive (fun p => (expressionOf .self).run { ctx with self := p }) depth) depth := by
  induction depth with
  | zero => exact fun src hsrc => absurd hsrc (Nat.not_lt_zero _)
  | succ depth ih =>
      have hmatches := matchesIn_recursive ctx depth
      have hends := ih (Nat.le_of_lt hdepth)
      set p := Parser.recursive (fun p => (expressionOf .self).run { ctx with self := p }) depth
      have hself : EndsBelow (Grammar.self.run { ctx with self := p }) depth := hends
      exact endsBelow_expressionOf hself hmatches hdepth

theorem endsBelow_expression (limit : Nat) : EndsBelow (expression.apply [] limit) limit :=
  endsBelow_recursive (Nat.le_refl limit)

end Descent.Arithmetic
