import Descent.Proofs.Arithmetic.Formula
import Descent.Proofs.Arithmetic.Language

/-!
# Chains and operations that nest to the left

Expressions have flat chains of operations and formulas have operations that nest to the left, but
the texts are the same, and so is what they compute to.  An operation behind a chain makes the
chain longer by one, which is what one more nesting does to a formula.  In the other direction
the operations of a chain are taken one after the other, and what stands between parentheses is
shorter.
-/

namespace Descent.Arithmetic

open Text

/-! ### From formulas to trees -/

theorem Tree.computeFrom_append
    (operations operations' : List (Text × Tree)) (value : Number) :
    computeFrom value (operations ++ operations') = (do
      let x ← computeFrom value operations
      computeFrom x operations') := by
  induction operations generalizing value with
  | nil =>
      rw [List.nil_append, computeFrom]
      rfl
  | cons operation operations ih =>
      obtain ⟨symbol, operand⟩ := operation
      rw [List.cons_append, computeFrom, computeFrom]
      cases Operator.ofSymbol? symbol with
      | none => rfl
      | some op => simp only [ih, bind_assoc]

theorem Tree.computeFrom_singleton (op : Operator) (operand : Tree) (value : Number) :
    computeFrom value [(op.symbol, operand)] = (do
      let y ← operand.compute
      op.apply value y) := by
  simp only [computeFrom, Operator.ofSymbol?_symbol]
  exact congrArg (operand.compute >>= ·) (funext fun y => bind_pure (op.apply value y))

theorem Tree.compute_chained (first : Tree) (operations : List (Text × Tree)) :
    (Tree.chained first operations).compute = (do
      let value ← first.compute
      computeFrom value operations) := by
  cases operations with
  | nil =>
      simp only [chained, computeFrom]
      exact (bind_pure _).symm
  | cons operation operations => rw [chained, compute]

theorem Operations.append
    {operand : TreeLanguage} {symbols w w' : Text} {operations operations' : List (Text × Tree)}
    (h : Operations operand symbols w operations)
    (h' : Operations operand symbols w' operations') :
    Operations operand symbols (w ++ w') (operations ++ operations') := by
  induction h with
  | nil => exact h'
  | cons hbefore hsymbol hafter hw hrest ih =>
      simp only [List.append_assoc, List.cons_append]
      exact .cons hbefore hsymbol hafter hw ih

theorem ChainOf.exists_append
    {operand : TreeLanguage} {symbols w before after w' : Text} {t t' : Tree} {op : Operator}
    (hw : ChainOf operand symbols w t) (hop : ∃ c ∈ symbols, op.symbol = [c])
    (hbefore : Blanks before) (hafter : Blanks after) (hw' : operand w' t') :
    ∃ t'', ChainOf operand symbols (w ++ (before ++ (op.symbol ++ (after ++ w')))) t'' ∧
      t''.compute = (do
        let x ← t.compute
        let y ← t'.compute
        op.apply x y) := by
  obtain ⟨c, hc, hsymbol⟩ := hop
  obtain ⟨w, rest, first, operations, rfl, rfl, hfirst, hrest⟩ := chainOf_iff.mp hw
  have hlast : Operations operand symbols (before ++ (op.symbol ++ (after ++ w')))
      [(op.symbol, t')] := by
    have hone := Operations.cons hbefore hc hafter hw' .nil
    rw [List.append_nil] at hone
    rwa [hsymbol]
  refine ⟨Tree.chained first (operations ++ [(op.symbol, t')]), ?_, ?_⟩
  · rw [List.append_assoc]
    exact chainOf_iff.mpr ⟨w, _, first, _, rfl, rfl, hfirst, hrest.append hlast⟩
  · simp only [Tree.compute_chained, Tree.computeFrom_append, Tree.computeFrom_singleton,
      bind_assoc]

/-- The expressions that bind as tightly as formulas of a precedence. -/
def Precedence.language : Precedence → TreeLanguage
  | .sum => Expression
  | .product => ChainOf (FactorOf Expression) "*/"
  | .factor => FactorOf Expression

/-- However a formula is written, the text has a tree that computes to the formula's value. -/
theorem Written.exists_tree
    {precedence : Precedence} {w : Text} {formula : Formula}
    (h : Written precedence w formula) :
    ∃ t, precedence.language w t ∧ t.compute = formula.eval := by
  induction h with
  | number hbefore hne hdigits hafter =>
      refine ⟨_, .number hbefore hne hdigits hafter, ?_⟩
      rw [Tree.compute, Formula.eval]
  | parenthesized hbefore hleft hw hright hafter ih =>
      obtain ⟨t, ht, hcompute⟩ := ih
      exact ⟨t, .parenthesized hbefore hleft ht hright hafter, hcompute⟩
  | factor hw ih =>
      obtain ⟨t, ht, hcompute⟩ := ih
      exact ⟨t, .single ht, hcompute⟩
  | @multiplication w before after w' op left right hleft hop hbefore hafter hright ihleft
      ihright =>
      obtain ⟨t, ht, hcompute⟩ := ihleft
      obtain ⟨t', ht', hcompute'⟩ := ihright
      have hsymbol : ∃ c ∈ ("*/" : Text), op.symbol = [c] := by
        simp only [List.mem_cons, List.not_mem_nil, or_false] at hop
        rcases hop with rfl | rfl <;> exact ⟨_, by decide, rfl⟩
      obtain ⟨t'', ht'', hcompute''⟩ := ht.exists_append hsymbol hbefore hafter ht'
      exact ⟨t'', ht'', by rw [hcompute'', hcompute, hcompute', Formula.eval]⟩
  | product hw ih =>
      obtain ⟨t, ht, hcompute⟩ := ih
      exact ⟨t, .sum (.single ht), hcompute⟩
  | @addition w before after w' op left right hleft hop hbefore hafter hright ihleft ihright =>
      obtain ⟨t, ⟨ht⟩, hcompute⟩ := ihleft
      obtain ⟨t', ht', hcompute'⟩ := ihright
      have hsymbol : ∃ c ∈ ("+-" : Text), op.symbol = [c] := by
        simp only [List.mem_cons, List.not_mem_nil, or_false] at hop
        rcases hop with rfl | rfl <;> exact ⟨_, by decide, rfl⟩
      obtain ⟨t'', ht'', hcompute''⟩ := ht.exists_append hsymbol hbefore hafter ht'
      exact ⟨t'', .sum ht'', by rw [hcompute'', hcompute, hcompute', Formula.eval]⟩

/-! ### From trees to formulas -/

theorem Tree.computeFrom_cons (op : Operator) (operand : Tree) (operations : List (Text × Tree))
    (value : Number) :
    computeFrom value ((op.symbol, operand) :: operations) = (do
      let x ← op.apply value (← operand.compute)
      computeFrom x operations) := by
  simp only [computeFrom, Operator.ofSymbol?_symbol]

theorem ChainOf.exists_formula
    {operand : TreeLanguage} {symbols w : Text} {t : Tree}
    {inner outer : Text → Formula → Prop} (hw : ChainOf operand symbols w t)
    (ops : List Operator) (hsymbols : ∀ c ∈ symbols, ∃ op ∈ ops, op.symbol = [c])
    (hsingle : ∀ w formula, inner w formula → outer w formula)
    (hstep : ∀ w before after w' op left right, outer w left → op ∈ ops → Blanks before →
      Blanks after → inner w' right →
      outer (w ++ (before ++ (op.symbol ++ (after ++ w')))) (.operation op left right))
    (hoperand : ∀ w' t', w'.length ≤ w.length → operand w' t' →
      ∃ formula, inner w' formula ∧ formula.eval = t'.compute) :
    ∃ formula, outer w formula ∧ formula.eval = t.compute := by
  obtain ⟨w, rest, first, operations, rfl, rfl, hfirst, hrest⟩ := chainOf_iff.mp hw
  obtain ⟨formula, hformula, heval⟩ := hoperand w first (by simp) hfirst
  have hleft : outer w formula := hsingle w formula hformula
  rw [Tree.compute_chained, ← heval]
  clear hw hfirst hformula heval
  -- the formula of the operations so far is the left operand of the next one
  induction hrest generalizing w formula with
  | nil =>
      refine ⟨formula, by simpa using hleft, ?_⟩
      simp only [Tree.computeFrom]
      exact (bind_pure _).symm
  | @cons before after w' rest symbol t' operations hbefore hsymbol hafter hw' hrest ih =>
      obtain ⟨op, hop, heq⟩ := hsymbols symbol hsymbol
      obtain ⟨right, hright, hcompute⟩ := hoperand w' t'
        (by simp only [List.length_append, List.length_cons]; omega) hw'
      have hnext := hstep w before after w' op formula right hleft hop hbefore hafter hright
      have hsplit :
          w ++ (before ++ symbol :: (after ++ (w' ++ rest))) =
            (w ++ (before ++ (op.symbol ++ (after ++ w')))) ++ rest := by
        simp [heq]
      rw [hsplit] at hoperand ⊢
      obtain ⟨formula', hformula', heval'⟩ := ih _ hoperand _ hnext
      refine ⟨formula', hformula', heval'.trans ?_⟩
      simp only [← heq, Tree.computeFrom_cons, Formula.eval, hcompute, bind_assoc]

/-- Every expression is the text of a formula with the same value as its tree. -/
theorem Expression.exists_formula
    {w : Text} {t : Tree} (h : Expression w t) :
    ∃ formula, Written .sum w formula ∧ formula.eval = t.compute := by
  induction hlength : w.length using Nat.strong_induction_on generalizing w t with
  | _ n ih =>
      cases h with
      | sum hw =>
          apply hw.exists_formula [.add, .sub] (by decide) (fun _ _ => .product)
            (fun _ _ _ _ _ _ _ => .addition)
          intro w' t' hle hw'
          apply hw'.exists_formula [.mul, .div] (by decide) (fun _ _ => .factor)
            (fun _ _ _ _ _ _ _ => .multiplication)
          intro w'' t'' hle' hw''
          cases hw'' with
          | number hbefore hne hdigits hafter =>
              refine ⟨_, .number hbefore hne hdigits hafter, ?_⟩
              rw [Tree.compute, Formula.eval]
          | parenthesized hbefore hleft hinner hright hafter =>
              simp only [List.length_append, List.length_cons] at hle'
              obtain ⟨formula, hformula, heval⟩ := ih _ (by omega) hinner rfl
              exact ⟨formula, .parenthesized hbefore hleft hformula hright hafter, heval⟩

theorem Expression.exists_written
    {w : Text} {t : Tree} (h : Expression w t) : ∃ formula, Written .sum w formula := by
  obtain ⟨formula, hformula, -⟩ := h.exists_formula
  exact ⟨formula, hformula⟩

end Descent.Arithmetic
