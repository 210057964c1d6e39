import Descent.Arithmetic.Tree
import Descent.Proofs.Lexeme.Blank
import Descent.Proofs.Numeral.Value

/-!
# The language of arithmetic expressions

The texts that are arithmetic expressions, each with its tree.  A factor is a decimal number or
an expression in parentheses, a term is a chain of factors and an expression a chain of terms.
Blanks may stand around numbers, parentheses and operators.  The chain is described once, for any
operands and operators, and so is the factor, for any language between the parentheses.
-/

namespace Descent.Arithmetic

open Text

abbrev TreeLanguage := Text → Tree → Prop

/-- A number, or a text of the inner language in parentheses. -/
inductive FactorOf (inner : TreeLanguage) : TreeLanguage
  | number {before digits after : Text}
      (hbefore : Blanks before) (hne : digits ≠ [])
      (hdigits : ∀ c ∈ digits, c ∈ Alphabet.decimal) (hafter : Blanks after) :
      FactorOf inner (before ++ (digits ++ after)) (.number (Numeral.value 10 digits))
  | parenthesized {before left w right after : Text} {t : Tree}
      (hbefore : Blanks before) (hleft : Blanks left) (hw : inner w t)
      (hright : Blanks right) (hafter : Blanks after) :
      FactorOf inner
        (before ++ ('(' : CodePoint) :: (left ++ (w ++ (right ++ (')' : CodePoint) :: after)))) t

/-- Operators with an operand behind each. -/
inductive Operations (operand : TreeLanguage) (symbols : Text) : Text → List (Text × Tree) → Prop
  | nil : Operations operand symbols [] []
  | cons {before after w rest : Text} {symbol : CodePoint} {t : Tree}
      {operations : List (Text × Tree)}
      (hbefore : Blanks before) (hsymbol : symbol ∈ symbols) (hafter : Blanks after)
      (hw : operand w t) (hrest : Operations operand symbols rest operations) :
      Operations operand symbols (before ++ symbol :: (after ++ (w ++ rest)))
        (([symbol], t) :: operations)

/-- An operand alone, or a chain of operations that begins with it. -/
inductive ChainOf (operand : TreeLanguage) (symbols : Text) : TreeLanguage
  | single {w : Text} {t : Tree} (hw : operand w t) : ChainOf operand symbols w t
  | chain {w rest : Text} {t : Tree} {operations : List (Text × Tree)}
      (hw : operand w t) (hrest : Operations operand symbols rest operations)
      (hne : operations ≠ []) :
      ChainOf operand symbols (w ++ rest) (.chain t operations)

/-- The arithmetic expressions with their trees. -/
inductive Expression : TreeLanguage
  | sum {w : Text} {t : Tree}
      (hw : ChainOf (ChainOf (FactorOf Expression) "*/") "+-" w t) : Expression w t

/-! ### Chains with and without operations -/

/-- The tree of a chain, or of the first operand alone if there are no operations. -/
def Tree.chained (first : Tree) : List (Text × Tree) → Tree
  | [] => first
  | operation :: operations => .chain first (operation :: operations)

theorem chainOf_iff {operand : TreeLanguage} {symbols w : Text} {t : Tree} :
    ChainOf operand symbols w t ↔
      ∃ w' rest first operations, w = w' ++ rest ∧ t = Tree.chained first operations ∧
        operand w' first ∧ Operations operand symbols rest operations := by
  constructor
  · intro h
    cases h with
    | single hw => exact ⟨w, [], t, [], by simp, rfl, hw, .nil⟩
    | @chain w rest first operations hw hrest hne =>
        obtain ⟨operation, operations, rfl⟩ := List.exists_cons_of_ne_nil hne
        exact ⟨w, rest, first, operation :: operations, rfl, rfl, hw, hrest⟩
  · rintro ⟨w', rest, first, operations, rfl, rfl, hw, hrest⟩
    cases operations with
    | nil =>
        cases hrest
        rw [List.append_nil]
        exact .single hw
    | cons operation operations => exact .chain hw hrest (by simp)

/-! ### Blanks behind an expression -/

/-- Blanks may be added behind the texts of a language. -/
def TrailsBlanks (L : TreeLanguage) : Prop :=
  ∀ w t b, L w t → Blanks b → L (w ++ b) t

theorem trailsBlanks_factorOf (inner : TreeLanguage) : TrailsBlanks (FactorOf inner) := by
  intro w t b hw hb
  cases hw with
  | number hbefore hne hdigits hafter =>
      simp only [List.append_assoc]
      exact .number hbefore hne hdigits (hafter.append hb)
  | parenthesized hbefore hleft hw hright hafter =>
      simp only [List.append_assoc, List.cons_append]
      exact .parenthesized hbefore hleft hw hright (hafter.append hb)

theorem Operations.append_blanks
    {operand : TreeLanguage} {symbols w b : Text} {operations : List (Text × Tree)}
    (hoperand : TrailsBlanks operand) (h : Operations operand symbols w operations)
    (hne : operations ≠ []) (hb : Blanks b) :
    Operations operand symbols (w ++ b) operations := by
  induction h with
  | nil => contradiction
  | @cons before after w rest symbol t operations hbefore hsymbol hafter hw hrest ih =>
      simp only [List.append_assoc, List.cons_append]
      cases operations with
      | nil =>
          cases hrest
          have hword := Operations.cons hbefore hsymbol hafter (hoperand w t b hw hb) .nil
          simpa using hword
      | cons operation operations =>
          exact .cons hbefore hsymbol hafter hw (ih (by simp))

theorem trailsBlanks_chainOf
    {operand : TreeLanguage} (hoperand : TrailsBlanks operand) (symbols : Text) :
    TrailsBlanks (ChainOf operand symbols) := by
  intro w t b hw hb
  cases hw with
  | single hw => exact .single (hoperand w t b hw hb)
  | chain hw hrest hne =>
      rw [List.append_assoc]
      exact .chain hw (hrest.append_blanks hoperand hne hb) hne

theorem trailsBlanks_expression : TrailsBlanks Expression := by
  intro w t b hw hb
  cases hw with
  | sum hw =>
      have hterm := trailsBlanks_chainOf (trailsBlanks_factorOf Expression) "*/"
      exact .sum (trailsBlanks_chainOf hterm "+-" w t b hw hb)

end Descent.Arithmetic
