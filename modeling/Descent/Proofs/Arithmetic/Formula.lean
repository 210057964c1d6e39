import Descent.Arithmetic.Operator
import Descent.Proofs.Lexeme.Blank
import Descent.Proofs.Numeral.Value

/-!
# Formulas with operations that nest to the left

The conventional description of arithmetic.  An operation has two operands, and the left one may
be an operation of the same precedence.  A formula is evaluated by evaluating the left operand,
then the right one and then the operation, up to the first fault.  The only faults are divisions
by zero and numbers that are too large for a float.
-/

namespace Descent.Arithmetic

open Text

/-- A number, or an operation on two formulas. -/
inductive Formula where
  | number (n : Int)
  | operation (op : Operator) (left right : Formula)

/-- The value of a formula, or the first fault. -/
def Formula.eval : Formula → Except Fault Number
  | .number n => .ok (.int n)
  | .operation op left right => do
      let x ← left.eval
      let y ← right.eval
      op.apply x y

/-- How tightly a formula binds. -/
inductive Precedence where
  | sum
  | product
  | factor

/-- The texts that a formula may be written as, by a grammar that is recursive on the left.  Blanks
may stand around every token. -/
inductive Written : Precedence → Text → Formula → Prop
  | number {before digits after : Text}
      (hbefore : Blanks before) (hne : digits ≠ [])
      (hdigits : ∀ c ∈ digits, c ∈ Alphabet.decimal) (hafter : Blanks after) :
      Written .factor (before ++ (digits ++ after)) (.number (Numeral.value 10 digits))
  | parenthesized {before left w right after : Text} {formula : Formula}
      (hbefore : Blanks before) (hleft : Blanks left) (hw : Written .sum w formula)
      (hright : Blanks right) (hafter : Blanks after) :
      Written .factor
        (before ++ ('(' : CodePoint) :: (left ++ (w ++ (right ++ (')' : CodePoint) :: after))))
        formula
  | factor {w : Text} {formula : Formula}
      (hw : Written .factor w formula) : Written .product w formula
  | multiplication {w before after w' : Text} {op : Operator} {left right : Formula}
      (hleft : Written .product w left) (hop : op ∈ [Operator.mul, Operator.div])
      (hbefore : Blanks before) (hafter : Blanks after) (hright : Written .factor w' right) :
      Written .product (w ++ (before ++ (op.symbol ++ (after ++ w')))) (.operation op left right)
  | product {w : Text} {formula : Formula}
      (hw : Written .product w formula) : Written .sum w formula
  | addition {w before after w' : Text} {op : Operator} {left right : Formula}
      (hleft : Written .sum w left) (hop : op ∈ [Operator.add, Operator.sub])
      (hbefore : Blanks before) (hafter : Blanks after) (hright : Written .product w' right) :
      Written .sum (w ++ (before ++ (op.symbol ++ (after ++ w')))) (.operation op left right)

/-! ### Faults -/

def zeroDivisions : List Fault := [.divisionByZero, .floatDivisionByZero]

/-- The faults of numbers that are too large for a float. -/
def overflows : List Fault := [.quotientTooLarge, .integerTooLarge]

theorem error_of_bind_eq_error
    {α β : Type} {x : Except Fault α} {f : α → Except Fault β} {fault : Fault}
    (h : x >>= f = .error fault) : x = .error fault ∨ ∃ a, x = .ok a ∧ f a = .error fault := by
  cases x with
  | error fault' =>
      obtain rfl : fault' = fault := Except.error.inj h
      exact .inl rfl
  | ok a => exact .inr ⟨a, rfl, h⟩

theorem toFloat_eq_error {a : Number} {fault : Fault} (h : a.toFloat = .error fault) :
    fault ∈ overflows := by
  unfold Number.toFloat at h
  split at h
  next n =>
    split at h
    next => simp at h
    next =>
      obtain rfl : Fault.integerTooLarge = fault := by simpa using h
      simp [overflows]
  next => simp at h

theorem onBoth_eq_error
    {ints : Int → Int → Except Fault Number} {floats : Float → Float → Except Fault Number}
    (hints : ∀ m n fault, ints m n = .error fault → fault ∈ zeroDivisions ++ overflows)
    (hfloats : ∀ x y fault, floats x y = .error fault → fault ∈ zeroDivisions ++ overflows)
    {a b : Number} {fault : Fault} (h : Number.onBoth ints floats a b = .error fault) :
    fault ∈ zeroDivisions ++ overflows := by
  have hconverted :
      (do let x ← a.toFloat; let y ← b.toFloat; floats x y) = .error fault →
        fault ∈ zeroDivisions ++ overflows := by
    intro h
    rcases error_of_bind_eq_error h with hx | ⟨x, -, h⟩
    · exact List.mem_append_right _ (toFloat_eq_error hx)
    · rcases error_of_bind_eq_error h with hy | ⟨y, -, h⟩
      · exact List.mem_append_right _ (toFloat_eq_error hy)
      · exact hfloats x y fault h
  cases a with
  | int m =>
      cases b with
      | int n => exact hints m n fault h
      | float y => exact hconverted h
  | float x => exact hconverted h

theorem Operator.apply_eq_error
    {op : Operator} {a b : Number} {fault : Fault} (h : op.apply a b = .error fault) :
    fault ∈ zeroDivisions ++ overflows := by
  cases op with
  | add => exact onBoth_eq_error (by simp) (by simp) h
  | sub => exact onBoth_eq_error (by simp) (by simp) h
  | mul => exact onBoth_eq_error (by simp) (by simp) h
  | div =>
      apply onBoth_eq_error _ _ h
      · intro m n fault h
        unfold Number.divInts at h
        split at h
        next =>
          obtain rfl : Fault.divisionByZero = fault := by simpa using h
          simp [zeroDivisions]
        next =>
          split at h
          next => simp at h
          next =>
            obtain rfl : Fault.quotientTooLarge = fault := by simpa using h
            simp [overflows]
      · intro x y fault h
        unfold Number.divFloats at h
        split at h
        next =>
          obtain rfl : Fault.floatDivisionByZero = fault := by simpa using h
          simp [zeroDivisions]
        next => simp at h

theorem Formula.eval_eq_error
    {formula : Formula} {fault : Fault} (h : formula.eval = .error fault) :
    fault ∈ zeroDivisions ++ overflows := by
  induction formula with
  | number n => simp [eval] at h
  | operation op left right ihleft ihright =>
      rw [eval] at h
      rcases error_of_bind_eq_error h with hx | ⟨x, -, h⟩
      · exact ihleft hx
      · rcases error_of_bind_eq_error h with hy | ⟨y, -, h⟩
        · exact ihright hy
        · exact Operator.apply_eq_error h

end Descent.Arithmetic
