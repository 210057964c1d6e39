import Descent.Arithmetic.Operator

/-!
# Arithmetic trees

An arithmetic tree is a number, or a chain of operations of one precedence that are applied
from left to right.  The symbols in a tree may be anything: whether a symbol is an operator is
found out when the tree is computed, and before the operand behind it is.
-/

namespace Descent.Arithmetic

inductive Tree where
  | number (n : Int)
  | chain (first : Tree) (operations : List (Text × Tree))

namespace Tree

mutual

/-- The value of a tree, or the first fault from left to right. -/
def compute : Tree → Except Fault Number
  | .number n => .ok (.int n)
  | .chain first operations => do
      let value ← compute first
      computeFrom value operations

def computeFrom (value : Number) : List (Text × Tree) → Except Fault Number
  | [] => .ok value
  | (symbol, operand) :: operations =>
      match Operator.ofSymbol? symbol with
      | none => .error (.unknownOperator symbol)
      | some op => do
          let other ← compute operand
          let value ← op.apply value other
          computeFrom value operations

end

mutual

/-- The tree that an output is.  A chain is a pair of its first operand and the list of operations,
which are pairs of a symbol and an operand. -/
def ofValue? : Value → Option Tree
  | .int n => some (.number n)
  | .bool b => some (.number (if b then 1 else 0))
  | .tuple [first, .list operations] | .list [first, .list operations] =>
      match ofValue? first, operationsOf? operations with
      | some first, some operations => some (.chain first operations)
      | _, _ => none
  | _ => none

def operationsOf? : List Value → Option (List (Text × Tree))
  | [] => some []
  | .list [.text symbol, operand] :: rest | .tuple [.text symbol, operand] :: rest =>
      match ofValue? operand, operationsOf? rest with
      | some operand, some operations => some ((symbol, operand) :: operations)
      | _, _ => none
  | _ :: _ => none

end

mutual

def toValue : Tree → Value
  | .number n => .int n
  | .chain first operations => .tuple [toValue first, .list (operationsToValue operations)]

def operationsToValue : List (Text × Tree) → List Value
  | [] => []
  | (symbol, operand) :: operations =>
      .list [.text symbol, toValue operand] :: operationsToValue operations

end

mutual

theorem ofValue?_toValue : (t : Tree) → ofValue? t.toValue = some t
  | .number n => by simp [toValue, ofValue?]
  | .chain first operations => by
      simp [toValue, ofValue?, ofValue?_toValue first, operationsOf?_toValue operations]

theorem operationsOf?_toValue :
    (operations : List (Text × Tree)) →
      operationsOf? (operationsToValue operations) = some operations
  | [] => by simp [operationsToValue, operationsOf?]
  | (symbol, operand) :: operations => by
      simp [operationsToValue, operationsOf?, ofValue?_toValue operand,
        operationsOf?_toValue operations]

end

theorem toValue_injective {t t' : Tree} (h : t.toValue = t'.toValue) : t = t' := by
  have hsame : ofValue? t.toValue = ofValue? t'.toValue := congrArg ofValue? h
  rw [ofValue?_toValue, ofValue?_toValue] at hsame
  exact Option.some.inj hsame

end Tree

end Descent.Arithmetic
