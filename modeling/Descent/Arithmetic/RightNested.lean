import Descent.Arithmetic.Expression
import Descent.Blueprint

/-!
# Sums and differences that nest to the right

A small grammar that refers to itself by name, behind a number and an operator.  So what stands
behind an operator is computed first, and the operators are applied from right to left.
-/

namespace Descent.Arithmetic

open Grammar

def plusOrMinus : Grammar := .oneOf [literal "+", literal "-"]

def compoundOf (others : Grammar) : Grammar :=
  (sequence [number, plusOrMinus, others]).map Value.combine

/-- A number, with an operator and more of the same behind it if possible. -/
def rightNestedOf (others : Grammar) : Grammar := .oneOf [compoundOf others, number]

def rightNested : Grammar := rightNestedOf (.reference "expression")

def rightNestedDefinitions : Definitions :=
  [ ("operator", .grammar plusOrMinus),
    ("number", .grammar number),
    ("compound_expression", .grammar (compoundOf (.reference "expression"))),
    ("expression", .grammar rightNested) ]

/-- How the definitions are put together. -/
def rightNestedBlueprints : List (Name × Blueprint) :=
  [ ("operator", .oneOf [.part (.grammar (literal "+")), .part (.grammar (literal "-"))]),
    ("number", .map (.oneOrMore (.oneOf (Blueprint.characters Alphabet.decimal)))
      fun v => (Value.join v).bind Value.decimal),
    ("compound_expression",
      .map (.sequence
          [.built "number", .built "operator", .part (.grammar (.reference "expression"))])
        Value.combine),
    ("expression", .oneOf [.built "compound_expression", .built "number"]) ]

end Descent.Arithmetic
