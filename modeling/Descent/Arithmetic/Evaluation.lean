import Descent.Arithmetic.Expression
import Descent.Grammar.Definitions

/-!
# Evaluating arithmetic expressions

A text is parsed as a whole and its tree is computed.  A division by zero is a failure of the whole
text, but only if the text is an expression.  The other faults of a computation remain faults.
-/

namespace Descent.Arithmetic

/-- What a text evaluates to: a number, or one of two failures. -/
inductive Evaluation where
  | value (n : Number)
  /-- The text is no expression. -/
  | malformed (f : Failure)
  /-- The text is an expression, and somewhere it divides by zero. -/
  | dividesByZero (f : Failure)

namespace Evaluation

def failure? : Evaluation → Option Failure
  | value _ => none
  | malformed f | dividesByZero f => some f

def toValue : Evaluation → Value
  | value n => .ofNumber n
  | malformed f | dividesByZero f => f.toValue

/-- Only failures of the parser are reported. -/
def report? (source : Text) : Evaluation → Option Text
  | malformed f => some (f.report source)
  | _ => none

end Evaluation

def divisionByZero (source : Text) : Failure := { input := source, message := "division by zero" }

/-- What a text evaluates to, given the result of the computation. -/
def ofComputation (source : Text) : Except Fault Number → Outcome Evaluation
  | .ok n => .returned (.value n)
  | .error .divisionByZero | .error .floatDivisionByZero =>
      .returned (.dividesByZero (divisionByZero source))
  | .error fault => .raised fault

/-- A limit that no expression in a text exceeds: every repetition and every pair of parentheses
takes a character of its own. -/
def budget (source : Text) : Nat := source.length + 2

def evaluate (source : Text) : Outcome Evaluation := do
  match ← (expression.apply [] (budget source)).parse source with
  | .rejected f => return .malformed f
  | .accepted v =>
      match Tree.ofValue? v with
      | some tree => ofComputation source tree.compute
      | none => .raised (.unsuitable v)

end Descent.Arithmetic
