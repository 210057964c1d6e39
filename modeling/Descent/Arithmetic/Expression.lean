import Descent.Arithmetic.Tree
import Descent.Lexeme.Blank

/-!
# The grammar of arithmetic expressions

Sums of products of factors, where a factor is a decimal number or an expression in parentheses
and blanks may stand around everything.  Each grammar below is given the grammar that stands
between parentheses, so that the recursion is tied in one place.
-/

namespace Descent.Arithmetic

open Grammar

def digit : Grammar := .oneOf (Alphabet.decimal.map fun c => literal [c])

def number : Grammar := digit.oneOrMore.map fun v => (Value.join v).bind Value.decimal

/-- A chain of operations, or the first operand alone if there are none. -/
def chain : Value → Except Fault Value
  | .list [first, .list []] => .ok first
  | .list [first, .list operations] => .ok (.tuple [first, .list operations])
  | v => .error (.unsuitable v)

def operation (operand : Grammar) (symbols : Text) : Grammar :=
  .sequence [(oneOf (symbols.map fun c => literal [c])).token, operand]

/-- Operands with operators of one precedence between them. -/
def level (operand : Grammar) (symbols : Text) : Grammar :=
  (sequence [operand, (operation operand symbols).many]).map chain

def parenthesizedOf (inner : Grammar) : Grammar :=
  picking [(literal "(").token, inner, (literal ")").token] 1

def factorOf (inner : Grammar) : Grammar := oneOf [number.token, parenthesizedOf inner]

def termOf (inner : Grammar) : Grammar := level (factorOf inner) "*/"

def expressionOf (inner : Grammar) : Grammar := level (termOf inner) "+-"

/-- An arithmetic expression.  The output is its tree. -/
def expression : Grammar := .recursive (expressionOf .self)

def term : Grammar := termOf expression

def factor : Grammar := factorOf expression

def parenthesized : Grammar := parenthesizedOf expression

end Descent.Arithmetic
