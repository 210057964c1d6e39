import Descent.Number.Operations

/-!
# Arithmetic operators

The four operations that an expression may contain, and the symbols they are written with.
-/

namespace Descent.Arithmetic

inductive Operator where
  | add
  | sub
  | mul
  | div
deriving DecidableEq

namespace Operator

def all : List Operator := [add, sub, mul, div]

def symbol : Operator → Text
  | add => "+"
  | sub => "-"
  | mul => "*"
  | div => "/"

def ofSymbol? (t : Text) : Option Operator := all.find? (·.symbol == t)

theorem ofSymbol?_symbol (op : Operator) : ofSymbol? op.symbol = some op := by
  cases op <;> rfl

def apply : Operator → Number → Number → Except Fault Number
  | add => Number.add
  | sub => Number.sub
  | mul => Number.mul
  | div => Number.div

end Operator

end Descent.Arithmetic
