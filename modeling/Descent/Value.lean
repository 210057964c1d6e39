import Descent.Number
import Descent.Text

/-!
# Outputs

What a parser outputs is data of its user's choosing, so outputs are dynamic values.  The
absence of an output is a value of its own, and so are the two kinds of replies, since a
function applied to an output may return one of them as plain data.
-/

namespace Descent

inductive Value where
  | null
  | bool (b : Bool)
  | int (n : Int)
  | float (x : Float)
  | text (t : Text)
  | list (items : List Value)
  | tuple (items : List Value)
  | nothing
  /-- A successful reply as data. -/
  | success (output : Value) (rest : Text)
  /-- A failed reply as data. -/
  | failure (input message : Text) (output : Value) (rest : Option Text)
deriving Inhabited

/-- Why and where a parser did not match. -/
structure Failure where
  /-- The input that the failing parser was given. -/
  input : Text
  message : Text
  /-- The partial output, if the failure came after something was produced. -/
  output : Value := .nothing
  /-- The unconsumed input that belongs to the partial output. -/
  rest : Option Text := none

namespace Value

/-- Values that count as numbers.  The two truth values count as one and zero. -/
def number? : Value → Option Number
  | .bool b => some (.int (if b then 1 else 0))
  | .int n => some (.int n)
  | .float x => some (.float x)
  | _ => none

def ofNumber : Number → Value
  | .int n => .int n
  | .float x => .float x

def failure? : Value → Option Failure
  | .failure input message output rest => some ⟨input, message, output, rest⟩
  | _ => none

/-- Whether a value counts as true: the empty, the zero and the missing ones do not, and neither
does a failure. -/
def truthy : Value → Bool
  | .null => false
  | .bool b => b
  | .int n => n != 0
  | .float x => !(x == 0)
  | .text t => !t.isEmpty
  | .list items => !items.isEmpty
  | .tuple items => !items.isEmpty
  | .nothing => false
  | .success _ _ => true
  | .failure .. => false

end Value

def Failure.toValue (f : Failure) : Value :=
  .failure f.input f.message f.output f.rest

@[simp] theorem Failure.failure?_toValue (f : Failure) : f.toValue.failure? = some f := rfl

end Descent
