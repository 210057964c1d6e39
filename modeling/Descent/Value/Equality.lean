import Descent.Value

/-!
# Equality of outputs

Two outputs are equal when a user would call them so: numbers by their exact value whatever
their kind, lists and tuples item by item but never across the two, successes by output and
remaining input, failures by input and message alone.
-/

namespace Descent.Value

mutual

def equal : Value → Value → Bool
  | .null, .null => true
  | .nothing, .nothing => true
  | .text s, .text t => s == t
  | .list xs, .list ys => equalAll xs ys
  | .tuple xs, .tuple ys => equalAll xs ys
  | .success x r, .success y s => equal x y && r == s
  | .failure i m _ _, .failure j n _ _ => i == j && m == n
  | x, y =>
      match x.number?, y.number? with
      | some m, some n => m.equal n
      | _, _ => false

def equalAll : List Value → List Value → Bool
  | [], [] => true
  | x :: xs, y :: ys => equal x y && equalAll xs ys
  | _, _ => false

end

end Descent.Value
