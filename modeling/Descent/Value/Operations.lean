import Descent.Number.Operations
import Descent.Value.Equality

/-!
# Operations on outputs

The functions that grammars commonly apply to outputs.  Each is defined for some outputs only
and raises a fault for the others.
-/

namespace Descent.Value

def texts? : List Value → Option (List Text)
  | [] => some []
  | .text t :: items => (texts? items).map (t :: ·)
  | _ :: _ => none

/-- The items of a list or a tuple, and the code points of a text. -/
def items? : Value → Option (List Value)
  | .list items | .tuple items => some items
  | .text t => some (t.map fun c => .text [c])
  | _ => none

def pick (index : Nat) (v : Value) : Except Fault Value :=
  match v.items? with
  | none => .error (.unsuitable v)
  | some items =>
      match items[index]? with
      | some item => .ok item
      | none => .error (.indexOutOfRange v)

def join (v : Value) : Except Fault Value :=
  match v.items?.bind texts? with
  | some ts => .ok (.text ts.flatten)
  | none => .error (.unsuitable v)

theorem texts?_map_text (ts : List Text) : texts? (ts.map .text) = some ts := by
  induction ts with
  | nil => rfl
  | cons t ts ih => simp [texts?, ih]

theorem join_map_text (ts : List Text) :
    join (.list (ts.map .text)) = .ok (.text ts.flatten) := by
  simp [join, items?, texts?_map_text]

def positional (base : Nat) : Value → Except Fault Value
  | .text t =>
      match Numeral.read? base t with
      | some n => .ok (.int n)
      | none => .error (.unsuitable (.text t))
  | v => .error (.unsuitable v)

/-- The value of a decimal digit run, which must not have too many digits. -/
def decimal : Value → Except Fault Value
  | .text t =>
      if Numeral.decimalLimit < t.length then .error (.tooManyDigits t.length)
      else positional 10 (.text t)
  | v => .error (.unsuitable v)

def negate (v : Value) : Except Fault Value :=
  match v.number? with
  | some n => .ok (ofNumber n.neg)
  | none => .error (.unsuitable v)

/-- The sum of two numbers, or two texts, lists or tuples one after the other. -/
def plus : Value → Value → Except Fault Value
  | .text s, .text t => .ok (.text (s ++ t))
  | .list xs, .list ys => .ok (.list (xs ++ ys))
  | .tuple xs, .tuple ys => .ok (.tuple (xs ++ ys))
  | a, b =>
      match a.number?, b.number? with
      | some m, some n => (m.add n).map ofNumber
      | some _, none => .error (.unsuitable b)
      | none, _ => .error (.unsuitable a)

def minus (a b : Value) : Except Fault Value :=
  match a.number?, b.number? with
  | some m, some n => (m.sub n).map ofNumber
  | some _, none => .error (.unsuitable b)
  | none, _ => .error (.unsuitable a)

def increment (v : Value) : Except Fault Value := v.plus (.int 1)

def upper : Value → Except Fault Value
  | .text t =>
      .ok (.text (t.map fun c =>
        if 0x61 ≤ c.toNat ∧ c.toNat ≤ 0x7A then (CodePoint.ofNat? (c.toNat - 32)).getD c else c))
  | v => .error (.unsuitable v)

def size (v : Value) : Except Fault Value :=
  match v.items? with
  | some items => .ok (.int items.length)
  | none => .error (.unsuitable v)

def reverse : Value → Except Fault Value
  | .text t => .ok (.text t.reverse)
  | .list items => .ok (.list items.reverse)
  | .tuple items => .ok (.tuple items.reverse)
  | v => .error (.unsuitable v)

/-- The value plus itself, which is a text twice. -/
def double (v : Value) : Except Fault Value := v.plus v

def wrap (v : Value) : Except Fault Value := .ok (.list [v])

def toTuple (v : Value) : Except Fault Value :=
  match v.items? with
  | some items => .ok (.tuple items)
  | none => .error (.unsuitable v)

def cons : Value → Except Fault Value
  | .list [item, .list items] => .ok (.list (item :: items))
  | v => .error (.unsuitable v)

/-- The sum of the outer two of three items if the middle one is `+`, and else their difference. -/
def combine (v : Value) : Except Fault Value :=
  match v.items? with
  | some [a, op, b] => if op.equal (.text "+") then a.plus b else a.minus b
  | _ => .error (.unsuitable v)

/-- A decimal digit run as an integer, and a failure if the integer is above a bound. -/
def decimalUpTo (bound : Int) : Value → Except Fault Value
  | .text t => do
      let v ← decimal (.text t)
      match v with
      | .int n =>
          if n ≤ bound then return v
          else return Failure.toValue { input := t, message := "number was too big" }
      | v => .error (.unsuitable v)
  | v => .error (.unsuitable v)

def failWith (message : Text) : Value → Except Fault Value
  | .text t => .ok (Failure.toValue { input := t, message })
  | v => .error (.unsuitable v)

end Descent.Value
