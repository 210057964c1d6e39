import Descent.Fault

/-!
# Outcomes

Applying a parser returns a result, is broken off by a fault, or does not come to an end.  The
last case is seen through a limit on repetitions and on the depth of references: an outcome is
exhausted when the limit was reached first, so an application ends exactly if some limit gives
an outcome that is not exhausted.
-/

namespace Descent

/-- What becomes of a computation under a limit. -/
inductive Outcome (α : Type) where
  | returned (a : α)
  | raised (fault : Fault)
  /-- The limit was reached. -/
  | exhausted

namespace Outcome

variable {α β : Type}

def bind (o : Outcome α) (f : α → Outcome β) : Outcome β :=
  match o with
  | returned a => f a
  | raised fault => raised fault
  | exhausted => exhausted

instance : Monad Outcome where
  pure := returned
  bind := bind

/-- A computation that needs no limit. -/
def ofExcept : Except Fault α → Outcome α
  | .ok a => returned a
  | .error fault => raised fault

@[simp] theorem pure_eq (a : α) : (pure a : Outcome α) = returned a := rfl

@[simp] theorem returned_bind (a : α) (f : α → Outcome β) : (returned a >>= f) = f a := rfl

@[simp] theorem raised_bind (fault : Fault) (f : α → Outcome β) :
    (raised fault >>= f) = raised fault := rfl

@[simp] theorem exhausted_bind (f : α → Outcome β) : (exhausted >>= f) = exhausted := rfl

@[simp] theorem ofExcept_ok (a : α) : ofExcept (.ok a) = returned a := rfl

@[simp] theorem ofExcept_error (fault : Fault) :
    (ofExcept (.error fault) : Outcome α) = raised fault := rfl

theorem bind_eq_returned_iff {o : Outcome α} {f : α → Outcome β} {b : β} :
    (o >>= f) = returned b ↔ ∃ a, o = returned a ∧ f a = returned b := by
  cases o <;> simp

theorem bind_eq_raised_iff {o : Outcome α} {f : α → Outcome β} {fault : Fault} :
    (o >>= f) = raised fault ↔ o = raised fault ∨ ∃ a, o = returned a ∧ f a = raised fault := by
  cases o <;> simp

theorem bind_eq_exhausted_iff {o : Outcome α} {f : α → Outcome β} :
    (o >>= f) = exhausted ↔ o = exhausted ∨ ∃ a, o = returned a ∧ f a = exhausted := by
  cases o <;> simp

instance : LawfulMonad Outcome :=
  LawfulMonad.mk' Outcome (fun o => by cases o <;> rfl) (fun _ _ => rfl)
    (fun o _ _ => by cases o <;> rfl)

end Outcome

end Descent
