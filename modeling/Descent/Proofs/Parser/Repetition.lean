import Descent.Parser

/-!
# One step of a repetition and of a sequence

What a repetition does depends on the reply of its body: it ends with what is left when the body
fails or has nothing to output, and goes on otherwise.  A sequence matches if its first part does
and the other parts match behind it.
-/

namespace Descent

namespace Parser

variable {p : Parser} {ps : List Parser} {src rest : Text} {v : Value} {vs : List Value}

theorem gather_of_failure {f : Failure} (h : p src = .returned (.failure f)) (limit : Nat) :
    p.gather (limit + 1) src = .returned ([], src) := by
  simp [gather, h]

theorem gather_of_nothing (h : p src = .returned (.success .nothing rest)) (limit : Nat) :
    p.gather (limit + 1) src = .returned ([], rest) := by
  simp [gather, h]

theorem gather_of_success
    (h : p src = .returned (.success v rest)) (hv : v ≠ .nothing) (limit : Nat) :
    p.gather (limit + 1) src = do
      let (vs, last) ← p.gather limit rest
      return (v :: vs, last) := by
  rw [gather, h]
  cases v with
  | nothing => contradiction
  | _ => rfl

theorem gather_cases {limit : Nat} (h : p.gather (limit + 1) src = .returned (vs, rest)) :
    (∃ f, p src = .returned (.failure f) ∧ vs = [] ∧ rest = src) ∨
    (p src = .returned (.success .nothing rest) ∧ vs = []) ∨
    ∃ v middle vs', p src = .returned (.success v middle) ∧
      p.gather limit middle = .returned (vs', rest) ∧ vs = v :: vs' := by
  obtain ⟨⟨v, middle⟩ | f, hfirst, -⟩ := Outcome.bind_eq_returned_iff.mp h
  · by_cases hv : v = .nothing
    · subst hv
      rw [gather_of_nothing hfirst] at h
      obtain ⟨rfl, rfl⟩ : [] = vs ∧ middle = rest := by simpa using h
      exact .inr (.inl ⟨hfirst, rfl⟩)
    · rw [gather_of_success hfirst hv] at h
      obtain ⟨⟨vs', last⟩, hgather, hlast⟩ := Outcome.bind_eq_returned_iff.mp h
      obtain ⟨rfl, rfl⟩ : v :: vs' = vs ∧ last = rest := by simpa using hlast
      exact .inr (.inr ⟨v, middle, vs', hfirst, hgather, rfl⟩)
  · rw [gather_of_failure hfirst] at h
    obtain ⟨rfl, rfl⟩ : [] = vs ∧ src = rest := by simpa using h
    exact .inl ⟨f, hfirst, rfl, rfl⟩

theorem collect_cons_cases (h : collect (p :: ps) src = .returned (.ok (vs, rest))) :
    ∃ v middle vs', p src = .returned (.success v middle) ∧
      collect ps middle = .returned (.ok (vs', rest)) ∧ vs = v :: vs' := by
  obtain ⟨⟨v, middle⟩ | e, hfirst, hothers⟩ := Outcome.bind_eq_returned_iff.mp h
  · obtain ⟨⟨e⟩ | ⟨vs', last⟩, hcollect, hlast⟩ := Outcome.bind_eq_returned_iff.mp hothers
    · simp at hlast
    · obtain ⟨rfl, rfl⟩ : v :: vs' = vs ∧ last = rest := by simpa using hlast
      exact ⟨v, middle, vs', hfirst, hcollect, rfl⟩
  · simp at hothers

end Parser

end Descent
