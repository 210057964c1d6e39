import Descent.Parser
import Mathlib.Tactic

/-!
# Choosing between parsers

A choice is decided by its first parser, if that matches, and is left to the others otherwise.  A
choice between single code points matches one of them.
-/

namespace Descent

namespace Parser

variable {p q : Parser} {ps : List Parser} {src rest : Text} {v : Value}

theorem oneOf_cons_of_success (h : p src = .returned (.success v rest)) :
    oneOf (p :: ps) src = .returned (.success v rest) := by
  cases ps with
  | nil => exact h
  | cons q ps => simp [oneOf, h]

theorem oneOf_cons_of_failure {f : Failure} (h : p src = .returned (.failure f)) :
    oneOf (p :: q :: ps) src = oneOf (q :: ps) src := by
  simp [oneOf, h]

theorem oneOf_append_of_failures
    (h : ∀ p ∈ ps, ∃ f, p src = .returned (.failure f)) (q : Parser) (qs : List Parser) :
    oneOf (ps ++ q :: qs) src = oneOf (q :: qs) src := by
  induction ps with
  | nil => rfl
  | cons p ps ih =>
      obtain ⟨f, hfail⟩ := h p (by simp)
      rw [← ih fun p' hp' => h p' (List.mem_cons_of_mem p hp')]
      cases ps with
      | nil => exact oneOf_cons_of_failure hfail
      | cons p' ps => exact oneOf_cons_of_failure hfail

/-- A choice between parsers that all reply is itself one, and it matches if one of them does. -/
theorem exists_oneOf_eq_returned
    (hps : ps ≠ []) (h : ∀ p ∈ ps, ∃ r, p src = .returned r) :
    ∃ r, oneOf ps src = .returned r ∧
      (r.isSuccess ↔ ∃ p ∈ ps, ∃ v rest, p src = .returned (.success v rest)) := by
  induction ps with
  | nil => contradiction
  | cons p ps ih =>
      obtain ⟨r, hr⟩ := h p (by simp)
      cases r with
      | success v rest =>
          refine ⟨_, oneOf_cons_of_success hr, ?_⟩
          simp [Reply.isSuccess, hr]
      | failure f =>
          cases ps with
          | nil =>
              refine ⟨_, hr, ?_⟩
              simp [Reply.isSuccess, hr]
          | cons q ps =>
              have hreturns := fun p' hp' => h p' (List.mem_cons_of_mem p hp')
              obtain ⟨r, hothers, hmatches⟩ := ih (List.cons_ne_nil q ps) hreturns
              refine ⟨r, (oneOf_cons_of_failure hr).trans hothers, ?_⟩
              rw [hmatches]
              simp [hr]

theorem literal_append (t rest : Text) :
    literal t (t ++ rest) = .returned (.success (.text t) rest) := by
  simp [literal]

theorem literal_of_not_prefix {t : Text} (h : ¬ t <+: src) :
    literal t src = failWith ("input did not begin with \"" ++ t ++ "\"") src := by
  unfold literal
  cases hstrip : Text.strip? t src with
  | none => rfl
  | some rest =>
      have hsrc := Text.strip?_eq_some_iff.mp hstrip
      exact absurd ⟨rest, hsrc.symm⟩ h

theorem literal_singleton_cons (c : CodePoint) (rest : Text) :
    literal [c] (c :: rest) = .returned (.success (.text [c]) rest) :=
  literal_append [c] rest

def characters (cs : Text) : List Parser := cs.map fun c => literal [c]

theorem oneOf_characters_of_mem
    {cs : Text} {c : CodePoint} (h : c ∈ cs) (rest : Text) :
    oneOf (characters cs) (c :: rest) = .returned (.success (.text [c]) rest) := by
  induction cs with
  | nil => simp at h
  | cons d cs ih =>
      by_cases heq : c = d
      · subst heq
        exact oneOf_cons_of_success (literal_singleton_cons c rest)
      · have hmem : c ∈ cs := List.mem_of_ne_of_mem heq h
        have hnot : ¬ [d] <+: c :: rest := by simpa using Ne.symm heq
        have hfirst := literal_of_not_prefix hnot
        have hcs := ih hmem
        cases cs with
        | nil => simp at hmem
        | cons e cs =>
            rw [← hcs]
            exact oneOf_cons_of_failure hfirst

theorem oneOf_characters_of_notMem
    {cs : Text} (hcs : cs ≠ []) (h : ∀ c ∈ src.head?, c ∉ cs) :
    ∃ message, oneOf (characters cs) src = failWith message src := by
  induction cs with
  | nil => contradiction
  | cons d cs ih =>
      have hnot : ¬ [d] <+: src := by
        rintro ⟨rest, rfl⟩
        simp at h
      have hfirst := literal_of_not_prefix hnot
      cases cs with
      | nil => exact ⟨_, hfirst⟩
      | cons e cs =>
          obtain ⟨message, hrest⟩ := ih (by simp) fun c hc hmem =>
            h c hc (List.mem_cons_of_mem d hmem)
          exact ⟨message, (oneOf_cons_of_failure hfirst).trans hrest⟩

end Parser

end Descent
