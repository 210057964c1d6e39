import Descent.Proofs.Parser.Repetition
import Mathlib.Tactic

/-!
# Parsers that come to an end

A parser ends on a text if the limit does not break it off there.  A combinator ends if the parts
that it applies do, each on the text that it is applied to.  A repetition ends below a limit if every
iteration leaves a shorter text.
-/

namespace Descent

namespace Parser

/-- The limit does not break the parser off on the text. -/
def EndsOn (p : Parser) (src : Text) : Prop := p src ≠ .exhausted

variable {p q : Parser} {ps : List Parser} {src : Text}

theorem endsOn_bind {next : Reply → Outcome Reply} (hp : p.EndsOn src)
    (hnext : ∀ r, p src = .returned r → next r ≠ .exhausted) : (p src >>= next) ≠ .exhausted := by
  intro h
  rcases Outcome.bind_eq_exhausted_iff.mp h with hfirst | ⟨r, hfirst, hlast⟩
  · exact hp hfirst
  · exact hnext r hfirst hlast

/-! ### Primitive parsers -/

theorem endsOn_any : any.EndsOn src := by
  cases src <;> simp [EndsOn, any, failWith]

theorem endsOn_literal {t : Text} : (literal t).EndsOn src := by
  unfold EndsOn literal
  split <;> simp [failWith]

theorem endsOn_nothing : nothing.EndsOn src := by
  simp [EndsOn, nothing]

theorem endsOn_pattern {pat : Pattern} : (pattern pat).EndsOn src := by
  unfold EndsOn pattern
  split <;> simp [failWith]

/-! ### Functions of the output -/

theorem EndsOn.as (h : p.EndsOn src) (v : Value) : (p.as v).EndsOn src := by
  apply endsOn_bind h
  rintro (⟨w, rest⟩ | f) - <;> simp

theorem EndsOn.map (h : p.EndsOn src) (f : Value → Except Fault Value) :
    (p.map fun v => .ofExcept (f v)).EndsOn src := by
  apply endsOn_bind h
  rintro (⟨v, rest⟩ | e) -
  · cases hf : f v <;> simp [hf]
  · simp

theorem EndsOn.transform (h : p.EndsOn src) (f : Value → Except Fault Value) :
    (p.transform fun v => .ofExcept (f v)).EndsOn src := by
  apply endsOn_bind h
  rintro (⟨v, rest⟩ | e) -
  · cases hf : f v with
    | error fault => simp [hf]
    | ok w => cases hfailure : w.failure? <;> simp [hf, hfailure]
  · simp

theorem EndsOn.expect (h : p.EndsOn src) (description : Text) :
    (p.expect description).EndsOn src := by
  apply endsOn_bind h
  rintro (⟨v, rest⟩ | e) - <;> simp

/-! ### Choice, sequence and repetition -/

theorem endsOn_oneOf (h : ∀ p ∈ ps, p.EndsOn src) : (oneOf ps).EndsOn src := by
  induction ps with
  | nil => simp [EndsOn, oneOf, failWith]
  | cons p ps ih =>
      cases ps with
      | nil => exact h p (by simp)
      | cons q ps =>
          have hrest := ih fun p' hp' => h p' (List.mem_cons_of_mem p hp')
          apply endsOn_bind (h p (by simp))
          rintro (⟨v, rest⟩ | e) -
          · simp
          · exact hrest

theorem endsOn_sequence_nil : (sequence []).EndsOn src := by
  simp [EndsOn, sequence, collect]

theorem endsOn_sequence_cons (h : p.EndsOn src)
    (hrest : ∀ v rest, p src = .returned (.success v rest) → (sequence ps).EndsOn rest) :
    (sequence (p :: ps)).EndsOn src := by
  intro hsequence
  rcases Outcome.bind_eq_exhausted_iff.mp hsequence with hcollect | ⟨result, -, hlast⟩
  · rcases Outcome.bind_eq_exhausted_iff.mp hcollect with hfirst | ⟨⟨v, rest⟩ | e, hfirst, hothers⟩
    · exact h hfirst
    · apply hrest v rest hfirst
      rcases Outcome.bind_eq_exhausted_iff.mp hothers with hcollect | ⟨result, -, hlast⟩
      · rw [sequence, hcollect]
        rfl
      · rcases result with e | ⟨vs, last⟩ <;> simp at hlast
    · simp at hothers
  · rcases result with e | ⟨vs, last⟩ <;> simp at hlast

theorem gather_ne_exhausted {limit : Nat} (hlimit : src.length < limit)
    (h : ∀ src' : Text, src' = src ∨ src'.length < src.length → p.EndsOn src')
    (hshorter : ∀ src v rest, p src = .returned (.success v rest) → rest.length < src.length) :
    p.gather limit src ≠ .exhausted := by
  induction limit generalizing src with
  | zero => omega
  | succ limit ih =>
      cases hfirst : p src with
      | returned r =>
          rcases r with ⟨v, rest⟩ | f
          · by_cases hv : v = .nothing
            · subst hv
              simp [gather_of_nothing hfirst]
            · have hlt := hshorter src v rest hfirst
              have hgather : p.gather limit rest ≠ .exhausted := by
                apply ih (by omega)
                rintro src' (rfl | hsrc')
                · exact h src' (.inr hlt)
                · exact h src' (.inr (by omega))
              rw [gather_of_success hfirst hv]
              simp [Outcome.bind_eq_exhausted_iff, hgather]
          · simp [gather_of_failure hfirst]
      | raised fault => simp [gather, hfirst]
      | exhausted => exact absurd hfirst (h src (.inl rfl))

theorem endsOn_many {limit : Nat} (hlimit : src.length < limit)
    (h : ∀ src' : Text, src' = src ∨ src'.length < src.length → p.EndsOn src')
    (hshorter : ∀ src v rest, p src = .returned (.success v rest) → rest.length < src.length) :
    (p.many limit).EndsOn src := by
  intro hmany
  rcases Outcome.bind_eq_exhausted_iff.mp hmany with hgather | ⟨result, -, hlast⟩
  · exact gather_ne_exhausted hlimit h hshorter hgather
  · simp at hlast

/-! ### Exclusion -/

theorem unless_ne_exhausted {o : Outcome Reply} {message rest : Text} {v : Value}
    (h : o ≠ .exhausted) :
    (do if (← o).isSuccess then failWith message src else return .success v rest) ≠
      .exhausted := by
  intro hunless
  rcases Outcome.bind_eq_exhausted_iff.mp hunless with hfirst | ⟨r, -, hreply⟩
  · exact h hfirst
  · cases hmatched : r.isSuccess <;> simp [hmatched, failWith] at hreply

theorem EndsOn.butNot (hp : p.EndsOn src) (hq : q.EndsOn src) (name : Text) :
    (p.butNot q name).EndsOn src := by
  apply endsOn_bind hp
  rintro (⟨v, rest⟩ | e) -
  · exact unless_ne_exhausted hq
  · simp

theorem EndsOn.lookaheadNot (hp : p.EndsOn src)
    (hq : ∀ v rest, p src = .returned (.success v rest) → q.EndsOn rest) (name : Text) :
    (p.lookaheadNot q name).EndsOn src := by
  apply endsOn_bind hp
  rintro (⟨v, rest⟩ | e) hfirst
  · exact unless_ne_exhausted (hq v rest hfirst)
  · simp

end Parser

end Descent
