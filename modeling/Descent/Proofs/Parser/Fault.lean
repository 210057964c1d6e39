import Descent.Lexeme.Alphabet
import Descent.Proofs.Parser.Confined
import Descent.Proofs.Parser.Output

/-!
# Parsers that raise no fault but one

A parser is harmless if the only fault it raises is that of a digit run that is too long for a
numeral.  Every combinator makes harmless parsers of harmless ones, as long as a function that is
applied to an output does not fail on what its parser outputs.  Two conditions refine this:
`decimals` says whether the one fault may occur at all, and `located` whether the digit run is
known to stand in the input, for which the parsers have to leave suffixes.
-/

namespace Descent

/-- The digits that a text begins with. -/
def Text.leadingDigits (t : Text) : Text := t.takeWhile (CharSet.ofText Alphabet.decimal)

variable {decimals located : Prop}

/-- The fault of a digit run that is too long for a numeral.  If it is `located`, the run stands in
`src`. -/
def Fault.IsOverlong (located : Prop) (src : Text) (fault : Fault) : Prop :=
  ∃ count, fault = .tooManyDigits count ∧ Numeral.decimalLimit < count ∧
    (located → ∃ rest : Text, rest <:+ src ∧ rest.leadingDigits.length = count)

theorem Fault.IsOverlong.of_suffix
    {fault : Fault} {src rest : Text} (h : fault.IsOverlong located rest)
    (hrest : located → rest <:+ src) : fault.IsOverlong located src := by
  obtain ⟨count, hfault, hcount, hrun⟩ := h
  refine ⟨count, hfault, hcount, fun hlocated => ?_⟩
  obtain ⟨run, hsuffix, hlength⟩ := hrun hlocated
  exact ⟨run, hsuffix.trans (hrest hlocated), hlength⟩

namespace Parser

structure Harmless (decimals located : Prop) (p : Parser) : Prop where
  confined : located → p.Confined False
  overlong : ∀ src fault, p src = .raised fault → decimals ∧ fault.IsOverlong located src

variable {p q : Parser}

theorem Harmless.suffix
    (hp : p.Harmless decimals located) {src rest : Text} {v : Value}
    (h : p src = .returned (.success v rest)) (hlocated : located) : rest <:+ src :=
  hp.confined hlocated src _ h

theorem harmless_of_not_raised
    (hconfined : p.Confined False) (hraise : ∀ src fault, p src ≠ .raised fault) :
    p.Harmless decimals located where
  confined _ := hconfined
  overlong src fault h := absurd h (hraise src fault)

/-! ### Primitive parsers -/

theorem harmless_any : any.Harmless decimals located := by
  apply harmless_of_not_raised confined_any
  intro src fault h
  cases src <;> simp [any, failWith] at h

theorem harmless_literal (t : Text) : (literal t).Harmless decimals located := by
  apply harmless_of_not_raised (confined_literal t)
  intro src fault h
  unfold literal at h
  split at h <;> simp [failWith] at h

theorem harmless_nothing : nothing.Harmless decimals located := by
  apply harmless_of_not_raised confined_nothing
  intro src fault h
  simp [nothing] at h

theorem harmless_pattern (pat : Pattern) : (pattern pat).Harmless decimals located := by
  apply harmless_of_not_raised (confined_pattern pat)
  intro src fault h
  unfold pattern at h
  split at h <;> simp [failWith] at h

theorem harmless_endless : endless.Harmless decimals located := by
  apply harmless_of_not_raised confined_endless
  intro src fault h
  simp [endless] at h

/-! ### Functions of the output -/

theorem Harmless.overlong_bind
    {next : Text → Reply → Outcome Reply} (hp : p.Harmless decimals located)
    (hnext : ∀ src r fault, p src = .returned r → next src r = .raised fault →
      decimals ∧ fault.IsOverlong located src)
    (src : Text) (fault : Fault) (h : (p src >>= next src) = .raised fault) :
    decimals ∧ fault.IsOverlong located src := by
  rcases Outcome.bind_eq_raised_iff.mp h with hfirst | ⟨r, hfirst, hlast⟩
  · exact hp.overlong src fault hfirst
  · exact hnext src r fault hfirst hlast

theorem Harmless.as (hp : p.Harmless decimals located) (v : Value) :
    (p.as v).Harmless decimals located where
  confined hlocated := (hp.confined hlocated).as v
  overlong := by
    apply hp.overlong_bind
    rintro src (⟨w, rest⟩ | f) fault - h <;> simp at h

theorem Harmless.map
    {f : Value → Outcome Value} (hp : p.Harmless decimals located)
    (hf : ∀ v, p.Yields v → ∀ fault, f v ≠ .raised fault) :
    (p.map f).Harmless decimals located where
  confined hlocated := (hp.confined hlocated).map f
  overlong := by
    apply hp.overlong_bind
    rintro src (⟨v, rest⟩ | e) fault hfirst h
    · rcases Outcome.bind_eq_raised_iff.mp h with hraise | ⟨w, -, hreply⟩
      · exact absurd hraise (hf v ⟨src, rest, hfirst⟩ fault)
      · simp at hreply
    · simp at h

theorem Harmless.transform
    {f : Value → Outcome Value} (hp : p.Harmless decimals located)
    (hf : ∀ v, p.Yields v → ∀ fault, f v ≠ .raised fault) :
    (p.transform f).Harmless decimals located where
  confined hlocated := (hp.confined hlocated).transform False.elim
  overlong := by
    apply hp.overlong_bind
    rintro src (⟨v, rest⟩ | e) fault hfirst h
    · rcases Outcome.bind_eq_raised_iff.mp h with hraise | ⟨w, -, hreply⟩
      · exact absurd hraise (hf v ⟨src, rest, hfirst⟩ fault)
      · cases hfailure : w.failure? <;> simp [hfailure] at hreply
    · simp at h

/-- Only the parsers that are found for actual outputs have to be harmless. -/
theorem Harmless.flatMap
    {f : Value → Parser} (hp : p.Harmless decimals located)
    (hf : ∀ v, p.Yields v → (f v).Harmless decimals located) :
    (p.flatMap f).Harmless decimals located where
  confined hlocated :=
    (hp.confined hlocated).flatMap fun v hv => (hf v hv).confined hlocated
  overlong := by
    apply hp.overlong_bind
    rintro src (⟨v, middle⟩ | e) fault hfirst h
    · obtain ⟨hdecimals, hoverlong⟩ := (hf v ⟨src, middle, hfirst⟩).overlong middle fault h
      exact ⟨hdecimals, hoverlong.of_suffix (hp.suffix hfirst)⟩
    · simp at h

/-! ### Choice, sequence and repetition -/

theorem harmless_oneOf {ps : List Parser} (hps : ∀ p ∈ ps, p.Harmless decimals located) :
    (oneOf ps).Harmless decimals located where
  confined hlocated := confined_oneOf fun p hp => (hps p hp).confined hlocated
  overlong := by
    induction ps with
    | nil => simp [oneOf, failWith]
    | cons p ps ih =>
        have hp : p.Harmless decimals located := hps p (by simp)
        cases ps with
        | nil => exact hp.overlong
        | cons q ps =>
            have hrest := ih fun p' hp' => hps p' (List.mem_cons_of_mem p hp')
            apply hp.overlong_bind
            rintro src (⟨v, rest⟩ | e) fault - h
            · simp at h
            · exact hrest src fault h

theorem collect_overlong
    {ps : List Parser} (hps : ∀ p ∈ ps, p.Harmless decimals located) {src : Text} {fault : Fault}
    (h : collect ps src = .raised fault) : decimals ∧ fault.IsOverlong located src := by
  induction ps generalizing src with
  | nil => simp [collect] at h
  | cons p ps ih =>
      have hp : p.Harmless decimals located := hps p (by simp)
      rcases Outcome.bind_eq_raised_iff.mp h with hfirst | ⟨⟨v, middle⟩ | e, hfirst, hothers⟩
      · exact hp.overlong src fault hfirst
      · rcases Outcome.bind_eq_raised_iff.mp hothers with hcollect | ⟨result, -, hlast⟩
        · obtain ⟨hdecimals, hoverlong⟩ :=
            ih (fun q hq => hps q (List.mem_cons_of_mem p hq)) hcollect
          exact ⟨hdecimals, hoverlong.of_suffix (hp.suffix hfirst)⟩
        · rcases result with e | ⟨vs, last⟩ <;> simp at hlast
      · simp at hothers

theorem harmless_sequence {ps : List Parser} (hps : ∀ p ∈ ps, p.Harmless decimals located) :
    (sequence ps).Harmless decimals located where
  confined hlocated := confined_sequence fun p hp => (hps p hp).confined hlocated
  overlong src fault h := by
    rcases Outcome.bind_eq_raised_iff.mp h with hcollect | ⟨result, -, hlast⟩
    · exact collect_overlong hps hcollect
    · rcases result with e | ⟨vs, last⟩ <;> simp at hlast

theorem Harmless.gather_overlong
    (hp : p.Harmless decimals located) {limit : Nat} {src : Text} {fault : Fault}
    (h : p.gather limit src = .raised fault) : decimals ∧ fault.IsOverlong located src := by
  induction limit generalizing src with
  | zero => simp [gather] at h
  | succ limit ih =>
      rcases Outcome.bind_eq_raised_iff.mp h with hfirst | ⟨⟨v, middle⟩ | f, hfirst, -⟩
      · exact hp.overlong src fault hfirst
      · by_cases hv : v = .nothing
        · subst hv
          simp [gather_of_nothing hfirst] at h
        · rw [gather_of_success hfirst hv] at h
          rcases Outcome.bind_eq_raised_iff.mp h with hgather | ⟨result, -, hlast⟩
          · obtain ⟨hdecimals, hoverlong⟩ := ih hgather
            exact ⟨hdecimals, hoverlong.of_suffix (hp.suffix hfirst)⟩
          · simp at hlast
      · simp [gather_of_failure hfirst] at h

theorem Harmless.many (hp : p.Harmless decimals located) (limit : Nat) :
    (p.many limit).Harmless decimals located where
  confined hlocated := (hp.confined hlocated).many limit
  overlong src fault h := by
    rcases Outcome.bind_eq_raised_iff.mp h with hgather | ⟨result, -, hlast⟩
    · exact hp.gather_overlong hgather
    · simp at hlast

/-! ### Exclusion and description -/

theorem of_unless_eq_raised
    {o : Outcome Reply} {message src rest : Text} {v : Value} {fault : Fault}
    (h : (do if (← o).isSuccess then failWith message src else return .success v rest) =
      .raised fault) : o = .raised fault := by
  rcases Outcome.bind_eq_raised_iff.mp h with hfirst | ⟨r, -, hreply⟩
  · exact hfirst
  · cases hmatched : r.isSuccess <;> simp [hmatched, failWith] at hreply

theorem Harmless.butNot
    (hp : p.Harmless decimals located) (hq : q.Harmless decimals located) (name : Text) :
    (p.butNot q name).Harmless decimals located where
  confined hlocated := (hp.confined hlocated).butNot q name
  overlong := by
    apply hp.overlong_bind
    rintro src (⟨v, rest⟩ | e) fault - h
    · exact hq.overlong src fault (of_unless_eq_raised h)
    · simp at h

theorem Harmless.lookaheadNot
    (hp : p.Harmless decimals located) (hq : q.Harmless decimals located) (name : Text) :
    (p.lookaheadNot q name).Harmless decimals located where
  confined hlocated := (hp.confined hlocated).lookaheadNot q name
  overlong := by
    apply hp.overlong_bind
    rintro src (⟨v, rest⟩ | e) fault hfirst h
    · obtain ⟨hdecimals, hoverlong⟩ := hq.overlong rest fault (of_unless_eq_raised h)
      exact ⟨hdecimals, hoverlong.of_suffix (hp.suffix hfirst)⟩
    · simp at h

theorem Harmless.expect (hp : p.Harmless decimals located) (description : Text) :
    (p.expect description).Harmless decimals located where
  confined hlocated := (hp.confined hlocated).expect description
  overlong := by
    apply hp.overlong_bind
    rintro src (⟨v, rest⟩ | e) fault - h <;> simp at h

theorem harmless_recursive
    {step : Parser → Parser}
    (hstep : ∀ p : Parser, p.Harmless decimals located → (step p).Harmless decimals located)
    (limit : Nat) : (recursive step limit).Harmless decimals located := by
  induction limit with
  | zero => exact harmless_endless
  | succ limit ih => exact hstep _ ih

end Parser

end Descent
