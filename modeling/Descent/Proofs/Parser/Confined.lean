import Descent.Proofs.Parser.Output
import Descent.Proofs.Pattern.Place

/-!
# Replies that stay within the input

A success leaves a suffix of the input, and a failure points at a suffix of it.  The second half
depends on more than the first, so it is only asked for on demand: `located` says whether it is.
Every primitive parser is confined in this sense, and every combinator makes confined parsers of
confined ones.  A failure from a nested position refers to a suffix of a suffix, and an
exclusion fails on the whole input again.
-/

namespace Descent

variable {located : Prop}

/-- What a reply to `src` refers to is a suffix of `src`.  Of failures this is only said if they
are `located`. -/
def Reply.Within (located : Prop) (src : Text) : Reply → Prop
  | .success _ rest => rest <:+ src
  | .failure f => located → f.input <:+ src

theorem Reply.Within.of_suffix
    {r : Reply} {src whole : Text} (h : r.Within located src) (hsrc : src <:+ whole) :
    r.Within located whole := by
  cases r with
  | success v rest => exact List.IsSuffix.trans h hsrc
  | failure f => exact fun hlocated => (h hlocated).trans hsrc

namespace Parser

/-- Every reply of the parser stays within its input. -/
def Confined (located : Prop) (p : Parser) : Prop :=
  ∀ src r, p src = .returned r → r.Within located src

variable {p q : Parser}

/-! ### Primitive parsers -/

theorem confined_failWith (message : Text) : Confined located (failWith message) := by
  intro src r h
  obtain rfl : _ = r := by simpa [failWith] using h
  exact fun _ => List.suffix_refl src

theorem confined_any : Confined located any := by
  intro src r h
  cases src with
  | nil => exact confined_failWith _ _ _ h
  | cons c src =>
      obtain rfl : _ = r := by simpa [any] using h
      exact List.suffix_cons c src

theorem confined_literal (t : Text) : Confined located (literal t) := by
  intro src r h
  unfold literal at h
  split at h
  next rest hstrip =>
    obtain rfl : _ = r := by simpa using h
    exact ⟨t, (Text.strip?_eq_some_iff.mp hstrip).symm⟩
  next => exact confined_failWith _ _ _ h

theorem confined_nothing : Confined located nothing := by
  intro src r h
  obtain rfl : _ = r := by simpa [nothing] using h
  exact List.suffix_refl src

theorem confined_pattern (pat : Pattern) : Confined located (pattern pat) := by
  intro src r h
  unfold pattern at h
  split at h
  next matched rest hmatch =>
    obtain rfl : _ = r := by simpa using h
    exact ⟨matched, Pattern.append_of_matchStart? hmatch⟩
  next => exact confined_failWith _ _ _ h

theorem confined_raise (fault : Fault) : Confined located (raise fault) := by
  intro src r h
  simp [raise] at h

theorem confined_endless : Confined located endless := by
  intro src r h
  simp [endless] at h

/-! ### Combinators -/

theorem Confined.bind
    {next : Text → Reply → Outcome Reply} (hp : p.Confined located)
    (hnext : ∀ src r r', r.Within located src → next src r = .returned r' →
      r'.Within located src) :
    Confined located fun src => p src >>= next src := by
  intro src r' h
  obtain ⟨r, hr, hr'⟩ := Outcome.bind_eq_returned_iff.mp h
  exact hnext src r r' (hp src r hr) hr'

theorem Confined.as (hp : p.Confined located) (v : Value) : (p.as v).Confined located := by
  apply hp.bind
  rintro src (⟨w, rest⟩ | f) r' hr h
  · obtain rfl : _ = r' := by simpa using h
    exact hr
  · obtain rfl : _ = r' := by simpa using h
    exact hr

theorem Confined.map (hp : p.Confined located) (f : Value → Outcome Value) :
    (p.map f).Confined located := by
  apply hp.bind
  rintro src (⟨v, rest⟩ | e) r' hr h
  · obtain ⟨w, -, hw⟩ := Outcome.bind_eq_returned_iff.mp h
    obtain rfl : _ = r' := by simpa using hw
    exact hr
  · obtain rfl : _ = r' := by simpa using h
    exact hr

/-- Only for outputs that there are, the function must not return a failure. -/
theorem Confined.transform
    {f : Value → Outcome Value} (hp : p.Confined located)
    (hf : located → ∀ v w, p.Yields v → f v = .returned w → w.failure? = none) :
    (p.transform f).Confined located := by
  intro src r h
  obtain ⟨⟨v, rest⟩ | e, hfirst, hlast⟩ := Outcome.bind_eq_returned_iff.mp h
  · obtain ⟨w, hw, hreply⟩ := Outcome.bind_eq_returned_iff.mp hlast
    cases hfailure : w.failure? with
    | none =>
        obtain rfl : _ = r := by simpa [hfailure] using hreply
        exact hp src (.success v rest) hfirst
    | some e =>
        obtain rfl : _ = r := by simpa [hfailure] using hreply
        intro hlocated
        have hnone := hf hlocated v w ⟨src, rest, hfirst⟩ hw
        simp [hfailure] at hnone
  · obtain rfl : _ = r := by simpa using hlast
    exact hp src _ hfirst

/-- Only the parsers that are found for outputs that there are have to be confined. -/
theorem Confined.flatMap
    {f : Value → Parser} (hp : p.Confined located)
    (hf : ∀ v, p.Yields v → (f v).Confined located) :
    (p.flatMap f).Confined located := by
  intro src r h
  obtain ⟨⟨v, middle⟩ | e, hfirst, hlast⟩ := Outcome.bind_eq_returned_iff.mp h
  · exact (hf v ⟨src, middle, hfirst⟩ middle r hlast).of_suffix (hp src _ hfirst)
  · obtain rfl : _ = r := by simpa using hlast
    exact hp src _ hfirst

theorem confined_oneOf {ps : List Parser} (hps : ∀ p ∈ ps, p.Confined located) :
    (oneOf ps).Confined located := by
  induction ps with
  | nil => exact confined_failWith _
  | cons p ps ih =>
      have hp : p.Confined located := hps p (by simp)
      cases ps with
      | nil => exact hp
      | cons q ps =>
          have hrest : (oneOf (q :: ps)).Confined located :=
            ih fun p' hp' => hps p' (List.mem_cons_of_mem p hp')
          apply hp.bind
          rintro src (⟨v, rest⟩ | e) r' hr h
          · obtain rfl : _ = r' := by simpa using h
            exact hr
          · exact hrest src r' h

theorem collect_within
    {ps : List Parser} (hps : ∀ p ∈ ps, p.Confined located) (src : Text) :
    (∀ vs rest, collect ps src = .returned (.ok (vs, rest)) → rest <:+ src) ∧
      ∀ e, collect ps src = .returned (.error e) → located → e.input <:+ src := by
  induction ps generalizing src with
  | nil => simp [collect]
  | cons p ps ih =>
      have hp : p.Confined located := hps p (by simp)
      have ih' := ih fun q hq => hps q (List.mem_cons_of_mem p hq)
      constructor
      · intro vs rest h
        obtain ⟨v, middle, vs', hfirst, hcollect, -⟩ := collect_cons_cases h
        exact ((ih' middle).1 vs' rest hcollect).trans (hp src _ hfirst)
      · intro e h hlocated
        obtain ⟨⟨v, middle⟩ | e', hfirst, hrest⟩ := Outcome.bind_eq_returned_iff.mp h
        · obtain ⟨⟨e'⟩ | ⟨vs', last⟩, hcollect, hlast⟩ :=
            Outcome.bind_eq_returned_iff.mp hrest
          · obtain rfl : e' = e := by simpa using hlast
            exact ((ih' middle).2 e' hcollect hlocated).trans (hp src _ hfirst)
          · simp at hlast
        · obtain rfl : e' = e := by simpa using hrest
          exact hp src _ hfirst hlocated

theorem confined_sequence {ps : List Parser} (hps : ∀ p ∈ ps, p.Confined located) :
    (sequence ps).Confined located := by
  intro src r h
  obtain ⟨⟨e⟩ | ⟨vs, rest⟩, hcollect, hr⟩ := Outcome.bind_eq_returned_iff.mp h
  · obtain rfl : _ = r := by simpa using hr
    exact (collect_within hps src).2 e hcollect
  · obtain rfl : _ = r := by simpa using hr
    exact (collect_within hps src).1 vs rest hcollect

theorem Confined.gather (hp : p.Confined located) (limit : Nat) (src : Text) :
    ∀ vs rest, p.gather limit src = .returned (vs, rest) → rest <:+ src := by
  induction limit generalizing src with
  | zero => simp [Parser.gather]
  | succ limit ih =>
      intro vs rest h
      rcases gather_cases h with
        ⟨f, -, -, rfl⟩ | ⟨hnothing, -⟩ | ⟨v, middle, vs', hfirst, hgather, -⟩
      · exact List.suffix_refl rest
      · exact hp src _ hnothing
      · exact (ih middle vs' rest hgather).trans (hp src _ hfirst)

theorem Confined.many (hp : p.Confined located) (limit : Nat) :
    (p.many limit).Confined located := by
  intro src r h
  obtain ⟨⟨vs, rest⟩, hgather, hr⟩ := Outcome.bind_eq_returned_iff.mp h
  obtain rfl : _ = r := by simpa using hr
  exact hp.gather limit src vs rest hgather

theorem within_unless
    {o : Outcome Reply} {message src rest : Text} {v : Value} {r : Reply} (hrest : rest <:+ src)
    (h : (do if (← o).isSuccess then failWith message src else return .success v rest) =
      .returned r) :
    r.Within located src := by
  obtain ⟨r', -, hreply⟩ := Outcome.bind_eq_returned_iff.mp h
  cases hmatched : r'.isSuccess with
  | true => exact confined_failWith message src r (by simpa [hmatched] using hreply)
  | false =>
      obtain rfl : _ = r := by simpa [hmatched] using hreply
      exact hrest

theorem Confined.butNot (hp : p.Confined located) (excluded : Parser) (name : Text) :
    (p.butNot excluded name).Confined located := by
  apply hp.bind
  rintro src (⟨v, rest⟩ | e) r' hr h
  · exact within_unless hr h
  · obtain rfl : _ = r' := by simpa using h
    exact hr

theorem Confined.lookaheadNot (hp : p.Confined located) (follower : Parser) (name : Text) :
    (p.lookaheadNot follower name).Confined located := by
  apply hp.bind
  rintro src (⟨v, rest⟩ | e) r' hr h
  · exact within_unless hr h
  · obtain rfl : _ = r' := by simpa using h
    exact hr

theorem Confined.expect (hp : p.Confined located) (description : Text) :
    (p.expect description).Confined located := by
  apply hp.bind
  rintro src (⟨v, rest⟩ | e) r' hr h
  · obtain rfl : _ = r' := by simpa using h
    exact hr
  · obtain rfl : _ = r' := by simpa using h
    exact hr

theorem confined_recursive
    {step : Parser → Parser} (hstep : ∀ p : Parser, p.Confined located → (step p).Confined located)
    (limit : Nat) : (recursive step limit).Confined located := by
  induction limit with
  | zero =>
      intro src r h
      simp [recursive] at h
  | succ limit ih => exact hstep _ ih

end Parser

end Descent
