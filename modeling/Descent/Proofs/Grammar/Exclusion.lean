import Descent.Grammar.Definitions
import Mathlib.Tactic

/-!
# Exclusions

An exclusion is only asked about a match.  It is given the text on which the match began, or the
text that the match left, and if it matches there, the match is turned into a failure on the text on
which it began.  Otherwise the match stays as it is.  The two combinators differ only in the text
they give to the exclusion, so they are treated as one here.  Looking ahead of a match is excluding
the match with what follows it, and two exclusions of one kind are a choice between them.
-/

namespace Descent

namespace Parser

variable {p q a b : Parser} {src rest : Text} {v : Value}

/-- A match, unless the exclusion replied with a match. -/
def unlessMatched (message src rest : Text) (v : Value) (r : Reply) : Reply :=
  if r.isSuccess then .failure { input := src, message } else .success v rest

/-- Asks an exclusion about each match, which is known by the texts where it begins and ends. -/
def excluding (p : Parser) (ask : (src rest : Text) → Outcome Reply) (message : Text) : Parser :=
  fun src => do
    match ← p src with
    | .failure f => return .failure f
    | .success v rest => return unlessMatched message src rest v (← ask src rest)

theorem bind_unless (o : Outcome Reply) (message src rest : Text) (v : Value) :
    (do if (← o).isSuccess then failWith message src else return .success v rest) =
      o >>= fun r => pure (unlessMatched message src rest v r) := by
  cases o with
  | returned r => cases r <;> rfl
  | raised fault => rfl
  | exhausted => rfl

theorem butNot_eq_excluding (p q : Parser) (name : Text) :
    p.butNot q name = p.excluding (fun src _ => q src) ("input was unexpectedly " ++ name) := by
  funext src
  cases hp : p src with
  | returned r =>
      cases r with
      | success v rest =>
          simp only [butNot, excluding, hp, Outcome.returned_bind]
          exact bind_unless (q src) _ src rest v
      | failure f => simp [butNot, excluding, hp]
  | raised fault => simp [butNot, excluding, hp]
  | exhausted => simp [butNot, excluding, hp]

theorem lookaheadNot_eq_excluding (p q : Parser) (name : Text) :
    p.lookaheadNot q name =
      p.excluding (fun _ rest => q rest) ("input was unexpectedly followed by " ++ name) := by
  funext src
  cases hp : p src with
  | returned r =>
      cases r with
      | success v rest =>
          simp only [lookaheadNot, excluding, hp, Outcome.returned_bind]
          exact bind_unless (q rest) _ src rest v
      | failure f => simp [lookaheadNot, excluding, hp]
  | raised fault => simp [lookaheadNot, excluding, hp]
  | exhausted => simp [lookaheadNot, excluding, hp]

section Excluding

variable {ask ask' : (src rest : Text) → Outcome Reply} {message : Text}

theorem excluding_of_success (h : p src = .returned (.success v rest)) :
    p.excluding ask message src =
      ask src rest >>= fun r => pure (unlessMatched message src rest v r) := by
  simp [excluding, h]

/-- Without a match the exclusion does not matter, not even if it raises or does not end. -/
theorem excluding_of_no_match (h : ∀ v rest, p src ≠ .returned (.success v rest)) :
    p.excluding ask message src = p src := by
  cases hp : p src with
  | returned r =>
      cases r with
      | success v rest => exact absurd hp (h v rest)
      | failure f => simp [excluding, hp]
  | raised fault => simp [excluding, hp]
  | exhausted => simp [excluding, hp]

theorem of_excluding_eq_returned {r : Reply} (h : p.excluding ask message src = .returned r) :
    p src = .returned r ∨ r = .failure { input := src, message } := by
  by_cases hp : ∃ v rest, p src = .returned (.success v rest)
  · obtain ⟨v, rest, hp⟩ := hp
    rw [excluding_of_success hp] at h
    obtain ⟨r', -, hr⟩ := Outcome.bind_eq_returned_iff.mp h
    obtain rfl : unlessMatched message src rest v r' = r := by simpa using hr
    unfold unlessMatched
    split
    · exact .inr rfl
    · exact .inl hp
  · rw [excluding_of_no_match fun v rest hmatch => hp ⟨v, rest, hmatch⟩] at h
    exact .inl h

/-- Both exclusions are asked about the same match, the second one only if the first one fails. -/
theorem excluding_excluding :
    (p.excluding ask message).excluding ask' message =
      p.excluding (fun src rest => oneOf [fun _ => ask src rest, fun _ => ask' src rest] src)
        message := by
  funext src
  by_cases hp : ∃ v rest, p src = .returned (.success v rest)
  · obtain ⟨v, rest, hp⟩ := hp
    have hinner : p.excluding ask message src = _ := excluding_of_success hp
    rw [excluding_of_success hp]
    cases hask : ask src rest with
    | returned r =>
        cases r with
        | success w last =>
            have hmatched : p.excluding ask message src =
                .returned (.failure { input := src, message }) := by
              rw [hinner, hask]
              rfl
            rw [excluding_of_no_match (by simp [hmatched]), hmatched]
            simp [oneOf, unlessMatched, Reply.isSuccess]
        | failure f =>
            have hleft : p.excluding ask message src = .returned (.success v rest) := by
              rw [hinner, hask]
              rfl
            rw [excluding_of_success hleft]
            simp [oneOf]
    | raised fault =>
        have hraised : p.excluding ask message src = .raised fault := by simp [hinner, hask]
        rw [excluding_of_no_match (by simp [hraised]), hraised]
        simp [oneOf]
    | exhausted =>
        have hexhausted : p.excluding ask message src = .exhausted := by simp [hinner, hask]
        rw [excluding_of_no_match (by simp [hexhausted]), hexhausted]
        simp [oneOf]
  · have hnone : ∀ v rest, p src ≠ .returned (.success v rest) :=
      fun v rest hmatch => hp ⟨v, rest, hmatch⟩
    have hinner : p.excluding ask message src = p src := excluding_of_no_match hnone
    rw [excluding_of_no_match hnone, excluding_of_no_match (by rwa [hinner]), hinner]

end Excluding

/-! ### Laws of the two combinators -/

theorem unexpectedly_followed_by (name : Text) :
    ("input was unexpectedly " : Text) ++ ("followed by " ++ name) =
      "input was unexpectedly followed by " ++ name := by
  simp [Text.ofString]

/-- Looking ahead of a match is excluding the match with what follows it. -/
theorem lookaheadNot_eq_butNot_sequence (p q : Parser) (name src : Text) :
    p.lookaheadNot q name src = p.butNot (sequence [p, q]) ("followed by " ++ name) src := by
  rw [lookaheadNot_eq_excluding, butNot_eq_excluding]
  by_cases hp : ∃ v rest, p src = .returned (.success v rest)
  · obtain ⟨v, rest, hp⟩ := hp
    rw [excluding_of_success hp, excluding_of_success hp]
    rw [unexpectedly_followed_by]
    cases hq : q rest with
    | returned r => cases r <;> simp [sequence, collect, hp, hq, unlessMatched, Reply.isSuccess]
    | raised fault => simp [sequence, collect, hp, hq]
    | exhausted => simp [sequence, collect, hp, hq]
  · have hnone : ∀ v rest, p src ≠ .returned (.success v rest) :=
      fun v rest hmatch => hp ⟨v, rest, hmatch⟩
    rw [excluding_of_no_match hnone, excluding_of_no_match hnone]

theorem butNot_butNot (p a b : Parser) (name : Text) :
    (p.butNot a name).butNot b name = p.butNot (oneOf [a, b]) name := by
  rw [butNot_eq_excluding, butNot_eq_excluding, butNot_eq_excluding, excluding_excluding]
  rfl

theorem lookaheadNot_lookaheadNot (p a b : Parser) (name : Text) :
    (p.lookaheadNot a name).lookaheadNot b name = p.lookaheadNot (oneOf [a, b]) name := by
  rw [lookaheadNot_eq_excluding, lookaheadNot_eq_excluding, lookaheadNot_eq_excluding,
    excluding_excluding]
  rfl

end Parser

namespace Grammar

/-- The grammar is `p` with exclusions around it, of either kind and as many as there are. -/
inductive Narrows (p : Grammar) : Grammar → Prop
  | none : Narrows p p
  | butNot {g : Grammar} : Narrows p g → (excluded : Grammar) → (name : Text) →
      Narrows p (g.butNot excluded name)
  | lookaheadNot {g : Grammar} : Narrows p g → (follower : Grammar) → (name : Text) →
      Narrows p (g.lookaheadNot follower name)

variable {p g : Grammar} {ctx : Context} {src : Text}

theorem Narrows.run_of_no_match
    (hg : Narrows p g) (h : ∀ v rest, p.run ctx src ≠ .returned (.success v rest)) :
    g.run ctx src = p.run ctx src := by
  induction hg with
  | none => rfl
  | butNot _ excluded name ih =>
      rw [run, Parser.butNot_eq_excluding, Parser.excluding_of_no_match (by rwa [ih]), ih]
  | lookaheadNot _ follower name ih =>
      rw [run, Parser.lookaheadNot_eq_excluding, Parser.excluding_of_no_match (by rwa [ih]), ih]

theorem Narrows.of_run_eq_returned
    {r : Reply} (hg : Narrows p g) (h : g.run ctx src = .returned r) :
    p.run ctx src = .returned r ∨
      ∃ name, r = .failure { input := src, message := "input was unexpectedly " ++ name } := by
  induction hg generalizing r with
  | none => exact .inl h
  | butNot _ excluded name ih =>
      rw [run, Parser.butNot_eq_excluding] at h
      rcases Parser.of_excluding_eq_returned h with h | rfl
      · exact ih h
      · exact .inr ⟨name, rfl⟩
  | lookaheadNot _ follower name ih =>
      rw [run, Parser.lookaheadNot_eq_excluding] at h
      rcases Parser.of_excluding_eq_returned h with h | rfl
      · exact ih h
      · refine .inr ⟨"followed by " ++ name, ?_⟩
        rw [Parser.unexpectedly_followed_by]

/-- Looking ahead of a match is excluding the match with what follows it, and two exclusions of one
kind and name are a choice between them.  Exclusions only matter where their grammar matches, so its
own failures and faults come first.  What they leave is the match as it was, and what they make of it
is a failure on the text on which it began.  They are asked on that text or on the text that the
match left. -/
theorem exclusions_fuse (p q a b : Grammar) (name : Text) (defs : Definitions) (limit : Nat)
    (src : Text) :
    (p.lookaheadNot q name).apply defs limit src =
      (p.butNot (sequence [p, q]) ("followed by " ++ name)).apply defs limit src ∧
    ((p.butNot a name).butNot b name).apply defs limit src =
      (p.butNot (oneOf [a, b]) name).apply defs limit src ∧
    ((p.lookaheadNot a name).lookaheadNot b name).apply defs limit src =
      (p.lookaheadNot (oneOf [a, b]) name).apply defs limit src ∧
    (∀ g, Narrows p g →
      ((∀ v rest, p.apply defs limit src ≠ .returned (.success v rest)) →
        g.apply defs limit src = p.apply defs limit src) ∧
      ∀ r, g.apply defs limit src = .returned r →
        p.apply defs limit src = .returned r ∨
          ∃ name, r = .failure { input := src, message := "input was unexpectedly " ++ name }) ∧
    ∀ v rest, p.apply defs limit src = .returned (.success v rest) →
      (p.butNot q name).apply defs limit src = (do
        if (← q.apply defs limit src).isSuccess then
          return .failure { input := src, message := "input was unexpectedly " ++ name }
        else return .success v rest) ∧
      (p.lookaheadNot q name).apply defs limit src = (do
        if (← q.apply defs limit rest).isSuccess then
          return .failure
            { input := src, message := "input was unexpectedly followed by " ++ name }
        else return .success v rest) := by
  refine ⟨?_, ?_, ?_, ?_, ?_⟩
  · exact Parser.lookaheadNot_eq_butNot_sequence _ _ name src
  · exact congrFun (Parser.butNot_butNot _ _ _ name) src
  · exact congrFun (Parser.lookaheadNot_lookaheadNot _ _ _ name) src
  · intro g hg
    exact ⟨fun h => hg.run_of_no_match h, fun r h => hg.of_run_eq_returned h⟩
  · intro v rest h
    simp only [apply, run] at h ⊢
    rw [Parser.butNot_eq_excluding, Parser.lookaheadNot_eq_excluding,
      Parser.excluding_of_success h, Parser.excluding_of_success h]
    exact ⟨(Parser.bind_unless _ _ _ _ _).symm, (Parser.bind_unless _ _ _ _ _).symm⟩

example :
    (any.butNot (literal "ab") "a pair").apply [] 0 "abc" =
      .returned (.failure { input := "abc", message := "input was unexpectedly a pair" }) := by
  rfl

end Grammar

end Descent
