import Descent.Proofs.Grammar.Result
import Descent.Proofs.Parser.Choice
import Descent.Proofs.Parser.Repetition

/-!
# Repetitions

A repetition matches its body again and again, until the body fails or has nothing to output.  What
was matched is a chain of texts, each one left by a match on the one before, and there is only one
such chain that cannot be continued.  If the body replies to every text and each of its outputs
leaves a shorter text, then the chain ends, and the repetition with it.
-/

namespace Descent.Grammar

variable {g : Grammar} {defs : Definitions} {src middle last rest : Text} {v : Value}
  {vs : List Value} {steps : List (Value × Text)}

/-! ### One step -/

/-- What repeating the grammar on the text collects: the outputs and the text that is left. -/
def Gathers (g : Grammar) (defs : Definitions) (src : Text)
    (gathered : Except Fault (List Value × Text)) : Prop :=
  ∃ limit, (g.apply defs limit).gather limit src = .ofExcept gathered

theorem Gathers.exists_bound {gathered : Except Fault (List Value × Text)}
    (hg : g.Gathers defs src gathered) :
    ∃ bound, ∀ limit n, bound ≤ limit → bound ≤ n →
      (g.apply defs limit).gather n src = .ofExcept gathered := by
  obtain ⟨bound, hbound⟩ := hg
  refine ⟨bound, fun limit n hlimit hn => ?_⟩
  exact ((growsTo_apply g defs hlimit).gather hn src).eq_ofExcept hbound

theorem gathers_of_gather {limit n : Nat} {gathered : Except Fault (List Value × Text)}
    (hg : (g.apply defs limit).gather n src = .ofExcept gathered) : g.Gathers defs src gathered := by
  refine ⟨max limit n, ?_⟩
  have hgrows := growsTo_apply g defs (Nat.le_max_left limit n)
  exact (hgrows.gather (Nat.le_max_right limit n) src).eq_ofExcept hg

theorem gathers_of_failure {f : Failure} (hg : g.ComesTo defs src (.ok (.failure f))) :
    g.Gathers defs src (.ok ([], src)) := by
  obtain ⟨limit, hlimit⟩ := hg
  exact gathers_of_gather (Parser.gather_of_failure hlimit 0)

theorem gathers_of_nothing (hg : g.ComesTo defs src (.ok (.success .nothing rest))) :
    g.Gathers defs src (.ok ([], rest)) := by
  obtain ⟨limit, hlimit⟩ := hg
  exact gathers_of_gather (Parser.gather_of_nothing hlimit 0)

/-- An output is put in front of what the repetition collects behind it. -/
theorem gathers_of_success_iff {gathered : Except Fault (List Value × Text)}
    (hg : g.ComesTo defs src (.ok (.success v middle))) (hv : v ≠ .nothing) :
    g.Gathers defs src gathered ↔
      ∃ others, g.Gathers defs middle others ∧
        gathered = others.map fun x => (v :: x.1, x.2) := by
  obtain ⟨bound, hbound⟩ := hg.exists_bound
  constructor
  · intro hgathers
    obtain ⟨bound', hbound'⟩ := hgathers.exists_bound
    have hfirst := hbound (max bound bound') (Nat.le_max_left _ _)
    have hall := hbound' (max bound bound') (bound' + 1) (Nat.le_max_right _ _) (Nat.le_succ _)
    rw [Parser.gather_of_success hfirst hv] at hall
    obtain ⟨others, hothers, hmap⟩ := Outcome.bind_pure_eq_ofExcept_iff.mp hall
    exact ⟨others, gathers_of_gather hothers, hmap⟩
  · rintro ⟨others, hothers, rfl⟩
    obtain ⟨bound', hbound'⟩ := hothers.exists_bound
    -- The limit of the body and the number of steps are bounded apart, since a step lowers only one.
    have hfirst := hbound (max bound bound') (Nat.le_max_left _ _)
    have hrest := hbound' (max bound bound') bound' (Nat.le_max_right _ _) (Nat.le_refl _)
    have hall : (g.apply defs (max bound bound')).gather (bound' + 1) src =
        .ofExcept (others.map fun x => (v :: x.1, x.2)) := by
      rw [Parser.gather_of_success hfirst hv]
      exact Outcome.bind_pure_eq_ofExcept_iff.mpr ⟨others, hrest, rfl⟩
    exact gathers_of_gather hall

theorem comesTo_many_iff {result : Except Fault Reply} :
    g.many.ComesTo defs src result ↔
      ∃ gathered, g.Gathers defs src gathered ∧
        result = gathered.map fun x => .success (.list x.1) x.2 := by
  constructor
  · rintro ⟨limit, hlimit⟩
    obtain ⟨gathered, hgather, hmap⟩ := Outcome.bind_pure_eq_ofExcept_iff.mp hlimit
    exact ⟨gathered, ⟨limit, hgather⟩, hmap⟩
  · rintro ⟨gathered, ⟨limit, hgather⟩, hmap⟩
    exact ⟨limit, Outcome.bind_pure_eq_ofExcept_iff.mpr ⟨gathered, hgather, hmap⟩⟩

theorem comesTo_many_ok_iff :
    g.many.ComesTo defs src (.ok (.success (.list vs) rest)) ↔ g.Gathers defs src (.ok (vs, rest)) := by
  rw [comesTo_many_iff]
  constructor
  · rintro ⟨⟨fault⟩ | ⟨vs', rest'⟩, hgathered, heq⟩
    · simp [Except.map] at heq
    · obtain ⟨rfl, rfl⟩ : vs = vs' ∧ rest = rest' := by simpa [Except.map] using heq
      exact hgathered
  · intro hgathered
    exact ⟨_, hgathered, rfl⟩

theorem comesTo_many_error_iff {fault : Fault} :
    g.many.ComesTo defs src (.error fault) ↔ g.Gathers defs src (.error fault) := by
  rw [comesTo_many_iff]
  constructor
  · rintro ⟨⟨fault'⟩ | ⟨vs', rest'⟩, hgathered, heq⟩
    · obtain rfl : fault = fault' := by simpa [Except.map] using heq
      exact hgathered
    · simp [Except.map] at heq
  · intro hgathered
    exact ⟨_, hgathered, rfl⟩

/-! ### Chains of matches -/

/-- The grammar matches again and again, from the text `src` up to `last`.  Each step has an output
and leaves a text, on which the next step begins. -/
inductive Iterates (g : Grammar) (defs : Definitions) :
    (src : Text) → (steps : List (Value × Text)) → (last : Text) → Prop
  | done (src : Text) : Iterates g defs src [] src
  | step {src middle last : Text} {v : Value} {steps : List (Value × Text)} :
      g.ComesTo defs src (.ok (.success v middle)) → v ≠ .nothing →
        Iterates g defs middle steps last → Iterates g defs src ((v, middle) :: steps) last

/-- No further step begins on the text `last`: the grammar fails there, and the text itself is left,
or it matches and has nothing to output, and what that match leaves is left. -/
inductive Stops (g : Grammar) (defs : Definitions) : (last rest : Text) → Prop
  | failure {last : Text} {f : Failure} :
      g.ComesTo defs last (.ok (.failure f)) → Stops g defs last last
  | nothing {last rest : Text} :
      g.ComesTo defs last (.ok (.success .nothing rest)) → Stops g defs last rest

theorem Stops.gathers (h : g.Stops defs last rest) : g.Gathers defs last (.ok ([], rest)) := by
  cases h with
  | failure hfail => exact gathers_of_failure hfail
  | nothing hnothing => exact gathers_of_nothing hnothing

theorem Iterates.gathers
    (h : g.Iterates defs src steps last) (hstops : g.Stops defs last rest) :
    g.Gathers defs src (.ok (steps.map Prod.fst, rest)) := by
  induction h with
  | done => exact hstops.gathers
  | step hmatch hv _ ih => exact (gathers_of_success_iff hmatch hv).mpr ⟨_, ih hstops, rfl⟩

theorem Stops.not_success
    (h : g.Stops defs last rest) (hv : v ≠ .nothing) :
    ¬ g.ComesTo defs last (.ok (.success v middle)) := by
  intro hmatch
  cases h with
  | failure hfail => simpa using hmatch.unique hfail
  | nothing hnothing =>
      have heq := hmatch.unique hnothing
      simp only [Except.ok.injEq, Reply.success.injEq] at heq
      exact hv heq.1

theorem Stops.unique {rest' : Text}
    (h : g.Stops defs last rest) (h' : g.Stops defs last rest') : rest = rest' := by
  cases h with
  | failure hfail =>
      cases h' with
      | failure => rfl
      | nothing hnothing => simpa using hfail.unique hnothing
  | nothing hnothing =>
      cases h' with
      | failure hfail => simpa using hfail.unique hnothing
      | nothing hnothing' => simpa using hnothing.unique hnothing'

/-- A chain that cannot be continued is the only one. -/
theorem Iterates.unique {steps' : List (Value × Text)} {last' rest' : Text}
    (h : g.Iterates defs src steps last) (hstops : g.Stops defs last rest)
    (h' : g.Iterates defs src steps' last') (hstops' : g.Stops defs last' rest') :
    steps' = steps ∧ last' = last ∧ rest' = rest := by
  induction h generalizing steps' with
  | done src =>
      cases h' with
      | done => exact ⟨rfl, rfl, hstops'.unique hstops⟩
      | step hmatch hv _ => exact absurd hmatch (hstops.not_success hv)
  | step hmatch hv _ ih =>
      cases h' with
      | done => exact absurd hmatch (hstops'.not_success hv)
      | step hmatch' _ h' =>
          have heq := hmatch'.unique hmatch
          simp only [Except.ok.injEq, Reply.success.injEq] at heq
          obtain ⟨rfl, rfl⟩ := heq
          obtain ⟨rfl, rfl, rfl⟩ := ih hstops h'
          exact ⟨rfl, rfl, rfl⟩

/-! ### The whole repetition -/

/-- By induction on the length of the text, which each output makes shorter. -/
theorem exists_iterates
    (hreplies : ∀ src, ∃ r, g.ComesTo defs src (.ok r))
    (hshorter : ∀ src v rest, g.ComesTo defs src (.ok (.success v rest)) → v ≠ .nothing →
      rest.length < src.length) (src : Text) :
    ∃ steps last rest, g.Iterates defs src steps last ∧ g.Stops defs last rest := by
  induction hlength : src.length using Nat.strong_induction_on generalizing src with
  | _ n ih =>
      obtain ⟨r, hr⟩ := hreplies src
      cases r with
      | failure f => exact ⟨[], src, src, .done src, .failure hr⟩
      | success v middle =>
          by_cases hv : v = .nothing
          · subst hv
            exact ⟨[], src, middle, .done src, .nothing hr⟩
          · have hlt : middle.length < n := hlength ▸ hshorter src v middle hr hv
            obtain ⟨steps, last, rest, hsteps, hstops⟩ := ih middle.length hlt middle rfl
            exact ⟨(v, middle) :: steps, last, rest, .step hr hv hsteps, hstops⟩

/-- A repetition ends on every text if its body replies to all texts and each output of the body
leaves a shorter one.  It matches what a chain of matches of its body does that cannot be continued,
of which there is one only, and outputs what the steps of the chain output.  So the body fails on
what is left, unless it may have nothing to output, and a sequence of the repetition and its body
never matches. -/
theorem many_iterates_body
    (hreplies : ∀ src, ∃ r, g.ComesTo defs src (.ok r))
    (hshorter : ∀ src v rest, g.ComesTo defs src (.ok (.success v rest)) → v ≠ .nothing →
      rest.length < src.length) (src : Text) :
    ∃ steps last rest,
      g.many.ComesTo defs src (.ok (.success (.list (steps.map Prod.fst)) rest)) ∧
      g.Iterates defs src steps last ∧ g.Stops defs last rest ∧
      (∀ steps' last' rest', g.Iterates defs src steps' last' → g.Stops defs last' rest' →
        steps' = steps ∧ last' = last ∧ rest' = rest) ∧
      ((∀ src rest, ¬ g.ComesTo defs src (.ok (.success .nothing rest))) →
        (∃ f, g.ComesTo defs rest (.ok (.failure f))) ∧
          ∃ f, (sequence [g.many, g]).ComesTo defs src (.ok (.failure f))) := by
  obtain ⟨steps, last, rest, hsteps, hstops⟩ := exists_iterates hreplies hshorter src
  have hmany : g.many.ComesTo defs src (.ok (.success (.list (steps.map Prod.fst)) rest)) :=
    comesTo_many_ok_iff.mpr (hsteps.gathers hstops)
  refine ⟨steps, last, rest, hmany, hsteps, hstops, ?_, ?_⟩
  · intro steps' last' rest' hsteps' hstops'
    exact hsteps.unique hstops hsteps' hstops'
  · intro hnever
    cases hstops with
    | failure hfail => exact ⟨⟨_, hfail⟩, _, hmany.sequence_of_failure hfail⟩
    | nothing hnothing => exact absurd hnothing (hnever _ _)

theorem comesTo_literal_append (t rest : Text) (defs : Definitions) :
    (literal t).ComesTo defs (t ++ rest) (.ok (.success (.text t) rest)) :=
  ⟨0, Parser.literal_append t rest⟩

theorem exists_comesTo_literal_failure {t : Text} (h : ¬ t <+: src) (defs : Definitions) :
    ∃ f, (literal t).ComesTo defs src (.ok (.failure f)) :=
  ⟨_, 0, Parser.literal_of_not_prefix h⟩

theorem exists_comesTo_literal (t : Text) (defs : Definitions) (src : Text) :
    ∃ r, (literal t).ComesTo defs src (.ok r) := by
  by_cases hbegins : t <+: src
  · obtain ⟨rest, rfl⟩ := hbegins
    exact ⟨_, comesTo_literal_append t rest defs⟩
  · obtain ⟨f, hf⟩ := exists_comesTo_literal_failure hbegins defs
    exact ⟨_, hf⟩

theorem of_comesTo_literal {t : Text}
    (h : (literal t).ComesTo defs src (.ok (.success v rest))) :
    v = .text t ∧ src = t ++ rest := by
  by_cases hbegins : t <+: src
  · obtain ⟨rest', rfl⟩ := hbegins
    have heq := h.unique (comesTo_literal_append t rest' defs)
    simp only [Except.ok.injEq, Reply.success.injEq] at heq
    rw [heq.1, heq.2]
    exact ⟨rfl, rfl⟩
  · obtain ⟨f, hf⟩ := exists_comesTo_literal_failure hbegins defs
    simpa using h.unique hf

theorem many_iterates_body_letters :
    (∀ src, ∃ r, (literal "ab").ComesTo [] src (.ok r)) ∧
    (∀ src v rest, (literal "ab").ComesTo [] src (.ok (.success v rest)) → v ≠ .nothing →
      rest.length < src.length) ∧
    (literal "ab").many.ComesTo [] "ababac"
      (.ok (.success (.list [.text "ab", .text "ab"]) "ac")) ∧
    ∃ f, (sequence [(literal "ab").many, literal "ab"]).ComesTo [] "ababac"
      (.ok (.failure f)) := by
  have hreplies := exists_comesTo_literal "ab" []
  have hmatch : ∀ src v rest, (literal "ab").ComesTo [] src (.ok (.success v rest)) →
      v = .text "ab" ∧ src = "ab" ++ rest := fun _ _ _ => of_comesTo_literal
  have hshorter : ∀ src v rest, (literal "ab").ComesTo [] src (.ok (.success v rest)) →
      v ≠ .nothing → rest.length < src.length := by
    intro src v rest h _
    rw [(hmatch src v rest h).2]
    simp [Text.ofString]
  obtain ⟨steps, last, rest, hmany, -, -, hunique, hnever⟩ :=
    many_iterates_body hreplies hshorter "ababac"
  have hsteps : (literal "ab").Iterates [] "ababac"
      [(.text "ab", "abac"), (.text "ab", "ac")] "ac" :=
    .step ⟨0, rfl⟩ (by simp) (.step ⟨0, rfl⟩ (by simp) (.done _))
  have hstops : (literal "ab").Stops [] "ac" "ac" := .failure ⟨0, rfl⟩
  obtain ⟨rfl, rfl, rfl⟩ := hunique _ _ _ hsteps hstops
  have hfails := hnever fun src rest hnothing => by simpa using (hmatch _ _ _ hnothing).1
  exact ⟨hreplies, hshorter, hmany, hfails.2⟩

end Descent.Grammar
