import Descent.Blueprint
import Descent.Proofs.Parser.Choice
import Descent.Proofs.Parser.Output
import Mathlib.Data.List.Forall2

/-!
# Factoring a choice

If the alternatives of a choice are sequences that begin with the same parts, these parts may be
written once, in front of a choice between what follows them.  The choice tries an alternative only
after the earlier ones have failed, and every alternative begins with the same run of the common
parts.  So nothing new is seen by repeating that run: if it fails or raises a fault, it does so for
the first alternative and for the last one, and otherwise each alternative goes on from the same
text.
-/

namespace Descent

namespace Parser

variable {ps qs : List Parser} {src middle : Text} {vs : List Value}

/-! ### Sequences that share a beginning -/

theorem collect_append (ps qs : List Parser) (src : Text) :
    collect (ps ++ qs) src = (do
      match ← collect ps src with
      | .error f => return .error f
      | .ok (vs, middle) =>
          match ← collect qs middle with
          | .error f => return .error f
          | .ok (ws, rest) => return .ok (vs ++ ws, rest)) := by
  induction ps generalizing src with
  | nil =>
      simp only [List.nil_append, collect, Outcome.pure_eq, Outcome.returned_bind]
      cases collect qs src with
      | returned r => rcases r with f | ⟨ws, rest⟩ <;> rfl
      | raised fault => rfl
      | exhausted => rfl
  | cons p ps ih =>
      simp only [List.cons_append, collect]
      cases p src with
      | returned r =>
          cases r with
          | failure f => rfl
          | success v middle =>
              simp only [Outcome.returned_bind, ih]
              cases collect ps middle with
              | returned r =>
                  rcases r with f | ⟨vs, last⟩
                  · rfl
                  · simp only [Outcome.returned_bind, Outcome.pure_eq]
                    cases collect qs last with
                    | returned r => rcases r with f | ⟨ws, rest⟩ <;> rfl
                    | raised fault => rfl
                    | exhausted => rfl
              | raised fault => rfl
              | exhausted => rfl
      | raised fault => rfl
      | exhausted => rfl

/-- A match that follows a sequence with the outputs `vs` is the last part of a longer one. -/
def behind (vs : List Value) : Reply → Reply
  | .failure f => .failure f
  | .success v rest => .success (.list (vs ++ [v])) rest

theorem sequence_append_of_collect
    (h : collect ps src = .returned (.ok (vs, middle))) (p : Parser) :
    sequence (ps ++ [p]) src = do return behind vs (← p middle) := by
  simp only [sequence, collect_append, h, collect, Outcome.returned_bind]
  cases p middle with
  | returned r => cases r <;> rfl
  | raised fault => rfl
  | exhausted => rfl

theorem sequence_append_of_sequence
    (h : ∀ x, collect ps src ≠ .returned (.ok x)) (qs : List Parser) :
    sequence (ps ++ qs) src = sequence ps src := by
  simp only [sequence, collect_append]
  cases hps : collect ps src with
  | returned r =>
      rcases r with f | x
      · rfl
      · exact absurd hps (h x)
  | raised fault => rfl
  | exhausted => rfl

/-! ### Choices between alternatives that begin alike -/

variable {f : Parser → Parser}

theorem oneOf_map_of_no_match
    (hqs : qs ≠ []) {o : Outcome Reply} (ho : ∀ v rest, o ≠ .returned (.success v rest))
    (h : ∀ q ∈ qs, f q src = o) : oneOf (qs.map f) src = o := by
  induction qs with
  | nil => contradiction
  | cons q qs ih =>
      have hq : f q src = o := h q (by simp)
      cases qs with
      | nil => exact hq
      | cons q' qs =>
          have hothers := ih (by simp) fun q hq => h q (List.mem_cons_of_mem _ hq)
          cases o with
          | returned r =>
              cases r with
              | success v rest => exact absurd rfl (ho v rest)
              | failure e => exact (oneOf_cons_of_failure hq).trans hothers
          | raised fault => simp [oneOf, hq]
          | exhausted => simp [oneOf, hq]

theorem oneOf_map_of_behind
    (hqs : qs ≠ []) (h : ∀ q ∈ qs, f q src = do return behind vs (← q middle)) :
    oneOf (qs.map f) src = do return behind vs (← oneOf qs middle) := by
  induction qs with
  | nil => contradiction
  | cons q qs ih =>
      have hq := h q (by simp)
      cases qs with
      | nil => exact hq
      | cons q' qs =>
          have hothers := ih (by simp) fun q hq => h q (List.mem_cons_of_mem _ hq)
          simp only [List.map_cons] at hothers
          cases hreply : q middle with
          | returned r =>
              rw [hreply] at hq
              cases r with
              | success v rest =>
                  rw [oneOf_cons_of_success hreply]
                  exact oneOf_cons_of_success hq
              | failure e =>
                  rw [oneOf_cons_of_failure hreply, ← hothers]
                  exact oneOf_cons_of_failure hq
          | raised fault => simp [oneOf, hq, hreply]
          | exhausted => simp [oneOf, hq, hreply]

theorem sequence_append_oneOf (ps : List Parser) (hqs : qs ≠ []) (src : Text) :
    sequence (ps ++ [oneOf qs]) src = oneOf (qs.map fun q => sequence (ps ++ [q])) src := by
  by_cases h : ∃ x, collect ps src = .returned (.ok x)
  · obtain ⟨⟨vs, middle⟩, hcollect⟩ := h
    rw [sequence_append_of_collect hcollect]
    exact (oneOf_map_of_behind hqs fun q _ => sequence_append_of_collect hcollect q).symm
  · have hnone : ∀ x, collect ps src ≠ .returned (.ok x) := fun x hx => h ⟨x, hx⟩
    have hno_match : ∀ v rest, sequence ps src ≠ .returned (.success v rest) := by
      intro v rest hmatch
      obtain ⟨vs, -, hcollect⟩ := of_sequence_eq_success hmatch
      exact hnone _ hcollect
    rw [sequence_append_of_sequence hnone]
    exact (oneOf_map_of_no_match hqs hno_match
      fun q _ => sequence_append_of_sequence hnone [q]).symm

end Parser

/-! ### What a blueprint stands for -/

namespace Blueprint

variable {built : Definitions} {b : Blueprint} {bs : List Blueprint} {g h : Grammar}
  {gs : List Grammar}

/-- The blueprint can be carried out, and what it builds stands for the grammar. -/
def Builds (b : Blueprint) (built : Definitions) (g : Grammar) : Prop :=
  ∃ p, b.build built = .ok p ∧ p.toGrammar = .ok g

theorem Builds.unique (hg : b.Builds built g) (hh : b.Builds built h) : g = h := by
  obtain ⟨p, hp, hg⟩ := hg
  obtain ⟨q, hq, hh⟩ := hh
  obtain rfl : p = q := Except.ok.inj (hp.symm.trans hq)
  exact Except.ok.inj (hg.symm.trans hh)

theorem exists_forall₂_builds (h : ∀ b ∈ bs, ∃ g, b.Builds built g) :
    ∃ gs, List.Forall₂ (fun b g => b.Builds built g) bs gs := by
  induction bs with
  | nil => exact ⟨[], .nil⟩
  | cons b bs ih =>
      obtain ⟨g, hg⟩ := h b (by simp)
      obtain ⟨gs, hgs⟩ := ih fun b hb => h b (List.mem_cons_of_mem _ hb)
      exact ⟨g :: gs, .cons hg hgs⟩

theorem exists_buildAll (h : List.Forall₂ (fun b g => b.Builds built g) bs gs) :
    ∃ ps, buildAll built bs = .ok ps ∧ Part.toGrammars ps = .ok gs ∧ ps.length = gs.length := by
  induction h with
  | nil => exact ⟨[], rfl, rfl, rfl⟩
  | cons hfirst _ ih =>
      obtain ⟨p, hp, hg⟩ := hfirst
      obtain ⟨ps, hps, hgs, hlength⟩ := ih
      refine ⟨p :: ps, ?_, ?_, ?_⟩
      · rw [buildAll, hp, hps]
        rfl
      · rw [Part.toGrammars, hg, hgs]
        rfl
      · simp [hlength]

theorem exists_atLeastTwo (h : List.Forall₂ (fun b g => b.Builds built g) bs gs)
    (htwo : 2 ≤ bs.length) :
    ∃ ps, buildAll built bs = .ok ps ∧ Part.atLeastTwo ps = .ok gs := by
  obtain ⟨ps, hps, hgs, hlength⟩ := exists_buildAll h
  have hmany : ¬ ps.length < 2 := by
    rw [hlength, ← h.length_eq]
    omega
  exact ⟨ps, hps, by rw [Part.atLeastTwo, if_neg hmany, hgs]⟩

theorem builds_oneOf (h : List.Forall₂ (fun b g => b.Builds built g) bs gs)
    (htwo : 2 ≤ bs.length) : (oneOf bs).Builds built (.oneOf gs) := by
  obtain ⟨ps, hps, hgs⟩ := exists_atLeastTwo h htwo
  refine ⟨.grammar (.oneOf gs), ?_, rfl⟩
  simp only [build, hps, Part.oneOf, bind, Except.bind, hgs]
  rfl

theorem builds_sequence (h : List.Forall₂ (fun b g => b.Builds built g) bs gs)
    (htwo : 2 ≤ bs.length) : (sequence bs).Builds built (.sequence gs) := by
  obtain ⟨ps, hps, hgs⟩ := exists_atLeastTwo h htwo
  refine ⟨.grammar (.sequence gs), ?_, rfl⟩
  simp only [build, hps, Part.sequence, bind, Except.bind, hgs]
  rfl

end Blueprint

namespace Grammar

open Blueprint (Builds builds_oneOf builds_sequence exists_forall₂_builds)

theorem run_sequence_append_oneOf
    (gs : List Grammar) {hs : List Grammar} (hne : hs ≠ []) (ctx : Context) (src : Text) :
    (sequence (gs ++ [oneOf hs])).run ctx src =
      (oneOf (hs.map fun h => sequence (gs ++ [h]))).run ctx src := by
  have hparsers : hs.map (run · ctx) ≠ [] := by simpa using hne
  have hlaw := Parser.sequence_append_oneOf (gs.map (run · ctx)) hparsers src
  simpa [run_oneOf, run_sequence, Function.comp_def] using hlaw

/-- A choice between sequences that begin with the same parts can be built and does what a sequence
of these parts and a choice between the last ones does, in all that it replies and raises. -/
theorem left_factoring_is_exact {common alternatives : List Blueprint} {built : Definitions}
    (hcommon : common ≠ []) (halternatives : 2 ≤ alternatives.length)
    (hbuilds : ∀ b ∈ common ++ alternatives, ∃ g, b.Builds built g) :
    ∃ factored expanded,
      (Blueprint.sequence (common ++ [.oneOf alternatives])).Builds built factored ∧
      (Blueprint.oneOf (alternatives.map fun b => .sequence (common ++ [b]))).Builds built
        expanded ∧
      ∀ defs limit src, factored.apply defs limit src = expanded.apply defs limit src := by
  obtain ⟨gs, hgs⟩ := exists_forall₂_builds fun b hb => hbuilds b (List.mem_append_left _ hb)
  obtain ⟨hs, hhs⟩ := exists_forall₂_builds fun b hb => hbuilds b (List.mem_append_right _ hb)
  have hsequence : ∀ b h, b.Builds built h →
      (Blueprint.sequence (common ++ [b])).Builds built (sequence (gs ++ [h])) := by
    intro b h hb
    have hlength := List.length_pos_iff.mpr hcommon
    apply builds_sequence (List.rel_append hgs (.cons hb .nil))
    simp
    omega
  have hexpanded : (Blueprint.oneOf (alternatives.map fun b => .sequence (common ++ [b]))).Builds
      built (oneOf (hs.map fun h => sequence (gs ++ [h]))) := by
    apply builds_oneOf
    · rw [List.forall₂_map_left_iff, List.forall₂_map_right_iff]
      exact hhs.imp hsequence
    · simpa using halternatives
  have hne : hs ≠ [] := by
    rintro rfl
    simp [hhs.length_eq] at halternatives
  refine ⟨_, _, hsequence _ _ (builds_oneOf hhs halternatives), hexpanded, ?_⟩
  intro defs limit src
  exact run_sequence_append_oneOf gs hne _ src

def commonLetters : List Blueprint := [.part (.text "a"), .many (.part (.text "b"))]

def alternativeLetters : List Blueprint := [.part (.text "c"), .optional (.part (.text "d"))]

theorem builds_letters :
    ∀ b ∈ commonLetters ++ alternativeLetters, ∃ g, b.Builds [] g := by
  intro b hb
  simp only [commonLetters, alternativeLetters, List.cons_append, List.nil_append, List.mem_cons,
    List.not_mem_nil, or_false] at hb
  rcases hb with rfl | rfl | rfl | rfl <;> exact ⟨_, _, rfl, rfl⟩

theorem left_factoring_is_exact_letters :
    commonLetters ≠ [] ∧ 2 ≤ alternativeLetters.length ∧
    (∀ b ∈ commonLetters ++ alternativeLetters, ∃ g, b.Builds [] g) ∧
    ∃ factored expanded,
      (Blueprint.sequence (commonLetters ++ [.oneOf alternativeLetters])).Builds [] factored ∧
      (Blueprint.oneOf (alternativeLetters.map fun b => .sequence (commonLetters ++ [b]))).Builds []
        expanded ∧
      factored.apply [] 3 "abbx" =
        .returned (.success (.list [.text "a", .list [.text "b", .text "b"], .nothing]) "x") ∧
      expanded.apply [] 3 "abbx" = factored.apply [] 3 "abbx" := by
  have hcommon : commonLetters ≠ [] := by simp [commonLetters]
  have halternatives : 2 ≤ alternativeLetters.length := by simp [alternativeLetters]
  obtain ⟨factored, expanded, hfactored, hexpanded, hsame⟩ :=
    left_factoring_is_exact hcommon halternatives builds_letters
  refine ⟨hcommon, halternatives, builds_letters, factored, expanded, hfactored, hexpanded, ?_,
    (hsame [] 3 "abbx").symm⟩
  obtain rfl := hfactored.unique ⟨_, rfl, rfl⟩
  rfl

end Grammar

end Descent
