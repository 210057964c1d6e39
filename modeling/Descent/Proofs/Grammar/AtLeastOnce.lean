import Descent.Proofs.Grammar.Repetition
import Descent.Proofs.Parser.Output

/-!
# Repeating at least once

The two repetitions differ only on their first match.  Where the body fails, the one that must match
fails like its body, and the other one matches the empty text.  Where the body has an output, they
agree.  Where the body matches and has nothing to output, the one that must match counts this as its
first match and goes on behind it, and the other one ends there.  Making the body optional does not
change the repetition that may be empty.
-/

namespace Descent

namespace Parser

variable {p : Parser} {src rest : Text} {vs : List Value} {limit : Nat}

theorem gather_oneOf_nothing (p : Parser) (limit : Nat) (src : Text) :
    (oneOf [p, nothing]).gather limit src = p.gather limit src := by
  induction limit generalizing src with
  | zero => rfl
  | succ limit ih =>
      cases hfirst : p src with
      | returned r =>
          cases r with
          | success v rest =>
              have hchoice : oneOf [p, nothing] src = .returned (.success v rest) :=
                oneOf_cons_of_success hfirst
              by_cases hv : v = .nothing
              · subst hv
                rw [gather_of_nothing hchoice, gather_of_nothing hfirst]
              · rw [gather_of_success hchoice hv, gather_of_success hfirst hv, ih]
          | failure f =>
              have hchoice : oneOf [p, nothing] src = .returned (.success .nothing src) :=
                oneOf_cons_of_failure hfirst
              rw [gather_of_nothing hchoice, gather_of_failure hfirst]
      | raised fault => simp [gather, oneOf, hfirst]
      | exhausted => simp [gather, oneOf, hfirst]

theorem nothing_notMem_of_gather (h : p.gather limit src = .returned (vs, rest)) :
    .nothing ∉ vs := by
  induction limit generalizing src vs with
  | zero => simp [gather] at h
  | succ limit ih =>
      rcases gather_cases h with
        ⟨f, -, rfl, -⟩ | ⟨-, rfl⟩ | ⟨v, middle, others, hfirst, hothers, rfl⟩
      · simp
      · simp
      · have hv : v ≠ .nothing := by
          rintro rfl
          rw [gather_of_nothing hfirst] at h
          simp at h
        simp [hv.symm, ih hothers]

end Parser

namespace Grammar

variable {g : Grammar} {defs : Definitions} {src middle rest : Text} {v w : Value}

theorem run_optional_many (g : Grammar) (ctx : Context) (src : Text) :
    g.optional.many.run ctx src = g.many.run ctx src := by
  simp only [optional, run, runAll, Parser.many, Parser.gather_oneOf_nothing]

theorem comesTo_oneOrMore_of_failure {f : Failure} (h : g.ComesTo defs src (.ok (.failure f))) :
    g.oneOrMore.ComesTo defs src (.ok (.failure f)) := by
  obtain ⟨limit, hlimit⟩ := h
  refine ⟨limit, ?_⟩
  simp only [apply] at hlimit
  simp [apply, oneOrMore, run, runAll, Parser.map, Parser.sequence, Parser.collect, hlimit]

theorem run_oneOrMore_of_success {ctx : Context}
    (h : g.run ctx src = .returned (.success v middle)) :
    g.oneOrMore.run ctx src =
      ((g.run ctx).gather ctx.limit middle >>= fun x =>
        pure (.success (.list (v :: x.1)) x.2)) := by
  simp only [oneOrMore, run, runAll, Parser.map, Parser.sequence, Parser.collect, Parser.many, h]
  cases hgather : (g.run ctx).gather ctx.limit middle <;> simp [hgather, Value.cons]

/-- The first output is put in front of what the repetition collects behind it. -/
theorem comesTo_oneOrMore_iff {result : Except Fault Reply}
    (h : g.ComesTo defs src (.ok (.success v middle))) :
    g.oneOrMore.ComesTo defs src result ↔
      ∃ gathered, g.Gathers defs middle gathered ∧
        result = gathered.map fun x => .success (.list (v :: x.1)) x.2 := by
  obtain ⟨bound, hbound⟩ := h.exists_bound
  constructor
  · intro hresult
    obtain ⟨bound', hbound'⟩ := hresult.exists_bound
    have hfirst := hbound (max bound bound') (Nat.le_max_left _ _)
    have hall := hbound' (max bound bound') (Nat.le_max_right _ _)
    rw [apply, run_oneOrMore_of_success hfirst] at hall
    obtain ⟨gathered, hgathered, hmap⟩ := Outcome.bind_pure_eq_ofExcept_iff.mp hall
    exact ⟨gathered, gathers_of_gather hgathered, hmap⟩
  · rintro ⟨gathered, hgathered, rfl⟩
    obtain ⟨bound', hbound'⟩ := hgathered.exists_bound
    have hle := Nat.le_max_right bound bound'
    refine ⟨max bound bound', ?_⟩
    rw [apply, run_oneOrMore_of_success (hbound _ (Nat.le_max_left _ _))]
    exact Outcome.bind_pure_eq_ofExcept_iff.mpr ⟨gathered, hbound' _ _ hle hle, rfl⟩

/-- Behind an output, both repetitions go on in the same way. -/
theorem comesTo_oneOrMore_iff_of_output {result : Except Fault Reply}
    (h : g.ComesTo defs src (.ok (.success v middle))) (hv : v ≠ .nothing) :
    g.oneOrMore.ComesTo defs src result ↔ g.many.ComesTo defs src result := by
  have hmap : ∀ others : Except Fault (List Value × Text),
      (others.map fun x => (v :: x.1, x.2)).map (fun x => Reply.success (.list x.1) x.2) =
        others.map fun x => .success (.list (v :: x.1)) x.2 := by
    intro others
    cases others <;> rfl
  rw [comesTo_oneOrMore_iff h, comesTo_many_iff]
  constructor
  · rintro ⟨others, hothers, rfl⟩
    exact ⟨_, (gathers_of_success_iff h hv).mpr ⟨others, hothers, rfl⟩, (hmap others).symm⟩
  · rintro ⟨gathered, hgathered, rfl⟩
    obtain ⟨others, hothers, rfl⟩ := (gathers_of_success_iff h hv).mp hgathered
    exact ⟨others, hothers, hmap others⟩

theorem comesTo_oneOrMore_iff_of_nothing {result : Except Fault Reply}
    (h : g.ComesTo defs src (.ok (.success .nothing middle))) :
    g.oneOrMore.ComesTo defs src result ↔
      (∃ vs rest, g.many.ComesTo defs middle (.ok (.success (.list vs) rest)) ∧
        result = .ok (.success (.list (.nothing :: vs)) rest)) ∨
      ∃ fault, g.many.ComesTo defs middle (.error fault) ∧ result = .error fault := by
  simp only [comesTo_oneOrMore_iff h, comesTo_many_ok_iff, comesTo_many_error_iff]
  constructor
  · rintro ⟨⟨fault⟩ | ⟨vs, rest⟩, hgathered, rfl⟩
    · exact .inr ⟨fault, hgathered, rfl⟩
    · exact .inl ⟨vs, rest, hgathered, rfl⟩
  · rintro (⟨vs, rest, hgathered, rfl⟩ | ⟨fault, hgathered, rfl⟩)
    · exact ⟨_, hgathered, rfl⟩
    · exact ⟨_, hgathered, rfl⟩

theorem of_comesTo_oneOrMore (h : g.oneOrMore.ComesTo defs src (.ok (.success w rest))) :
    ∃ first others, w = .list (first :: others) ∧ .nothing ∉ others := by
  obtain ⟨limit, hlimit⟩ := h
  obtain ⟨u, hsequence, hcons⟩ := Parser.of_map_eq_success hlimit
  obtain ⟨us, rfl, hcollect⟩ := Parser.of_sequence_eq_success hsequence
  obtain ⟨first, middle, us', -, hcollect', rfl⟩ := Parser.collect_cons_cases hcollect
  obtain ⟨last, rest', us'', hmany, hnil, rfl⟩ := Parser.collect_cons_cases hcollect'
  obtain ⟨others, rfl, hgather⟩ := Parser.of_many_eq_success hmany
  obtain ⟨rfl, -⟩ : [] = us'' ∧ rest' = rest := by simpa [runAll, Parser.collect] using hnil
  obtain rfl : .list (first :: others) = w := by simpa [Value.cons] using hcons
  exact ⟨first, others, rfl, Parser.nothing_notMem_of_gather hgather⟩

/-- An optional body is repeated like the body itself.  A repetition that must match fails with the
failure of its body, where the other repetition matches the empty text.  If the body has an output,
the two repetitions come to the same.  If it has nothing to output, the repetition that may be empty
ends behind it, and the other one has what the first collects from there on behind this match.  So
only the first output of a repetition that must match can be missing. -/
theorem oneOrMore_agrees_with_many (g : Grammar) (defs : Definitions) (src : Text) :
    (∀ limit, g.optional.many.apply defs limit src = g.many.apply defs limit src) ∧
    (∀ f, g.ComesTo defs src (.ok (.failure f)) →
      g.oneOrMore.ComesTo defs src (.ok (.failure f)) ∧
        g.many.ComesTo defs src (.ok (.success (.list []) src))) ∧
    (∀ v middle, g.ComesTo defs src (.ok (.success v middle)) → v ≠ .nothing →
      ∀ result, g.oneOrMore.ComesTo defs src result ↔ g.many.ComesTo defs src result) ∧
    (∀ middle, g.ComesTo defs src (.ok (.success .nothing middle)) →
      g.many.ComesTo defs src (.ok (.success (.list []) middle)) ∧
        ∀ result, g.oneOrMore.ComesTo defs src result ↔
          (∃ vs rest, g.many.ComesTo defs middle (.ok (.success (.list vs) rest)) ∧
            result = .ok (.success (.list (.nothing :: vs)) rest)) ∨
          ∃ fault, g.many.ComesTo defs middle (.error fault) ∧ result = .error fault) ∧
    ∀ w rest, g.oneOrMore.ComesTo defs src (.ok (.success w rest)) →
      ∃ first others, w = .list (first :: others) ∧ .nothing ∉ others := by
  refine ⟨fun limit => run_optional_many g _ src, ?_, ?_, ?_,
    fun w rest => of_comesTo_oneOrMore⟩
  · intro f hfail
    exact ⟨comesTo_oneOrMore_of_failure hfail, comesTo_many_ok_iff.mpr (gathers_of_failure hfail)⟩
  · intro v middle hmatch hv result
    exact comesTo_oneOrMore_iff_of_output hmatch hv
  · intro middle hmatch
    exact ⟨comesTo_many_ok_iff.mpr (gathers_of_nothing hmatch),
      fun result => comesTo_oneOrMore_iff_of_nothing hmatch⟩

end Grammar

end Descent
