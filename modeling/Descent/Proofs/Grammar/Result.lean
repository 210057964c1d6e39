import Descent.Proofs.Grammar.Limit

/-!
# What a grammar comes to

Without a limit, the application of a grammar to a text comes to a reply or to a fault, or it does
not come to an end.  It comes to what it is under some limit that suffices, and every larger limit
suffices as well, so there is at most one such result.
-/

namespace Descent

namespace Outcome

variable {α β : Type} {o o' : Outcome α}

theorem ofExcept_injective {result result' : Except Fault α}
    (h : ofExcept result = ofExcept result') : result = result' := by
  cases result <;> cases result' <;> simp_all

theorem GrowsTo.eq_ofExcept {result : Except Fault α}
    (h : o.GrowsTo o') (ho : o = ofExcept result) : o' = ofExcept result := by
  cases result with
  | ok a => exact h.eq_returned ho
  | error fault => exact h.eq_raised ho

theorem bind_pure_eq_ofExcept_iff {f : α → β} {result : Except Fault β} :
    (o >>= fun a => pure (f a)) = ofExcept result ↔
      ∃ first, o = ofExcept first ∧ result = first.map f := by
  constructor
  · intro h
    cases o with
    | returned a =>
        have hlast : ofExcept (.ok (f a)) = ofExcept result := h
        exact ⟨.ok a, rfl, (ofExcept_injective hlast).symm⟩
    | raised fault =>
        have hlast : ofExcept (.error fault) = ofExcept result := h
        exact ⟨.error fault, rfl, (ofExcept_injective hlast).symm⟩
    | exhausted => cases result <;> simp at h
  · rintro ⟨first, rfl, rfl⟩
    cases first <;> rfl

end Outcome

namespace Grammar

/-- Under some limit the grammar has this result on the text. -/
def ComesTo (g : Grammar) (defs : Definitions) (src : Text) (result : Except Fault Reply) : Prop :=
  ∃ limit, g.apply defs limit src = .ofExcept result

variable {g h : Grammar} {defs : Definitions} {src rest : Text} {v : Value}
  {result result' : Except Fault Reply}

theorem growsTo_apply (g : Grammar) (defs : Definitions) {limit limit' : Nat}
    (hlimit : limit ≤ limit') : Parser.GrowsTo (g.apply defs limit) (g.apply defs limit') :=
  growsTo_run g (defs.growsTo_context hlimit)

theorem ComesTo.exists_bound (hg : g.ComesTo defs src result) :
    ∃ bound, ∀ limit, bound ≤ limit → g.apply defs limit src = .ofExcept result := by
  obtain ⟨bound, hbound⟩ := hg
  exact ⟨bound, fun limit hlimit => (growsTo_apply g defs hlimit src).eq_ofExcept hbound⟩

theorem ComesTo.unique (hg : g.ComesTo defs src result) (hg' : g.ComesTo defs src result') :
    result = result' := by
  obtain ⟨bound, hbound⟩ := hg.exists_bound
  obtain ⟨bound', hbound'⟩ := hg'.exists_bound
  have hsame := hbound (max bound bound') (Nat.le_max_left _ _)
  rw [hbound' (max bound bound') (Nat.le_max_right _ _)] at hsame
  exact (Outcome.ofExcept_injective hsame).symm

theorem ComesTo.sequence_of_failure {f : Failure}
    (hg : g.ComesTo defs src (.ok (.success v rest)))
    (hh : h.ComesTo defs rest (.ok (.failure f))) :
    (sequence [g, h]).ComesTo defs src (.ok (.failure f)) := by
  obtain ⟨bound, hbound⟩ := hg.exists_bound
  obtain ⟨bound', hbound'⟩ := hh.exists_bound
  refine ⟨max bound bound', ?_⟩
  have hfirst := hbound (max bound bound') (Nat.le_max_left _ _)
  have hsecond := hbound' (max bound bound') (Nat.le_max_right _ _)
  simp only [apply] at hfirst hsecond
  simp [apply, run, runAll, Parser.sequence, Parser.collect, hfirst, hsecond]

end Grammar

end Descent
