import Descent.Proofs.Grammar.Agreement
import Descent.Proofs.Grammar.Result
import Descent.Proofs.Parser.Choice

/-!
# Ordered choice

A choice is decided by its first alternative that does not fail, or by the last one if all others
fail.  The alternatives in front of that one have failed on the same text, and those behind it are
not applied.  To try one alternative and then the others is an associative operation, so
alternatives that stand next to each other may be put into a choice of their own, inside choices
that were made so and anywhere else in a grammar.  And what stands behind an alternative that never
fails may be left out.
-/

namespace Descent

namespace Parser

variable {p : Parser} {ps qs : List Parser} {src : Text}

/-- The reply of the first parser if it matches, and what the second one does otherwise. -/
def orElse (p q : Parser) : Parser := fun src => do
  match ← p src with
  | .success v rest => return .success v rest
  | .failure _ => q src

theorem orElse_assoc (p q r : Parser) : (p.orElse q).orElse r = p.orElse (q.orElse r) := by
  funext src
  simp only [orElse]
  cases p src with
  | returned reply => cases reply <;> rfl
  | raised fault => rfl
  | exhausted => rfl

theorem orElse_of_not_failure (h : ∀ f, p src ≠ .returned (.failure f)) (q : Parser) :
    p.orElse q src = p src := by
  unfold orElse
  cases hp : p src with
  | returned reply =>
      cases reply with
      | success v rest => rfl
      | failure f => exact absurd hp (h f)
  | raised fault => rfl
  | exhausted => rfl

theorem oneOf_cons (p : Parser) (hps : ps ≠ []) : oneOf (p :: ps) = p.orElse (oneOf ps) := by
  cases ps with
  | nil => contradiction
  | cons q ps => rfl

theorem oneOf_append (hps : ps ≠ []) (hqs : qs ≠ []) :
    oneOf (ps ++ qs) = (oneOf ps).orElse (oneOf qs) := by
  induction ps with
  | nil => contradiction
  | cons p ps ih =>
      by_cases hnil : ps = []
      · subst hnil
        exact oneOf_cons p hqs
      · have hmore : ps ++ qs ≠ [] := by simp [hnil]
        rw [List.cons_append, oneOf_cons p hmore, ih hnil, oneOf_cons p hnil, orElse_assoc]

theorem oneOf_oneOf_cons (hps : ps ≠ []) (qs : List Parser) :
    oneOf (oneOf ps :: qs) = oneOf (ps ++ qs) := by
  by_cases hqs : qs = []
  · subst hqs
    rw [List.append_nil]
    rfl
  · rw [oneOf_cons _ hqs, oneOf_append hps hqs]

/-- Alternatives that stand next to each other may be put into a choice of their own. -/
theorem oneOf_regroup (earlier : List Parser) (hps : ps ≠ []) (later : List Parser) :
    oneOf (earlier ++ oneOf ps :: later) = oneOf (earlier ++ ps ++ later) := by
  by_cases hearlier : earlier = []
  · subst hearlier
    exact oneOf_oneOf_cons hps later
  · have hmore : ps ++ later ≠ [] := by simp [hps]
    rw [oneOf_append hearlier (List.cons_ne_nil _ _), oneOf_oneOf_cons hps, List.append_assoc,
      oneOf_append hearlier hmore]

/-! ### The alternative that decides -/

theorem oneOf_cons_of_not_failure (h : ∀ f, p src ≠ .returned (.failure f)) (ps : List Parser) :
    oneOf (p :: ps) src = p src := by
  by_cases hps : ps = []
  · subst hps
    rfl
  · rw [oneOf_cons p hps, orElse_of_not_failure h]

theorem oneOf_of_decided {earlier later : List Parser}
    (hearlier : ∀ q ∈ earlier, ∃ f, q src = .returned (.failure f))
    (hp : (∀ f, p src ≠ .returned (.failure f)) ∨ later = []) :
    oneOf (earlier ++ p :: later) src = p src := by
  rw [oneOf_append_of_failures hearlier]
  rcases hp with hp | rfl
  · exact oneOf_cons_of_not_failure hp later
  · rfl

theorem exists_decided (hps : ps ≠ []) (src : Text) :
    ∃ earlier p later, ps = earlier ++ p :: later ∧
      (∀ q ∈ earlier, ∃ f, q src = .returned (.failure f)) ∧
      ((∀ f, p src ≠ .returned (.failure f)) ∨ later = []) := by
  induction ps with
  | nil => contradiction
  | cons p ps ih =>
      by_cases hp : ∃ f, p src = .returned (.failure f)
      · by_cases hnil : ps = []
        · subst hnil
          exact ⟨[], p, [], rfl, by simp, .inr rfl⟩
        · obtain ⟨earlier, q, later, rfl, hearlier, hq⟩ := ih hnil
          refine ⟨p :: earlier, q, later, rfl, ?_, hq⟩
          intro q' hq'
          rcases List.mem_cons.mp hq' with rfl | hmem
          · exact hp
          · exact hearlier q' hmem
      · exact ⟨[], p, ps, rfl, by simp, .inl fun f hf => hp ⟨f, hf⟩⟩

/-- Behind an alternative that does not fail, nothing is applied. -/
theorem oneOf_append_of_not_failure
    (hp : p ∈ ps) (h : ∀ f, p src ≠ .returned (.failure f)) (qs : List Parser) :
    oneOf (ps ++ qs) src = oneOf ps src := by
  obtain ⟨earlier, q, later, rfl, hearlier, hq⟩ := exists_decided (List.ne_nil_of_mem hp) src
  have hdecides : ∀ f, q src ≠ .returned (.failure f) := by
    rcases hq with hq | rfl
    · exact hq
    · rcases List.mem_append.mp hp with hmem | hmem
      · obtain ⟨f, hf⟩ := hearlier p hmem
        exact absurd hf (h f)
      · obtain rfl : p = q := by simpa using hmem
        exact h
  rw [List.append_assoc, List.cons_append, oneOf_of_decided hearlier (.inl hdecides),
    oneOf_of_decided hearlier hq]

end Parser

namespace Grammar

variable {g h : Grammar} {gs : List Grammar} {defs : Definitions} {src : Text}
  {result : Except Fault Reply}

/-! ### What a choice comes to -/

theorem exists_bound_of_failures
    (h : ∀ g ∈ gs, ∃ f, g.ComesTo defs src (.ok (.failure f))) :
    ∃ bound, ∀ limit, bound ≤ limit →
      ∀ g ∈ gs, ∃ f, g.apply defs limit src = .returned (.failure f) := by
  induction gs with
  | nil => exact ⟨0, by simp⟩
  | cons g gs ih =>
      obtain ⟨f, hf⟩ := h g (by simp)
      obtain ⟨bound, hbound⟩ := hf.exists_bound
      obtain ⟨bound', hbound'⟩ := ih fun g' hg' => h g' (List.mem_cons_of_mem g hg')
      refine ⟨max bound bound', fun limit hlimit g' hg' => ?_⟩
      rcases List.mem_cons.mp hg' with rfl | hmem
      · exact ⟨f, hbound limit (le_of_max_le_left hlimit)⟩
      · exact hbound' limit (le_of_max_le_right hlimit) g' hmem

theorem comesTo_oneOf_iff (hgs : gs ≠ []) :
    (oneOf gs).ComesTo defs src result ↔
      ∃ earlier g later, gs = earlier ++ g :: later ∧
        (∀ h ∈ earlier, ∃ f, h.ComesTo defs src (.ok (.failure f))) ∧
        g.ComesTo defs src result ∧ ((∀ f, result ≠ .ok (.failure f)) ∨ later = []) := by
  constructor
  · rintro ⟨limit, hlimit⟩
    have hne : gs.map (run · (defs.context limit)) ≠ [] := by simpa using hgs
    obtain ⟨ps, p, qs, hsplit, hps, hp⟩ := Parser.exists_decided hne src
    rw [apply, run_oneOf, hsplit, Parser.oneOf_of_decided hps hp] at hlimit
    obtain ⟨earlier, others, rfl, rfl, hothers⟩ := List.map_eq_append_iff.mp hsplit
    obtain ⟨g, later, rfl, rfl, rfl⟩ := List.map_eq_cons_iff.mp hothers
    refine ⟨earlier, g, later, rfl, ?_, ⟨limit, hlimit⟩, ?_⟩
    · intro h hh
      obtain ⟨f, hf⟩ := hps _ (List.mem_map_of_mem hh)
      exact ⟨f, limit, hf⟩
    · refine hp.imp ?_ (by simp)
      rintro hnot f rfl
      exact hnot f hlimit
  · rintro ⟨earlier, g, later, rfl, hearlier, hg, hresult⟩
    obtain ⟨bound, hbound⟩ := exists_bound_of_failures hearlier
    obtain ⟨bound', hbound'⟩ := hg.exists_bound
    have hfails := hbound (max bound bound') (Nat.le_max_left _ _)
    have hdecides := hbound' (max bound bound') (Nat.le_max_right _ _)
    refine ⟨max bound bound', ?_⟩
    rw [← hdecides]
    simp only [apply, run_oneOf, List.map_append, List.map_cons]
    apply Parser.oneOf_of_decided
    · simpa [apply] using hfails
    · refine hresult.imp ?_ (by simp)
      intro hnot f hf
      have hsame : Outcome.ofExcept result = Outcome.ofExcept (.ok (.failure f)) :=
        hdecides.symm.trans hf
      exact hnot f (Outcome.ofExcept_injective hsame)

/-! ### Regrouping -/

/-- The second grammar is the first one after alternatives of its choices have been put into choices
of their own: at least two alternatives that stand next to each other, but not all of a choice, as
often as one likes and anywhere inside the grammar. -/
inductive Regroups : Grammar → Grammar → Prop
  | none (g : Grammar) : Regroups g g
  | block (earlier block later : List Grammar) (hblock : 2 ≤ block.length)
      (hothers : earlier ++ later ≠ []) :
      Regroups (oneOf (earlier ++ block ++ later)) (oneOf (earlier ++ oneOf block :: later))
  | again {g h k : Grammar} : Regroups g h → Regroups h k → Regroups g k
  | recursive {g h : Grammar} : Regroups g h → Regroups g.recursive h.recursive
  | as {g h : Grammar} (v : Value) : Regroups g h → Regroups (g.as v) (h.as v)
  | map {g h : Grammar} (f : Value → Except Fault Value) :
      Regroups g h → Regroups (g.map f) (h.map f)
  | transform {g h : Grammar} (f : Value → Except Fault Value) :
      Regroups g h → Regroups (g.transform f) (h.transform f)
  | reparse {g h g' h' : Grammar} :
      Regroups g h → Regroups g' h' → Regroups (g.reparse g') (h.reparse h')
  | flatMap {g h : Grammar} {f f' : Value → Grammar} :
      Regroups g h → (∀ v, Regroups (f v) (f' v)) → Regroups (g.flatMap f) (h.flatMap f')
  | oneOf {g h : Grammar} (before after : List Grammar) : Regroups g h →
      Regroups (oneOf (before ++ g :: after)) (oneOf (before ++ h :: after))
  | sequence {g h : Grammar} (before after : List Grammar) : Regroups g h →
      Regroups (sequence (before ++ g :: after)) (sequence (before ++ h :: after))
  | many {g h : Grammar} : Regroups g h → Regroups g.many h.many
  | butNot {g h g' h' : Grammar} (name : Text) :
      Regroups g h → Regroups g' h' → Regroups (g.butNot g' name) (h.butNot h' name)
  | lookaheadNot {g h g' h' : Grammar} (name : Text) :
      Regroups g h → Regroups g' h' → Regroups (g.lookaheadNot g' name) (h.lookaheadNot h' name)
  | expect {g h : Grammar} (description : Text) :
      Regroups g h → Regroups (g.expect description) (h.expect description)

example : (oneOf [any, literal "a", nothing]).Regroups
    (oneOf [any, oneOf [literal "a", nothing]]) :=
  .block [any] [literal "a", nothing] [] (by decide) (by decide)

theorem Regroups.agrees (hg : g.Regroups h) : g.Agrees h := by
  induction hg with
  | none g => exact .refl g
  | block earlier block later hblock _ =>
      intro ctx
      have hne : block.map (run · ctx) ≠ [] := by
        rintro hnil
        simp [List.map_eq_nil_iff.mp hnil] at hblock
      simp only [run_oneOf, List.map_append, List.map_cons, Parser.oneOf_regroup _ hne]
  | again _ _ ih ih' => exact ih.trans ih'
  | recursive _ ih => exact ih.recursive
  | as v _ ih => exact ih.as v
  | map f _ ih => exact ih.map f
  | transform f _ ih => exact ih.transform f
  | reparse _ _ ih ih' => exact ih.reparse ih'
  | flatMap _ _ ih ih' => exact ih.flatMap ih'
  | oneOf before after _ ih => exact agrees_oneOf (forall₂_agrees_at before after ih)
  | sequence before after _ ih => exact agrees_sequence (forall₂_agrees_at before after ih)
  | many _ ih => exact ih.many
  | butNot name _ _ ih ih' => exact ih.butNot ih' name
  | lookaheadNot name _ _ ih ih' => exact ih.lookaheadNot ih' name
  | expect description _ ih => exact ih.expect description

end Grammar

/-- Definitions of the same names, in which grammars have been regrouped. -/
inductive Definitions.Regroup : Definitions → Definitions → Prop
  | nil : Regroup [] []
  | same {defs defs' : Definitions} (name : Name) (p : Part) :
      Regroup defs defs' → Regroup ((name, p) :: defs) ((name, p) :: defs')
  | grammar {defs defs' : Definitions} {g h : Grammar} (name : Name) :
      g.Regroups h → Regroup defs defs' →
        Regroup ((name, .grammar g) :: defs) ((name, .grammar h) :: defs')

theorem Definitions.Regroup.agree {defs defs' : Definitions} (h : defs.Regroup defs') :
    defs.Agree defs' := by
  induction h with
  | nil => exact .nil
  | same name p _ ih => exact .cons ⟨rfl, .refl _⟩ ih
  | grammar name hg _ ih => exact .cons ⟨rfl, hg.agrees⟩ ih

namespace Grammar

/-! ### Alternatives that are never reached -/

def NeverFailsIn (g : Grammar) (ctx : Context) : Prop :=
  ∀ src f, g.run ctx src ≠ .returned (.failure f)

theorem neverFailsIn_nothing (ctx : Context) : nothing.NeverFailsIn ctx := by
  intro src f
  simp [run, Parser.nothing]

theorem neverFailsIn_optional (g : Grammar) (ctx : Context) : g.optional.NeverFailsIn ctx := by
  intro src f hfail
  have hreply : Parser.oneOf [g.run ctx, Parser.nothing] src = .returned (.failure f) := hfail
  cases hg : g.run ctx src with
  | returned r =>
      cases r with
      | success v rest => simp [Parser.oneOf, hg] at hreply
      | failure e => simp [Parser.oneOf, hg, Parser.nothing] at hreply
  | raised fault => simp [Parser.oneOf, hg] at hreply
  | exhausted => simp [Parser.oneOf, hg] at hreply

theorem neverFailsIn_many (g : Grammar) (ctx : Context) : g.many.NeverFailsIn ctx := by
  intro src f hfail
  obtain ⟨x, -, hreply⟩ := Outcome.bind_eq_returned_iff.mp hfail
  simp at hreply

theorem run_oneOf_append_eq {ctx : Context} (hg : g ∈ gs)
    (h : ∀ f, g.run ctx src ≠ .returned (.failure f)) (hs hs' : List Grammar) :
    (oneOf (gs ++ hs)).run ctx src = (oneOf (gs ++ hs')).run ctx src := by
  have hmem : g.run ctx ∈ gs.map (run · ctx) := List.mem_map_of_mem hg
  simp only [run_oneOf, List.map_append]
  rw [Parser.oneOf_append_of_not_failure hmem h, Parser.oneOf_append_of_not_failure hmem h]

/-- A choice between at least two alternatives comes to what its first alternative comes to that
does not fail, or the last one if all others fail.  The alternatives in front of that one fail on
the same text, and what stands behind one that does not fail makes no difference, even if it raises
or does not end.  So alternatives may be regrouped anywhere in a grammar and in the definitions to
which it refers, and those behind one that never fails may be left out, as long as two remain. -/
theorem oneOf_is_ordered_and_regroups :
    (∀ gs : List Grammar, 2 ≤ gs.length →
      Part.oneOf (gs.map .grammar) = .ok (oneOf gs) ∧
      ∀ defs src result, (oneOf gs).ComesTo defs src result ↔
        ∃ earlier g later, gs = earlier ++ g :: later ∧
          (∀ h ∈ earlier, ∃ f, h.ComesTo defs src (.ok (.failure f))) ∧
          g.ComesTo defs src result ∧ ((∀ f, result ≠ .ok (.failure f)) ∨ later = [])) ∧
    (∀ gs ctx src, (∃ g ∈ gs, ∀ f, g.run ctx src ≠ .returned (.failure f)) →
      ∀ others others', (oneOf (gs ++ others)).run ctx src = (oneOf (gs ++ others')).run ctx src) ∧
    (∀ (g h : Grammar) (defs defs' : Definitions), g.Regroups h → defs.Regroup defs' →
      ∀ limit src, g.apply defs limit src = h.apply defs' limit src) ∧
    (∀ earlier (g : Grammar) later left ctx, g.NeverFailsIn ctx → left.Sublist later →
      2 ≤ (earlier ++ g :: left).length →
        ∃ whole pruned, Part.oneOf ((earlier ++ g :: later).map .grammar) = .ok whole ∧
          Part.oneOf ((earlier ++ g :: left).map .grammar) = .ok pruned ∧
          whole.run ctx = pruned.run ctx) ∧
    ∀ (g : Grammar) ctx,
      g.optional.NeverFailsIn ctx ∧ g.many.NeverFailsIn ctx ∧ nothing.NeverFailsIn ctx := by
  refine ⟨?_, ?_, ?_, ?_, ?_⟩
  · intro gs hgs
    have hne : gs ≠ [] := by
      rintro rfl
      simp at hgs
    exact ⟨oneOf_map_grammar hgs, fun defs src result => comesTo_oneOf_iff hne⟩
  · rintro gs ctx src ⟨g, hg, hnot⟩ others others'
    exact run_oneOf_append_eq hg hnot others others'
  · intro g h defs defs' hg hdefs limit src
    rw [hg.agrees.apply_eq_of_agree hdefs.agree]
  · intro earlier g later left ctx hg hleft htwo
    have hwhole : 2 ≤ (earlier ++ g :: later).length := by
      have hle := hleft.length_le
      simp only [List.length_append, List.length_cons] at htwo ⊢
      omega
    refine ⟨_, _, oneOf_map_grammar hwhole, oneOf_map_grammar htwo, ?_⟩
    funext src
    rw [List.append_cons earlier g later, List.append_cons earlier g left]
    exact run_oneOf_append_eq (by simp) (hg src) later left
  · intro g ctx
    exact ⟨neverFailsIn_optional g ctx, neverFailsIn_many g ctx, neverFailsIn_nothing ctx⟩

end Grammar

end Descent
