import Descent.Proofs.Grammar.Everywhere
import Descent.Proofs.Parser.Limit

/-!
# Grammars under larger limits

A grammar that returns a reply under some limit returns the same reply under every larger one, so
the reply of a grammar can be spoken of without a limit.  As with suffixes, the fact about the
combinators is lifted by induction over the grammar and on the depth of the references.
-/

namespace Descent

/-- A context in which references go deeper and repetitions further. -/
structure Context.GrowsTo (ctx ctx' : Context) : Prop where
  limit_le : ctx.limit ≤ ctx'.limit
  resolve : ∀ name, Parser.GrowsTo (ctx.resolve name) (ctx'.resolve name)
  self : Parser.GrowsTo ctx.self ctx'.self

theorem Context.exists_growsTo (ctx : Context) (n : Nat) :
    ∃ ctx', ctx.GrowsTo ctx' ∧ n ≤ ctx'.limit :=
  ⟨{ ctx with limit := max ctx.limit n }, ⟨Nat.le_max_left _ _, fun _ => .refl _, .refl _⟩,
    Nat.le_max_right _ _⟩

theorem Parser.GrowsTo.onOutput {p q : Parser} (h : p.GrowsTo q) (v : Value) :
    (p.onOutput v).GrowsTo (q.onOutput v) := by
  cases v with
  | text t => exact (h.parse t).bind fun _ => .refl _
  | _ => exact .refl _

namespace Grammar

theorem growsTo_run (g : Grammar) {ctx ctx' : Context} (h : ctx.GrowsTo ctx') :
    Parser.GrowsTo (g.run ctx) (g.run ctx') := by
  induction g generalizing ctx ctx' with
  | reference name => exact h.resolve name
  | self => exact h.self
  | recursive body ih =>
      apply Parser.growsTo_recursive _ h.limit_le
      intro p q hpq
      exact ih { h with self := hpq }
  | as g v ih => exact (ih h).as v
  | map g f ih => exact (ih h).map fun _ => .refl _
  | transform g f ih => exact (ih h).transform _
  | reparse g inner ih ih' => exact (ih h).map fun v => (ih' h).onOutput v
  | flatMap g f ih ihf => exact (ih h).flatMap fun v => ihf v h
  | oneOf gs ih =>
      simp only [run_oneOf]
      exact Parser.growsTo_oneOf fun g hg => ih g hg h
  | sequence gs ih =>
      simp only [run_sequence]
      exact Parser.growsTo_sequence fun g hg => ih g hg h
  | many g ih => exact (ih h).many h.limit_le
  | butNot g excluded name ih ih' => exact (ih h).butNot (ih' h) name
  | lookaheadNot g follower name ih ih' => exact (ih h).lookaheadNot (ih' h) name
  | expect g description ih => exact (ih h).expect description
  | _ => exact .refl _

end Grammar

namespace Definitions

variable {limit limit' : Nat}

theorem growsTo_meaning
    (defs : Definitions) (hlimit : limit ≤ limit') {depth depth' : Nat} (hdepth : depth ≤ depth')
    (name : Name) :
    Parser.GrowsTo (defs.meaning limit depth name) (defs.meaning limit' depth' name) := by
  induction depth generalizing depth' name with
  | zero => exact fun src => Outcome.exhausted_growsTo _
  | succ depth ih =>
      cases depth' with
      | zero => omega
      | succ depth' =>
          exact Grammar.growsTo_run _
            { limit_le := hlimit
              resolve := ih (by omega)
              self := .refl _ }

theorem growsTo_context (defs : Definitions) (hlimit : limit ≤ limit') :
    (defs.context limit).GrowsTo (defs.context limit') where
  limit_le := hlimit
  resolve := defs.growsTo_meaning hlimit hlimit
  self := .refl _

theorem exists_growsTo_context (defs : Definitions) (limit depth : Nat) :
    ∃ limit', Context.GrowsTo { limit, resolve := defs.meaning limit depth }
      (defs.context limit') :=
  ⟨max limit depth, Nat.le_max_left _ _,
    defs.growsTo_meaning (Nat.le_max_left _ _) (Nat.le_max_right _ _), .refl _⟩

end Definitions

namespace Grammar

variable {g : Grammar} {defs : Definitions} {limit limit' : Nat} {src : Text}

/-- A larger limit does not change a reply. -/
theorem apply_eq_of_le
    {r : Reply} (h : g.apply defs limit src = .returned r) (hlimit : limit ≤ limit') :
    g.apply defs limit' src = .returned r :=
  (growsTo_run g (defs.growsTo_context hlimit) src).eq_returned h

theorem parse_eq_of_le
    {verdict : Verdict} (h : (g.apply defs limit).parse src = .returned verdict)
    (hlimit : limit ≤ limit') :
    (g.apply defs limit').parse src = .returned verdict := by
  have hgrows : Parser.GrowsTo (g.apply defs limit) (g.apply defs limit') :=
    growsTo_run g (defs.growsTo_context hlimit)
  exact (hgrows.parse src).eq_returned h

/-- A limit that suffices for a text gives the verdict that any other limit gives. -/
theorem parse_eq_of_ends
    {verdict : Verdict} (h : (g.apply defs limit).parse src = .returned verdict)
    (hends : (g.apply defs limit').parse src ≠ .exhausted) :
    (g.apply defs limit').parse src = .returned verdict := by
  have hgrows : Parser.GrowsTo (g.apply defs limit') (g.apply defs (max limit limit')) :=
    growsTo_run g (defs.growsTo_context (Nat.le_max_right limit limit'))
  rcases hgrows.parse src with hexhausted | hsame
  · exact absurd hexhausted hends
  · rw [hsame]
    exact parse_eq_of_le h (Nat.le_max_left limit limit')

end Grammar

end Descent
