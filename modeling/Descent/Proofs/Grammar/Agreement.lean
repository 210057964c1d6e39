import Descent.Grammar.Definitions
import Mathlib.Data.List.Forall2

/-!
# Grammars that agree

Two grammars agree if no context tells them apart: they have the same outcome on every text, under
every limit and whatever the names in them stand for.  Inside a larger grammar they may be
exchanged, and so they may inside the definitions to which a grammar refers.  A grammar that is
built from parts may also be refused, so two ways of building one are alike if both are refused
with the same fault or both build grammars that agree.
-/

namespace Descent

namespace Grammar

/-- Two grammars that do the same in every context. -/
def Agrees (g h : Grammar) : Prop := ∀ ctx, g.run ctx = h.run ctx

variable {g g' h h' : Grammar}

theorem Agrees.refl (g : Grammar) : g.Agrees g := fun _ => rfl

theorem Agrees.trans {k : Grammar} (hg : g.Agrees h) (hh : h.Agrees k) : g.Agrees k :=
  fun ctx => (hg ctx).trans (hh ctx)

theorem Agrees.apply_eq (hg : g.Agrees h) (defs : Definitions) (limit : Nat) :
    g.apply defs limit = h.apply defs limit :=
  hg (defs.context limit)

/-! ### Exchange inside a grammar -/

theorem Agrees.recursive (hg : g.Agrees h) : g.recursive.Agrees h.recursive := by
  intro ctx
  simp only [run, hg _]

theorem Agrees.as (hg : g.Agrees h) (v : Value) : (g.as v).Agrees (h.as v) := by
  intro ctx
  simp only [run, hg ctx]

theorem Agrees.map (hg : g.Agrees h) (f : Value → Except Fault Value) :
    (g.map f).Agrees (h.map f) := by
  intro ctx
  simp only [run, hg ctx]

theorem Agrees.transform (hg : g.Agrees h) (f : Value → Except Fault Value) :
    (g.transform f).Agrees (h.transform f) := by
  intro ctx
  simp only [run, hg ctx]

theorem Agrees.reparse (hg : g.Agrees h) (hg' : g'.Agrees h') :
    (g.reparse g').Agrees (h.reparse h') := by
  intro ctx
  simp only [run, hg ctx, hg' ctx]

theorem Agrees.flatMap {f f' : Value → Grammar} (hg : g.Agrees h)
    (hf : ∀ v, (f v).Agrees (f' v)) : (g.flatMap f).Agrees (h.flatMap f') := by
  intro ctx
  simp only [run, hg ctx, hf _ ctx]

theorem runAll_eq_of_agrees {gs hs : List Grammar} (h : List.Forall₂ Agrees gs hs)
    (ctx : Context) : runAll gs ctx = runAll hs ctx := by
  induction h with
  | nil => rfl
  | cons hfirst _ ih => simp only [runAll, hfirst ctx, ih]

theorem agrees_oneOf {gs hs : List Grammar} (h : List.Forall₂ Agrees gs hs) :
    (oneOf gs).Agrees (oneOf hs) := by
  intro ctx
  simp only [run, runAll_eq_of_agrees h ctx]

theorem agrees_sequence {gs hs : List Grammar} (h : List.Forall₂ Agrees gs hs) :
    (sequence gs).Agrees (sequence hs) := by
  intro ctx
  simp only [run, runAll_eq_of_agrees h ctx]

theorem Agrees.many (hg : g.Agrees h) : g.many.Agrees h.many := by
  intro ctx
  simp only [run, hg ctx]

theorem Agrees.butNot (hg : g.Agrees h) (hg' : g'.Agrees h') (name : Text) :
    (g.butNot g' name).Agrees (h.butNot h' name) := by
  intro ctx
  simp only [run, hg ctx, hg' ctx]

theorem Agrees.lookaheadNot (hg : g.Agrees h) (hg' : g'.Agrees h') (name : Text) :
    (g.lookaheadNot g' name).Agrees (h.lookaheadNot h' name) := by
  intro ctx
  simp only [run, hg ctx, hg' ctx]

theorem Agrees.expect (hg : g.Agrees h) (description : Text) :
    (g.expect description).Agrees (h.expect description) := by
  intro ctx
  simp only [run, hg ctx]

/-- The exchange of one grammar in a list leaves the others as they are. -/
theorem forall₂_agrees_at (before after : List Grammar) (hg : g.Agrees h) :
    List.Forall₂ Agrees (before ++ g :: after) (before ++ h :: after) := by
  have hsame (gs : List Grammar) : List.Forall₂ Agrees gs gs :=
    List.forall₂_same.mpr fun g _ => .refl g
  exact List.rel_append (hsame before) (.cons hg (hsame after))

/-! ### Grammars as parts -/

theorem toGrammars_map_grammar (gs : List Grammar) :
    Part.toGrammars (gs.map .grammar) = .ok gs := by
  induction gs with
  | nil => rfl
  | cons g gs ih =>
      simp only [List.map_cons, Part.toGrammars, ih]
      rfl

theorem atLeastTwo_map_grammar {gs : List Grammar} (h : 2 ≤ gs.length) :
    Part.atLeastTwo (gs.map .grammar) = .ok gs := by
  have hmany : ¬ (gs.map Part.grammar).length < 2 := by
    rw [List.length_map]
    omega
  rw [Part.atLeastTwo, if_neg hmany, toGrammars_map_grammar]

theorem oneOf_map_grammar {gs : List Grammar} (h : 2 ≤ gs.length) :
    Part.oneOf (gs.map .grammar) = .ok (oneOf gs) := by
  rw [Part.oneOf, atLeastTwo_map_grammar h]
  rfl

theorem sequence_map_grammar {gs : List Grammar} (h : 2 ≤ gs.length) :
    Part.sequence (gs.map .grammar) = .ok (sequence gs) := by
  rw [Part.sequence, atLeastTwo_map_grammar h]
  rfl

/-- Two ways of building a grammar that raise the same fault, or build grammars that agree. -/
inductive BuiltAlike : Except Fault Grammar → Except Fault Grammar → Prop
  | refused (fault : Fault) : BuiltAlike (.error fault) (.error fault)
  | built {g h : Grammar} : g.Agrees h → BuiltAlike (.ok g) (.ok h)

end Grammar

/-! ### Exchange inside definitions -/

/-- Parts that are refused alike or stand for grammars that agree. -/
def Part.Agrees (p q : Part) : Prop := (found (.ok p)).Agrees (found (.ok q))

namespace Definitions

/-- The same names in the same order, with parts that agree. -/
def Agree (defs defs' : Definitions) : Prop :=
  List.Forall₂ (fun d d' => d.1 = d'.1 ∧ d.2.Agrees d'.2) defs defs'

variable {defs defs' : Definitions}

/-- What two lists of definitions have under a name, if they are related part by part. -/
theorem lookup_rel {R : Part → Part → Prop}
    (h : List.Forall₂ (fun d d' => d.1 = d'.1 ∧ R d.2 d'.2) defs defs') (name : Name) :
    Option.Rel R (defs.lookup name) (defs'.lookup name) := by
  induction h with
  | nil => exact .none
  | @cons d d' ds ds' hd hds ih =>
      obtain ⟨hname, hparts⟩ := hd
      rw [List.lookup_cons, List.lookup_cons, hname]
      cases name == d'.1 with
      | true => exact .some hparts
      | false => exact ih

theorem Agree.find (h : defs.Agree defs') (name : Name) :
    (Part.found (defs.find name)).Agrees (Part.found (defs'.find name)) := by
  have hlookup := lookup_rel (List.forall₂_reverse_iff.mpr h) name
  unfold Definitions.find
  generalize defs.reverse.lookup name = found at hlookup ⊢
  generalize defs'.reverse.lookup name = found' at hlookup ⊢
  cases hlookup with
  | none => exact .refl _
  | some hagree => exact hagree

/-- By induction on the depth, in which references one less deep have the same meaning. -/
theorem Agree.meaning_eq (h : defs.Agree defs') (limit depth : Nat) :
    defs.meaning limit depth = defs'.meaning limit depth := by
  induction depth with
  | zero => rfl
  | succ depth ih =>
      funext name src
      simp only [meaning, ih, h.find name _]

theorem Agree.context_eq (h : defs.Agree defs') (limit : Nat) :
    defs.context limit = defs'.context limit := by
  simp only [context, h.meaning_eq limit limit]

end Definitions

theorem Grammar.Agrees.apply_eq_of_agree {g h : Grammar} {defs defs' : Definitions}
    (hg : g.Agrees h) (hdefs : defs.Agree defs') (limit : Nat) :
    g.apply defs limit = h.apply defs' limit := by
  rw [Grammar.apply, Grammar.apply, hdefs.context_eq limit, hg _]

end Descent
