import Descent.Grammar.Definitions

/-!
# Conditions on all parts of a grammar

A condition on grammars may be asked of a grammar and of all grammars inside it.  A grammar that
refers to names is only as good as what the names are defined as, so a condition throughout a
grammar is asked of the definitions as well.
-/

namespace Descent

namespace Grammar

/-- Induction over grammars, with a hypothesis for each grammar in a list and for each grammar
that a function of the output may find. -/
@[elab_as_elim, induction_eliminator]
theorem induction {motive : Grammar → Prop}
    (any : motive .any)
    (literal : ∀ t, motive (.literal t))
    (nothing : motive .nothing)
    (pattern : ∀ p, motive (.pattern p))
    (raise : ∀ fault, motive (.raise fault))
    (custom : ∀ p, motive (.custom p))
    (reference : ∀ name, motive (.reference name))
    (self : motive .self)
    (recursive : ∀ body, motive body → motive (.recursive body))
    (as : ∀ g v, motive g → motive (.as g v))
    (map : ∀ g f, motive g → motive (.map g f))
    (transform : ∀ g f, motive g → motive (.transform g f))
    (reparse : ∀ g inner, motive g → motive inner → motive (.reparse g inner))
    (flatMap : ∀ g f, motive g → (∀ v, motive (f v)) → motive (.flatMap g f))
    (oneOf : ∀ gs, (∀ g ∈ gs, motive g) → motive (.oneOf gs))
    (sequence : ∀ gs, (∀ g ∈ gs, motive g) → motive (.sequence gs))
    (many : ∀ g, motive g → motive (.many g))
    (butNot : ∀ g excluded name, motive g → motive excluded →
      motive (.butNot g excluded name))
    (lookaheadNot : ∀ g follower name, motive g → motive follower →
      motive (.lookaheadNot g follower name))
    (expect : ∀ g description, motive g → motive (.expect g description))
    (g : Grammar) : motive g := by
  apply @Grammar.rec motive fun gs => ∀ g ∈ gs, motive g
  case nil => simp
  case cons =>
    intro g gs hg hgs g' hg'
    rcases List.mem_cons.mp hg' with rfl | hmem
    · exact hg
    · exact hgs g' hmem
  all_goals assumption

variable {P : Grammar → Prop}

mutual

/-- Whether a condition holds of a grammar and of every grammar inside it.  What a function of
the output finds is inside.  What a reparse applies to the output belongs to its function and is
not. -/
@[simp]
def Everywhere (P : Grammar → Prop) : Grammar → Prop
  | .any => P .any
  | .literal t => P (.literal t)
  | .nothing => P .nothing
  | .pattern p => P (.pattern p)
  | .raise fault => P (.raise fault)
  | .custom p => P (.custom p)
  | .reference name => P (.reference name)
  | .self => P .self
  | .recursive body => P (.recursive body) ∧ Everywhere P body
  | .as g v => P (.as g v) ∧ Everywhere P g
  | .map g f => P (.map g f) ∧ Everywhere P g
  | .transform g f => P (.transform g f) ∧ Everywhere P g
  | .reparse g inner => P (.reparse g inner) ∧ Everywhere P g
  | .flatMap g f => P (.flatMap g f) ∧ Everywhere P g ∧ ∀ v, Everywhere P (f v)
  | .oneOf gs => P (.oneOf gs) ∧ EverywhereAll P gs
  | .sequence gs => P (.sequence gs) ∧ EverywhereAll P gs
  | .many g => P (.many g) ∧ Everywhere P g
  | .butNot g excluded name =>
      P (.butNot g excluded name) ∧ Everywhere P g ∧ Everywhere P excluded
  | .lookaheadNot g follower name =>
      P (.lookaheadNot g follower name) ∧ Everywhere P g ∧ Everywhere P follower
  | .expect g description => P (.expect g description) ∧ Everywhere P g

@[simp]
def EverywhereAll (P : Grammar → Prop) : List Grammar → Prop
  | [] => True
  | g :: gs => Everywhere P g ∧ EverywhereAll P gs

end

theorem everywhereAll_iff (gs : List Grammar) :
    EverywhereAll P gs ↔ ∀ g ∈ gs, g.Everywhere P := by
  induction gs with
  | nil => simp [EverywhereAll]
  | cons g gs ih => simp [EverywhereAll, ih]

theorem Everywhere.mono
    {P Q : Grammar → Prop} (hPQ : ∀ g, P g → Q g) {g : Grammar} (h : g.Everywhere P) :
    g.Everywhere Q := by
  induction g with
  | recursive body ih => exact ⟨hPQ _ h.1, ih h.2⟩
  | as g v ih => exact ⟨hPQ _ h.1, ih h.2⟩
  | map g f ih => exact ⟨hPQ _ h.1, ih h.2⟩
  | transform g f ih => exact ⟨hPQ _ h.1, ih h.2⟩
  | reparse g inner ih _ => exact ⟨hPQ _ h.1, ih h.2⟩
  | flatMap g f ihg ihf => exact ⟨hPQ _ h.1, ihg h.2.1, fun v => ihf v (h.2.2 v)⟩
  | oneOf gs ih =>
      refine ⟨hPQ _ h.1, (everywhereAll_iff gs).mpr fun g hg => ?_⟩
      exact ih g hg ((everywhereAll_iff gs).mp h.2 g hg)
  | sequence gs ih =>
      refine ⟨hPQ _ h.1, (everywhereAll_iff gs).mpr fun g hg => ?_⟩
      exact ih g hg ((everywhereAll_iff gs).mp h.2 g hg)
  | many g ih => exact ⟨hPQ _ h.1, ih h.2⟩
  | butNot g excluded name ihg ihe => exact ⟨hPQ _ h.1, ihg h.2.1, ihe h.2.2⟩
  | lookaheadNot g follower name ihg ihf => exact ⟨hPQ _ h.1, ihg h.2.1, ihf h.2.2⟩
  | expect g description ih => exact ⟨hPQ _ h.1, ih h.2⟩
  | _ => exact hPQ _ h

end Grammar

namespace Definitions

variable {P : Grammar → Prop} {defs : Definitions}

/-- Whether a condition holds everywhere in a grammar and in whatever a name is defined as. -/
def Throughout (defs : Definitions) (P : Grammar → Prop) (g : Grammar) : Prop :=
  g.Everywhere P ∧ ∀ name, (Part.found (defs.find name)).Everywhere P

theorem mem_of_find_eq_ok {name : Name} {part : Part} (h : defs.find name = .ok part) :
    (name, part) ∈ defs := by
  unfold find at h
  cases hlookup : defs.reverse.lookup name with
  | none => simp [hlookup] at h
  | some part' =>
      obtain rfl : part' = part := by simpa [hlookup] using h
      obtain ⟨before, after, heq, -⟩ := List.lookup_eq_some_iff.mp hlookup
      rw [← List.mem_reverse, heq]
      simp

theorem everywhere_found
    (hraise : ∀ fault, P (.raise fault))
    (hdefs : ∀ d ∈ defs, (Part.found (.ok d.2)).Everywhere P) (name : Name) :
    (Part.found (defs.find name)).Everywhere P := by
  cases hfind : defs.find name with
  | error fault => exact hraise fault
  | ok part => exact hdefs (name, part) (mem_of_find_eq_ok hfind)

end Definitions

end Descent
