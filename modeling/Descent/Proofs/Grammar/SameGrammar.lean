import Descent.Blueprint
import Descent.Proofs.Grammar.Agreement

/-!
# Parts that stand for the same grammar

Every constructor makes use of its parts only by way of the grammars that they stand for.  So it
makes no difference to what is built if parts are exchanged for others with the same grammar: the
same fault is raised, or the very same grammar comes out.  What is found only when a grammar is
applied, by a function of an output, is turned into a grammar there and then, and nothing else is
done with it, so it may be exchanged as well.
-/

namespace Descent

/-- Two computations that raise the same fault or have related results. -/
inductive Alike {α : Type} (R : α → α → Prop) : Except Fault α → Except Fault α → Prop
  | refused (fault : Fault) : Alike R (.error fault) (.error fault)
  | built {a b : α} (h : R a b) : Alike R (.ok a) (.ok b)

section Alike

variable {α β : Type} {R : α → α → Prop} {Q : β → β → Prop}

theorem alike_refl (hR : ∀ a, R a a) (x : Except Fault α) : Alike R x x := by
  cases x with
  | error fault => exact .refused fault
  | ok a => exact .built (hR a)

theorem Alike.bind_of_eq {x y : Except Fault α} {k l : α → Except Fault β} (h : Alike R x y)
    (hkl : ∀ a b, x = .ok a → y = .ok b → R a b → Alike Q (k a) (l b)) :
    Alike Q (x >>= k) (y >>= l) := by
  cases h with
  | refused fault => exact .refused fault
  | built hab => exact hkl _ _ rfl rfl hab

theorem Alike.bind {x y : Except Fault α} {k l : α → Except Fault β} (h : Alike R x y)
    (hkl : ∀ a b, R a b → Alike Q (k a) (l b)) : Alike Q (x >>= k) (y >>= l) :=
  h.bind_of_eq fun a b _ _ => hkl a b

end Alike

namespace Part

/-- Parts that stand for the same grammar or are refused alike. -/
def SameGrammar (p q : Part) : Prop := p.toGrammar = q.toGrammar

variable {p q : Part} {ps qs : List Part} {x y : Except Fault Part}

theorem SameGrammar.eq (h : p.SameGrammar q) : p.toGrammar = q.toGrammar := h

theorem SameGrammar.refl (p : Part) : p.SameGrammar p := rfl

theorem alike_same (x : Except Fault Part) : Alike SameGrammar x x := alike_refl SameGrammar.refl x

theorem SameGrammar.found_eq (h : p.SameGrammar q) : found (.ok p) = found (.ok q) := by
  have hbind : (Except.ok p : Except Fault Part).bind toGrammar =
      (Except.ok q : Except Fault Part).bind toGrammar := h
  rw [found, found, hbind]

theorem SameGrammar.agrees (h : p.SameGrammar q) : p.Agrees q := by
  rw [Agrees, h.found_eq]
  exact .refl _

theorem found_eq_of_alike (h : Alike SameGrammar x y) : found x = found y := by
  cases h with
  | refused fault => rfl
  | built hpq => exact hpq.found_eq

theorem toGrammars_eq_of_sameGrammar (h : List.Forall₂ SameGrammar ps qs) :
    toGrammars ps = toGrammars qs := by
  induction h with
  | nil => rfl
  | cons hpq _ ih => rw [toGrammars, toGrammars, hpq.eq, ih]

theorem atLeastTwo_eq_of_sameGrammar (h : List.Forall₂ SameGrammar ps qs) :
    atLeastTwo ps = atLeastTwo qs := by
  rw [atLeastTwo, atLeastTwo, h.length_eq, toGrammars_eq_of_sameGrammar h]

/-! ### Constructors -/

variable {x' y' : Except Fault Part} {xs ys : Except Fault (List Part)}

/-- A constructor that uses a part only by way of its grammar. -/
theorem alike_of_grammar (h : Alike SameGrammar x y)
    (k : Except Fault Grammar → Except Fault Part) :
    Alike SameGrammar (do k (← x).toGrammar) (do k (← y).toGrammar) := by
  apply h.bind
  intro p q hpq
  rw [hpq.eq]
  exact alike_same _

theorem alike_of_grammars (h : Alike SameGrammar x y) (h' : Alike SameGrammar x' y')
    (k : Except Fault Grammar → Except Fault Grammar → Except Fault Part) :
    Alike SameGrammar (do
      let p ← x
      let p' ← x'
      k p.toGrammar p'.toGrammar) (do
      let q ← y
      let q' ← y'
      k q.toGrammar q'.toGrammar) := by
  apply h.bind
  intro p q hpq
  rw [hpq.eq]
  exact alike_of_grammar h' (k q.toGrammar)

theorem alike_of_atLeastTwo (h : Alike (List.Forall₂ SameGrammar) xs ys)
    (k : Except Fault (List Grammar) → Except Fault Part) :
    Alike SameGrammar (do k (atLeastTwo (← xs))) (do k (atLeastTwo (← ys))) := by
  apply h.bind
  intro ps qs hpq
  rw [atLeastTwo_eq_of_sameGrammar hpq]
  exact alike_same _

theorem alike_reparse (h : Alike SameGrammar x y) (h' : Alike SameGrammar x' y') :
    Alike SameGrammar (do
      let p ← x
      let inner ← x'
      Blueprint.asPart (p.reparse inner)) (do
      let q ← y
      let inner ← y'
      Blueprint.asPart (q.reparse inner)) := by
  apply h.bind
  intro p q hpq
  apply h'.bind
  intro inner inner' hinner
  rw [Part.reparse, Part.reparse, hpq.eq, hinner.found_eq]
  exact alike_same _

theorem alike_flatMap {f f' : List Part → Value → Except Fault Part} (h : Alike SameGrammar x y)
    (hs : Alike (List.Forall₂ SameGrammar) xs ys)
    (hf : ∀ ps qs, xs = .ok ps → ys = .ok qs → ∀ v, Alike SameGrammar (f ps v) (f' qs v)) :
    Alike SameGrammar (do
      let p ← x
      let ps ← xs
      Blueprint.asPart (p.flatMap (f ps))) (do
      let q ← y
      let qs ← ys
      Blueprint.asPart (q.flatMap (f' qs))) := by
  apply h.bind
  intro p q hpq
  apply hs.bind_of_eq
  intro ps qs hps hqs _
  have hfound : (fun v => found (f ps v)) = fun v => found (f' qs v) :=
    funext fun v => found_eq_of_alike (hf ps qs hps hqs v)
  rw [Part.flatMap, Part.flatMap, hpq.eq, hfound]
  exact alike_same _

theorem alike_cons (h : Alike SameGrammar x y) (hs : Alike (List.Forall₂ SameGrammar) xs ys) :
    Alike (List.Forall₂ SameGrammar) (do
      let p ← x
      let ps ← xs
      return p :: ps) (do
      let q ← y
      let qs ← ys
      return q :: qs) := by
  apply h.bind
  intro p q hpq
  apply hs.bind
  intro ps qs hpsqs
  exact .built (.cons hpq hpsqs)

/-- A suitable part may be turned into its grammar at once. -/
theorem alike_toGrammar (h : Alike SameGrammar x y)
    (hvalid : ∀ p, x = .ok p → ∃ g, p.toGrammar = .ok g) :
    Alike SameGrammar x (do Blueprint.asPart (← y).toGrammar) := by
  cases h with
  | refused fault => exact .refused fault
  | @built p q hpq =>
      obtain ⟨g, hg⟩ := hvalid p rfl
      have hq : q.toGrammar = .ok g := hpq.eq.symm.trans hg
      show Alike SameGrammar (.ok p) (Blueprint.asPart q.toGrammar)
      rw [hq]
      exact .built hg

end Part

/-! ### Definitions and workspaces -/

namespace Definitions

variable {defs defs' : Definitions}

/-- The same names in the same order, with parts that stand for the same grammars. -/
def SameGrammars (defs defs' : Definitions) : Prop :=
  List.Forall₂ (fun d d' => d.1 = d'.1 ∧ d.2.SameGrammar d'.2) defs defs'

theorem SameGrammars.find (h : defs.SameGrammars defs') (name : Name) :
    Alike Part.SameGrammar (defs.find name) (defs'.find name) := by
  have hlookup := lookup_rel (List.forall₂_reverse_iff.mpr h) name
  unfold Definitions.find
  generalize defs.reverse.lookup name = found at hlookup ⊢
  generalize defs'.reverse.lookup name = found' at hlookup ⊢
  cases hlookup with
  | none => exact .refused _
  | some hsame => exact .built hsame

theorem SameGrammars.agree (h : defs.SameGrammars defs') : defs.Agree defs' :=
  List.Forall₂.imp (fun _ _ hd => ⟨hd.1, hd.2.agrees⟩) h

theorem SameGrammars.append {p q : Part} (h : defs.SameGrammars defs') (hpq : p.SameGrammar q)
    (name : Name) : SameGrammars (defs ++ [(name, p)]) (defs' ++ [(name, q)]) :=
  List.rel_append h (.cons ⟨rfl, hpq⟩ .nil)

end Definitions

namespace Workspace

structure SameGrammars (w w' : Workspace) : Prop where
  definitions : w.definitions.SameGrammars w'.definitions
  start : w.start.SameGrammar w'.start

variable {w w' : Workspace}

theorem SameGrammars.apply_eq (h : w.SameGrammars w') (limit : Nat) :
    (Part.found (.ok w.start)).apply w.definitions limit =
      (Part.found (.ok w'.start)).apply w'.definitions limit :=
  h.start.agrees.apply_eq_of_agree h.definitions.agree limit

theorem SameGrammars.parse_eq (h : w.SameGrammars w') (limit : Nat) (src : Text) :
    w.start.parse w.definitions limit src = w'.start.parse w'.definitions limit src := by
  rw [Part.parse, Part.parse, h.apply_eq limit]

theorem SameGrammars.parseOrError_eq (h : w.SameGrammars w') (limit : Nat) (src : Text) :
    w.start.parseOrError w.definitions limit src =
      w'.start.parseOrError w'.definitions limit src := by
  rw [Part.parseOrError, Part.parseOrError, h.parse_eq limit src]

end Workspace

end Descent
