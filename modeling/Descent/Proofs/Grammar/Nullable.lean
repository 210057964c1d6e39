import Descent.Proofs.Grammar.Suffix
import Descent.Proofs.Parser.Output
import Descent.Proofs.Pattern.Run

/-!
# Matching without consuming anything

Which grammars may match and leave their whole input is a least fixed point over the grammar and its
definitions.  It is an analysis of the grammar alone, and it is sound: a grammar that does leave its
whole input on some text is found by it.  This is shown by induction over the grammar, and for names
by induction on the depth to which references are unrolled.
-/

namespace Descent

namespace Grammar

variable {defs : Definitions}

/-- Grammars that may match without consuming anything. -/
inductive Nullable (defs : Definitions) : Grammar → Prop
  | literal : Nullable defs (.literal [])
  | nothing : Nullable defs .nothing
  | pattern {p : Pattern} {t rest : Text} (h : p.matchStart? t = some ([], rest)) :
      Nullable defs (.pattern p)
  | reference {name : Name} (h : Nullable defs (Part.found (defs.find name))) :
      Nullable defs (.reference name)
  | as {g : Grammar} {v : Value} (h : Nullable defs g) : Nullable defs (.as g v)
  | map {g : Grammar} {f : Value → Except Fault Value} (h : Nullable defs g) :
      Nullable defs (.map g f)
  | transform {g : Grammar} {f : Value → Except Fault Value} (h : Nullable defs g) :
      Nullable defs (.transform g f)
  | oneOf {gs : List Grammar} {g : Grammar} (hg : g ∈ gs) (h : Nullable defs g) :
      Nullable defs (.oneOf gs)
  | sequence {gs : List Grammar} (h : ∀ g ∈ gs, Nullable defs g) : Nullable defs (.sequence gs)
  | many {g : Grammar} : Nullable defs (.many g)
  | butNot {g excluded : Grammar} {name : Text} (h : Nullable defs g) :
      Nullable defs (.butNot g excluded name)
  | lookaheadNot {g follower : Grammar} {name : Text} (h : Nullable defs g) :
      Nullable defs (.lookaheadNot g follower name)
  | expect {g : Grammar} {description : Text} (h : Nullable defs g) :
      Nullable defs (.expect g description)

/-! ### Derived combinators -/

theorem nullable_optional (g : Grammar) : Nullable defs g.optional :=
  .oneOf (List.mem_cons_of_mem g (List.mem_singleton_self _)) .nothing

theorem nullable_oneOrMore_iff {g : Grammar} : Nullable defs g.oneOrMore ↔ Nullable defs g := by
  constructor
  · intro h
    cases h with
    | map h =>
        cases h with
        | sequence h => exact h g (by simp)
  · intro h
    exact .map (.sequence (by simpa using ⟨h, .many⟩))

theorem nullable_optionalWhitespace : Nullable defs optionalWhitespace :=
  .pattern (Pattern.matchStart?_zeroOrMore_set (CharSet.ofText Alphabet.blank) [])

theorem nullable_token_iff {g : Grammar} : Nullable defs g.token ↔ Nullable defs g := by
  constructor
  · intro h
    cases h with
    | map h =>
        cases h with
        | sequence h => exact h g (by simp)
  · intro h
    exact .map (.sequence (by simp [h, nullable_optionalWhitespace]))

/-! ### Soundness -/

/-- Neither made elsewhere nor found while parsing.  Names are defined, and the body of a repetition
cannot match without consuming anything. -/
def Admissible (defs : Definitions) : Grammar → Prop
  | .raise _ | .custom _ | .self | .recursive _ | .reparse _ _ | .flatMap _ _ => False
  | .reference name => ∃ part, defs.find name = .ok part
  | .many g => ¬ Nullable defs g
  | _ => True

theorem Admissible.confinable {g : Grammar} (h : Admissible defs g) :
    Confinable defs False g := by
  cases g with
  | custom p => exact h.elim
  | transform g f => exact False.elim
  | _ => trivial

end Grammar

open Grammar

/-- A context in which names leave suffixes, and match without consuming anything only if the
analysis says that they may. -/
structure Context.Sound (defs : Definitions) (ctx : Context) : Prop where
  resolve : ∀ name, (ctx.resolve name).Confined False
  self : ctx.self.Confined False
  nullable : ∀ name src v, ctx.resolve name src = .returned (.success v src) →
    Nullable defs (.reference name)

namespace Grammar

variable {defs : Definitions} {ctx : Context} {g : Grammar} {src rest : Text} {v : Value}

theorem confined_of_admissible (hctx : ctx.Sound defs) (hg : g.Everywhere (Admissible defs)) :
    (g.run ctx).Confined False :=
  confined_run g (hg.mono fun _ h => h.confinable) ⟨False.elim, hctx.resolve, hctx.self⟩

/-- A sequence that leaves its whole input consists of parts that do. -/
theorem stays_of_collect {ps : List Parser} (hps : ∀ p ∈ ps, p.Confined False) {vs : List Value}
    (h : Parser.collect ps src = .returned (.ok (vs, src))) :
    ∀ p ∈ ps, ∃ v, p src = .returned (.success v src) := by
  induction ps generalizing vs with
  | nil => simp
  | cons p ps ih =>
      obtain ⟨v, middle, vs', hfirst, hcollect, rfl⟩ := Parser.collect_cons_cases h
      have hothers : ∀ p ∈ ps, p.Confined False := fun q hq => hps q (List.mem_cons_of_mem p hq)
      have hmiddle : middle <:+ src := hps p (by simp) src _ hfirst
      have hsrc : src <:+ middle := (Parser.collect_within hothers middle).1 vs' src hcollect
      obtain rfl : middle = src := hmiddle.eq_of_length_le hsrc.length_le
      intro q hq
      rcases List.mem_cons.mp hq with rfl | hq
      · exact ⟨v, hfirst⟩
      · exact ih hothers hcollect q hq

theorem nullable_of_run (hctx : ctx.Sound defs) (hg : g.Everywhere (Admissible defs))
    (h : g.run ctx src = .returned (.success v src)) : Nullable defs g := by
  induction g generalizing src v with
  | any =>
      cases src with
      | nil => simp [run, Parser.any, Parser.failWith] at h
      | cons c src => simp [run, Parser.any] at h
  | literal t =>
      simp only [run, Parser.literal] at h
      split at h
      next rest hstrip =>
        obtain ⟨-, rfl⟩ : .text t = v ∧ rest = src := by simpa using h
        obtain rfl : t = [] := by simpa using Text.strip?_eq_some_iff.mp hstrip
        exact .literal
      next => simp [Parser.failWith] at h
  | nothing => exact .nothing
  | pattern p =>
      simp only [run, Parser.pattern] at h
      split at h
      next matched rest hmatch =>
        obtain ⟨-, rfl⟩ : .text matched = v ∧ rest = src := by simpa using h
        obtain rfl : matched = [] := by simpa using Pattern.append_of_matchStart? hmatch
        exact .pattern hmatch
      next => simp [Parser.failWith] at h
  | reference name => exact hctx.nullable name src v h
  | as g v ih =>
      obtain ⟨-, u, hu⟩ := Parser.of_as_eq_success h
      exact .as (ih hg.2 hu)
  | map g f ih =>
      obtain ⟨u, hu, -⟩ := Parser.of_map_eq_success h
      exact .map (ih hg.2 hu)
  | transform g f ih =>
      obtain ⟨u, hu⟩ := Parser.of_transform_eq_success h
      exact .transform (ih hg.2 hu)
  | oneOf gs ih =>
      rw [run_oneOf] at h
      obtain ⟨p, hp, hreply⟩ := Parser.of_oneOf_eq_success h
      obtain ⟨g, hmem, rfl⟩ := List.mem_map.mp hp
      exact .oneOf hmem (ih g hmem ((everywhereAll_iff gs).mp hg.2 g hmem) hreply)
  | sequence gs ih =>
      rw [run_sequence] at h
      obtain ⟨vs, rfl, hcollect⟩ := Parser.of_sequence_eq_success h
      have hall := (everywhereAll_iff gs).mp hg.2
      have hconfined : ∀ p ∈ gs.map (run · ctx), p.Confined False := by
        intro p hp
        obtain ⟨g, hmem, rfl⟩ := List.mem_map.mp hp
        exact confined_of_admissible hctx (hall g hmem)
      refine .sequence fun g hmem => ?_
      obtain ⟨u, hu⟩ := stays_of_collect hconfined hcollect _ (List.mem_map_of_mem hmem)
      exact ih g hmem (hall g hmem) hu
  | many g ih => exact .many
  | butNot g excluded name ih _ => exact .butNot (ih hg.2.1 (Parser.of_butNot_eq_success h))
  | lookaheadNot g follower name ih _ =>
      exact .lookaheadNot (ih hg.2.1 (Parser.of_lookaheadNot_eq_success h))
  | expect g description ih => exact .expect (ih hg.2 (Parser.of_expect_eq_success h))
  | raise fault => exact hg.elim
  | custom p => exact hg.elim
  | self => exact hg.elim
  | recursive body _ => exact hg.1.elim
  | reparse g inner _ _ => exact hg.1.elim
  | flatMap g f _ _ => exact hg.1.elim

end Grammar

namespace Definitions

variable {defs : Definitions}

/-- What every name is defined as is admissible. -/
def Admissible (defs : Definitions) : Prop :=
  ∀ name part, defs.find name = .ok part →
    (Part.found (.ok part)).Everywhere (Grammar.Admissible defs)

theorem Admissible.confinable (hdefs : defs.Admissible) (name : Name) :
    (Part.found (defs.find name)).Everywhere (Confinable defs False) := by
  cases hfind : defs.find name with
  | error fault => trivial
  | ok part => exact (hdefs name part hfind).mono fun _ h => h.confinable

theorem Admissible.sound_meaning (hdefs : defs.Admissible) (limit depth : Nat) :
    Context.Sound defs { limit, resolve := defs.meaning limit depth } where
  resolve := (confines_meaning hdefs.confinable limit depth).resolve
  self := Parser.confined_endless
  nullable := by
    induction depth with
    | zero => simp [meaning]
    | succ depth ih =>
        intro name src v h
        simp only [meaning] at h
        refine .reference ?_
        cases hfind : defs.find name with
        | error fault => simp [hfind, Part.found, Except.bind, run, Parser.raise] at h
        | ok part =>
            rw [hfind] at h
            apply nullable_of_run _ (hdefs name part hfind) h
            exact ⟨(confines_meaning hdefs.confinable limit depth).resolve, Parser.confined_endless,
              ih⟩

end Definitions

end Descent
