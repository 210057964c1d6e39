import Descent.Proofs.Grammar.Built
import Descent.Proofs.Grammar.Nullable
import Descent.Proofs.Parser.Ending

/-!
# Guarded recursion

Definitions are guarded if none of them can get back to itself without consuming anything in
between, and if no repetition has a body that may consume nothing.  Applying guarded definitions
comes to an end on every text.  Each reference that is followed either has less text in front of it,
or it is to a definition from which fewer others can be reached at the same place.  This also bounds
the depth of the references by the length of the text and the number of definitions.
-/

namespace Descent

namespace Grammar

/-- The names that a grammar may apply at the place where it is applied itself. -/
inductive Heads (defs : Definitions) : Grammar → Name → Prop
  | reference {name : Name} : Heads defs (.reference name) name
  | as {g : Grammar} {v : Value} {name : Name} (h : Heads defs g name) :
      Heads defs (.as g v) name
  | map {g : Grammar} {f : Value → Except Fault Value} {name : Name} (h : Heads defs g name) :
      Heads defs (.map g f) name
  | transform {g : Grammar} {f : Value → Except Fault Value} {name : Name}
      (h : Heads defs g name) : Heads defs (.transform g f) name
  | oneOf {gs : List Grammar} {g : Grammar} {name : Name} (hg : g ∈ gs) (h : Heads defs g name) :
      Heads defs (.oneOf gs) name
  | sequenceFirst {g : Grammar} {gs : List Grammar} {name : Name} (h : Heads defs g name) :
      Heads defs (.sequence (g :: gs)) name
  | sequenceLater {g : Grammar} {gs : List Grammar} {name : Name} (hg : Nullable defs g)
      (h : Heads defs (.sequence gs) name) : Heads defs (.sequence (g :: gs)) name
  | many {g : Grammar} {name : Name} (h : Heads defs g name) : Heads defs (.many g) name
  | butNot {g excluded : Grammar} {description : Text} {name : Name} (h : Heads defs g name) :
      Heads defs (.butNot g excluded description) name
  | excluded {g excluded : Grammar} {description : Text} {name : Name}
      (h : Heads defs excluded name) : Heads defs (.butNot g excluded description) name
  | lookaheadNot {g follower : Grammar} {description : Text} {name : Name}
      (h : Heads defs g name) : Heads defs (.lookaheadNot g follower description) name
  | follower {g follower : Grammar} {description : Text} {name : Name} (hg : Nullable defs g)
      (h : Heads defs follower name) : Heads defs (.lookaheadNot g follower description) name
  | expect {g : Grammar} {description : Text} {name : Name} (h : Heads defs g name) :
      Heads defs (.expect g description) name

/-- Grammars put together from primitive parsers, references to definitions and combinators.
Functions of an output are defined for all outputs that there are.  The body of a repetition cannot
match without consuming anything. -/
inductive Composed (defs : Definitions) : Grammar → Prop
  | any : Composed defs .any
  | literal (t : Text) : Composed defs (.literal t)
  | nothing : Composed defs .nothing
  | pattern (p : Pattern) : Composed defs (.pattern p)
  | reference {name : Name} {part : Part} (hfind : defs.find name = .ok part) :
      Composed defs (.reference name)
  | as {g : Grammar} (hg : Composed defs g) (v : Value) : Composed defs (.as g v)
  | map {g : Grammar} {f : Value → Except Fault Value} (hg : Composed defs g)
      (hf : ∀ v, (Part.grammar g).Yields defs v → ∃ w, f v = .ok w) : Composed defs (.map g f)
  | transform {g : Grammar} {f : Value → Except Fault Value} (hg : Composed defs g)
      (hf : ∀ v, (Part.grammar g).Yields defs v → ∃ w, f v = .ok w) :
      Composed defs (.transform g f)
  | oneOf {gs : List Grammar} (hgs : ∀ g ∈ gs, Composed defs g) : Composed defs (.oneOf gs)
  | sequence {gs : List Grammar} (hgs : ∀ g ∈ gs, Composed defs g) : Composed defs (.sequence gs)
  | many {g : Grammar} (hg : Composed defs g) (hbody : ¬ Nullable defs g) :
      Composed defs (.many g)
  | oneOrMore {g : Grammar} (hg : Composed defs g) (hbody : ¬ Nullable defs g) :
      Composed defs g.oneOrMore
  | optional {g : Grammar} (hg : Composed defs g) : Composed defs g.optional
  | butNot {g excluded : Grammar} (hg : Composed defs g) (hexcluded : Composed defs excluded)
      (name : Text) : Composed defs (.butNot g excluded name)
  | lookaheadNot {g follower : Grammar} (hg : Composed defs g) (hfollower : Composed defs follower)
      (name : Text) : Composed defs (.lookaheadNot g follower name)
  | expect {g : Grammar} (hg : Composed defs g) (description : Text) :
      Composed defs (.expect g description)
  | token {g : Grammar} (hg : Composed defs g) : Composed defs g.token

variable {defs : Definitions} {ctx : Context} {g g' : Grammar} {src src' rest : Text}

theorem Composed.everywhere_admissible (hg : g.Composed defs) :
    g.Everywhere (Admissible defs) := by
  induction hg with
  | any => trivial
  | literal t => trivial
  | nothing => trivial
  | pattern p => trivial
  | reference hfind => exact ⟨_, hfind⟩
  | as _ v ih => exact ⟨trivial, ih⟩
  | map _ _ ih => exact ⟨trivial, ih⟩
  | transform _ _ ih => exact ⟨trivial, ih⟩
  | oneOf _ ih => exact ⟨trivial, (everywhereAll_iff _).mpr ih⟩
  | sequence _ ih => exact ⟨trivial, (everywhereAll_iff _).mpr ih⟩
  | many _ hbody ih => exact ⟨hbody, ih⟩
  | oneOrMore _ hbody ih => exact ⟨trivial, trivial, ih, ⟨hbody, ih⟩, trivial⟩
  | optional _ ih => exact ⟨trivial, ih, trivial, trivial⟩
  | butNot _ _ name ih ihexcluded => exact ⟨trivial, ih, ihexcluded⟩
  | lookaheadNot _ _ name ih ihfollower => exact ⟨trivial, ih, ihfollower⟩
  | expect _ description ih => exact ⟨trivial, ih⟩
  | token _ ih => exact ⟨trivial, trivial, trivial, ih, trivial, trivial⟩

theorem Composed.harmless_run (hg : g.Composed defs) (hctx : ctx.Serves defs False False) :
    (g.run ctx).Harmless False False := by
  induction hg with
  | any => exact Parser.harmless_any
  | literal t => exact Parser.harmless_literal t
  | nothing => exact Parser.harmless_nothing
  | pattern p => exact Parser.harmless_pattern p
  | reference hfind => exact hctx.resolve _ _ hfind
  | as _ v ih => exact ih.as v
  | map _ hf ih => exact harmless_map ih fun v hv => hf v (hctx.yields hv)
  | transform _ hf ih => exact harmless_transform ih fun v hv => hf v (hctx.yields hv)
  | oneOf _ ih => exact harmless_oneOf ih
  | sequence _ ih => exact harmless_sequence ih
  | many _ _ ih => exact ih.many _
  | oneOrMore _ _ ih => exact harmless_oneOrMore ih
  | optional _ ih => exact harmless_optional ih
  | butNot _ _ name ih ihexcluded => exact ih.butNot ihexcluded name
  | lookaheadNot _ _ name ih ihfollower => exact ih.lookaheadNot ihfollower name
  | expect _ description ih => exact ih.expect description
  | token _ ih => exact harmless_token ih

/-! ### One application -/

/-- What a grammar needs in order to end on a text: names end on all shorter texts, and those that
it may apply right away also on this one. -/
structure Ready (defs : Definitions) (ctx : Context) (g : Grammar) (src : Text) : Prop where
  limit : src.length < ctx.limit
  shorter : ∀ name (src' : Text), src'.length < src.length → (ctx.resolve name).EndsOn src'
  heads : ∀ name, Heads defs g name → (ctx.resolve name).EndsOn src

theorem Ready.of_heads (h : Ready defs ctx g src)
    (hheads : ∀ name, Heads defs g' name → Heads defs g name) : Ready defs ctx g' src where
  limit := h.limit
  shorter := h.shorter
  heads name hname := h.heads name (hheads name hname)

theorem Ready.of_length_lt (h : Ready defs ctx g src) (hlt : src'.length < src.length)
    (g' : Grammar) : Ready defs ctx g' src' where
  limit := Nat.lt_trans hlt h.limit
  shorter name src'' hlt' := h.shorter name src'' (Nat.lt_trans hlt' hlt)
  heads name _ := h.shorter name src' hlt

/-- Behind a first part either there is less text, or the part may match nothing. -/
theorem Ready.behind (h : Ready defs ctx g src) (hctx : ctx.Sound defs) {first : Grammar}
    (hfirst : first.Everywhere (Admissible defs)) {v : Value}
    (hreply : first.run ctx src = .returned (.success v rest))
    (hheads : Nullable defs first → ∀ name, Heads defs g' name → Heads defs g name) :
    Ready defs ctx g' rest := by
  have hrest : rest <:+ src := confined_of_admissible hctx hfirst src _ hreply
  rcases Nat.lt_or_ge rest.length src.length with hlt | hge
  · exact h.of_length_lt hlt g'
  · obtain rfl : rest = src := hrest.eq_of_length_le hge
    exact h.of_heads (hheads (nullable_of_run hctx hfirst hreply))

theorem endsOn_run_sequence (hctx : ctx.Sound defs) {gs : List Grammar}
    (hgs : ∀ g ∈ gs, g.Everywhere (Admissible defs))
    (hends : ∀ g ∈ gs, ∀ src, Ready defs ctx g src → (g.run ctx).EndsOn src)
    (h : Ready defs ctx (sequence gs) src) : ((sequence gs).run ctx).EndsOn src := by
  induction gs generalizing src with
  | nil => exact Parser.endsOn_sequence_nil
  | cons g gs ih =>
      have hfirst := hends g (by simp) src (h.of_heads fun _ => .sequenceFirst)
      apply Parser.endsOn_sequence_cons hfirst
      intro v rest hreply
      apply ih (fun g' hg' => hgs g' (List.mem_cons_of_mem g hg'))
        (fun g' hg' => hends g' (List.mem_cons_of_mem g hg'))
      exact h.behind hctx (hgs g (by simp)) hreply fun hnull _ => .sequenceLater hnull

theorem endsOn_run (hctx : ctx.Sound defs) (hg : g.Everywhere (Admissible defs))
    (h : Ready defs ctx g src) : (g.run ctx).EndsOn src := by
  induction g generalizing src with
  | any => exact Parser.endsOn_any
  | literal t => exact Parser.endsOn_literal
  | nothing => exact Parser.endsOn_nothing
  | pattern p => exact Parser.endsOn_pattern
  | reference name => exact h.heads name .reference
  | as g v ih => exact (ih hg.2 (h.of_heads fun _ => .as)).as v
  | map g f ih => exact (ih hg.2 (h.of_heads fun _ => .map)).map f
  | transform g f ih => exact (ih hg.2 (h.of_heads fun _ => .transform)).transform f
  | oneOf gs ih =>
      rw [run_oneOf]
      apply Parser.endsOn_oneOf
      intro p hp
      obtain ⟨g, hmem, rfl⟩ := List.mem_map.mp hp
      exact ih g hmem ((everywhereAll_iff gs).mp hg.2 g hmem) (h.of_heads fun _ => .oneOf hmem)
  | sequence gs ih =>
      have hgs := (everywhereAll_iff gs).mp hg.2
      exact endsOn_run_sequence hctx hgs (fun g hmem src => ih g hmem (hgs g hmem)) h
  | many g ih =>
      apply Parser.endsOn_many h.limit
      · rintro src' (rfl | hlt)
        · exact ih hg.2 (h.of_heads fun _ => .many)
        · exact ih hg.2 (h.of_length_lt hlt g)
      · intro src v rest hreply
        have hrest : rest <:+ src := confined_of_admissible hctx hg.2 src _ hreply
        by_contra hge
        obtain rfl : rest = src := hrest.eq_of_length_le (Nat.not_lt.mp hge)
        exact hg.1 (nullable_of_run hctx hg.2 hreply)
  | butNot g excluded name ih ihexcluded =>
      have hexcluded := ihexcluded hg.2.2 (h.of_heads fun _ => .excluded)
      exact (ih hg.2.1 (h.of_heads fun _ => .butNot)).butNot hexcluded name
  | lookaheadNot g follower name ih ihfollower =>
      apply (ih hg.2.1 (h.of_heads fun _ => .lookaheadNot)).lookaheadNot
      intro v rest hreply
      exact ihfollower hg.2.2 (h.behind hctx hg.2.1 hreply fun hnull _ => .follower hnull)
  | expect g description ih => exact (ih hg.2 (h.of_heads fun _ => .expect)).expect description
  | raise fault => exact hg.elim
  | custom p => exact hg.elim
  | self => exact hg.elim
  | recursive body _ => exact hg.1.elim
  | reparse g inner _ _ => exact hg.1.elim
  | flatMap g f _ _ => exact hg.1.elim

theorem find_of_heads (hg : g.Everywhere (Admissible defs)) {name : Name}
    (h : Heads defs g name) : ∃ part, defs.find name = .ok part := by
  induction h with
  | reference => exact hg
  | as _ ih => exact ih hg.2
  | map _ ih => exact ih hg.2
  | transform _ ih => exact ih hg.2
  | oneOf hmem _ ih => exact ih ((everywhereAll_iff _).mp hg.2 _ hmem)
  | sequenceFirst _ ih => exact ih hg.2.1
  | sequenceLater _ _ ih => exact ih ⟨trivial, hg.2.2⟩
  | many _ ih => exact ih hg.2
  | butNot _ ih => exact ih hg.2.1
  | excluded _ ih => exact ih hg.2.2
  | lookaheadNot _ ih => exact ih hg.2.1
  | follower _ _ ih => exact ih hg.2.2
  | expect _ ih => exact ih hg.2

end Grammar

open Grammar

namespace Definitions

variable {defs : Definitions} {a b name : Name} {src : Text} {limit depth : Nat}

/-- What the first name is defined as may apply the second name at the same place. -/
def Calls (defs : Definitions) (a b : Name) : Prop := Heads defs (Part.found (defs.find a)) b

/-- Every definition is composed, and none can get back to itself at the same place. -/
structure Guarded (defs : Definitions) : Prop where
  composed : ∀ name part, defs.find name = .ok part → (Part.found (.ok part)).Composed defs
  acyclic : ∀ name, ¬ Relation.TransGen defs.Calls name name

theorem Guarded.admissible (hdefs : defs.Guarded) : defs.Admissible :=
  fun name part hfind => (hdefs.composed name part hfind).everywhere_admissible

open Classical in
/-- How many names can be reached from a name at the same place. -/
noncomputable def rank (defs : Definitions) (name : Name) : Nat :=
  ((defs.map Prod.fst).toFinset.filter fun b => Relation.TransGen defs.Calls name b).card

theorem rank_le (defs : Definitions) (name : Name) : defs.rank name ≤ defs.length := by
  classical
  have hfilter := Finset.card_filter_le (defs.map Prod.fst).toFinset
    fun b => Relation.TransGen defs.Calls name b
  have hnames := List.toFinset_card_le (defs.map Prod.fst)
  rw [List.length_map] at hnames
  exact hfilter.trans hnames

theorem Guarded.rank_lt (hdefs : defs.Guarded) (hcall : defs.Calls a b) {part : Part}
    (hfind : defs.find b = .ok part) : defs.rank b < defs.rank a := by
  have hmem : b ∈ (defs.map Prod.fst).toFinset :=
    List.mem_toFinset.mpr (List.mem_map_of_mem (mem_of_find_eq_ok hfind))
  classical
  apply Finset.card_lt_card
  rw [Finset.ssubset_iff_of_subset]
  · exact ⟨b, Finset.mem_filter.mpr ⟨hmem, .single hcall⟩,
      fun h => hdefs.acyclic b (Finset.mem_filter.mp h).2⟩
  · intro c hc
    obtain ⟨hname, hreach⟩ := Finset.mem_filter.mp hc
    exact Finset.mem_filter.mpr ⟨hname, .head hcall hreach⟩

/-- The depth that a name needs on a text: for each code point as much as all definitions together
can take without consuming anything, and its own rank. -/
theorem Guarded.endsOn_meaning (hdefs : defs.Guarded) (hlimit : src.length < limit)
    (hdepth : src.length * (defs.length + 1) + defs.rank name < depth) :
    (defs.meaning limit depth name).EndsOn src := by
  induction depth generalizing name src with
  | zero => omega
  | succ depth ih =>
      simp only [Parser.EndsOn, meaning]
      cases hfind : defs.find name with
      | error fault => simp [Part.found, Except.bind, run, Parser.raise]
      | ok part =>
          have hadmissible := hdefs.admissible name part hfind
          apply endsOn_run (hdefs.admissible.sound_meaning limit depth) hadmissible
          refine ⟨hlimit, fun b src' hlt => ih (Nat.lt_trans hlt hlimit) ?_,
            fun b hb => ih hlimit ?_⟩
          · have hrank := defs.rank_le b
            have hmul := Nat.mul_le_mul_right (defs.length + 1) (Nat.succ_le_of_lt hlt)
            rw [Nat.succ_mul] at hmul
            omega
          · obtain ⟨part', hfind'⟩ := find_of_heads hadmissible hb
            have hcall : defs.Calls name b := by
              rw [Calls, hfind]
              exact hb
            have hrank := hdefs.rank_lt hcall hfind'
            omega

end Definitions

variable {defs : Definitions}

theorem Definitions.Guarded.endsOn_apply (hdefs : defs.Guarded) {g : Grammar}
    (hg : g.Composed defs) (src : Text) {limit : Nat}
    (hlimit : (src.length + 1) * (defs.length + 1) ≤ limit) :
    (g.apply defs limit).EndsOn src := by
  have hlength : src.length < limit :=
    Nat.lt_of_lt_of_le (Nat.lt_succ_self _) ((Nat.le_mul_of_pos_right _ (by omega)).trans hlimit)
  rw [Nat.succ_mul] at hlimit
  apply endsOn_run (hdefs.admissible.sound_meaning limit limit) hg.everywhere_admissible
  refine ⟨hlength, fun name src' hlt => ?_, fun name _ => ?_⟩
  · apply hdefs.endsOn_meaning (Nat.lt_trans hlt hlength)
    have hrank := defs.rank_le name
    have hmul := Nat.mul_le_mul_right (defs.length + 1) (Nat.succ_le_of_lt hlt)
    rw [Nat.succ_mul] at hmul
    omega
  · apply hdefs.endsOn_meaning hlength
    have hrank := defs.rank_le name
    omega

/-- Whatever is composed of guarded definitions has a reply to every text.  A limit that is linear in
the length of the text suffices. -/
theorem Grammar.apply_returns_of_guarded (hdefs : defs.Guarded) {g : Grammar}
    (hg : g.Composed defs) (src : Text) :
    ∃ r, ∀ limit, (src.length + 1) * (defs.length + 1) ≤ limit →
      g.apply defs limit src = .returned r := by
  have hends := hdefs.endsOn_apply hg src (Nat.le_refl _)
  have hharmless := hg.harmless_run <| Definitions.serves_context
    (fun name part hfind _ => (hdefs.composed name part hfind).harmless_run)
    ((src.length + 1) * (defs.length + 1))
  cases hreply : g.apply defs ((src.length + 1) * (defs.length + 1)) src with
  | returned r => exact ⟨r, fun limit hlimit => apply_eq_of_le hreply hlimit⟩
  | raised fault => exact (hharmless.overlong src fault hreply).1.elim
  | exhausted => exact absurd hreply hends

/-- References that always lead to a name of smaller rank do not lead back. -/
theorem Definitions.acyclic_of_rank (rank : Name → Nat)
    (hrank : ∀ a b, defs.Calls a b → rank b < rank a) (name : Name) :
    ¬ Relation.TransGen defs.Calls name name := by
  have hlt : ∀ a b, Relation.TransGen defs.Calls a b → rank b < rank a := by
    intro a b h
    induction h with
    | single hcall => exact hrank _ _ hcall
    | tail _ hcall ih => exact (hrank _ _ hcall).trans ih
  exact fun h => Nat.lt_irrefl _ (hlt name name h)

/-- Items in parentheses. -/
def group : Grammar := .sequence [.literal "(", (Grammar.reference "item").many, .literal ")"]

/-- A group, or a character that does not close one. -/
def groupItem : Grammar :=
  .oneOf
    [.reference "group", (Grammar.any.butNot (.literal ")") "a closing parenthesis").map Value.wrap]

def nestedGroups : Definitions := [("group", .grammar group), ("item", .grammar groupItem)]

theorem found_nestedGroups {name : Name} {part : Part} (h : nestedGroups.find name = .ok part) :
    name = "group" ∧ part = .grammar group ∨ name = "item" ∧ part = .grammar groupItem := by
  simpa [nestedGroups] using Definitions.mem_of_find_eq_ok h

theorem not_nullable_group : ¬ Nullable nestedGroups group := by
  intro h
  cases h with
  | sequence h => exact nomatch h (.literal "(") (by simp)

theorem not_nullable_groupItem : ¬ Nullable nestedGroups groupItem := by
  intro h
  cases h with
  | oneOf hmem h =>
      simp only [List.mem_cons, List.not_mem_nil, or_false] at hmem
      rcases hmem with rfl | rfl
      · cases h with
        | reference h => exact not_nullable_group h
      · cases h with
        | map h =>
            cases h with
            | butNot h => exact nomatch h

theorem not_heads_group (name : Name) : ¬ Heads nestedGroups group name := by
  intro h
  cases h with
  | sequenceFirst h => exact nomatch h
  | sequenceLater hnull _ => exact nomatch hnull

theorem eq_group_of_heads_groupItem {name : Name} (h : Heads nestedGroups groupItem name) :
    name = "group" := by
  cases h with
  | oneOf hmem h =>
      simp only [List.mem_cons, List.not_mem_nil, or_false] at hmem
      rcases hmem with rfl | rfl
      · cases h
        rfl
      · cases h with
        | map h =>
            cases h with
            | butNot h => exact nomatch h
            | excluded h => exact nomatch h

theorem guarded_nestedGroups : nestedGroups.Guarded where
  composed name part hfind := by
    have hbody : ¬ Nullable nestedGroups (.reference "item") := by
      intro h
      cases h with
      | reference h => exact not_nullable_groupItem h
    rcases found_nestedGroups hfind with ⟨-, rfl⟩ | ⟨-, rfl⟩
    · refine .sequence ?_
      simp [Composed.literal, Composed.many (.reference rfl) hbody]
    · refine .oneOf ?_
      have hitem : Composed nestedGroups (.map (.butNot .any (.literal ")") "a closing parenthesis")
          Value.wrap) := .map (.butNot .any (.literal ")") _) fun v _ => ⟨_, rfl⟩
      simpa using ⟨.reference rfl, hitem⟩
  acyclic := by
    apply Definitions.acyclic_of_rank fun name => if name = "item" then 1 else 0
    intro a b hcall
    unfold Definitions.Calls at hcall
    cases hfind : nestedGroups.find a with
    | error fault =>
        rw [hfind] at hcall
        exact nomatch hcall
    | ok part =>
        rw [hfind] at hcall
        rcases found_nestedGroups hfind with ⟨rfl, rfl⟩ | ⟨rfl, rfl⟩
        · exact absurd hcall (not_heads_group b)
        · obtain rfl := eq_group_of_heads_groupItem hcall
          decide

theorem apply_returns_of_guarded_nestedGroups :
    nestedGroups.Guarded ∧ Composed nestedGroups (.reference "group") ∧
      ∀ limit, 21 ≤ limit →
        (Grammar.reference "group").apply nestedGroups limit "(a())b" =
          .returned (.success
            (.list
              [ .text "(",
                .list [.list [.text "a"], .list [.text "(", .list [], .text ")"]],
                .text ")" ]) "b") := by
  have hgroup : Composed nestedGroups (.reference "group") := .reference rfl
  refine ⟨guarded_nestedGroups, hgroup, fun limit hlimit => ?_⟩
  obtain ⟨r, hr⟩ := Grammar.apply_returns_of_guarded guarded_nestedGroups hgroup "(a())b"
  have hrun := hr 21 (Nat.le_refl _)
  rw [hr limit hlimit, ← hrun]
  cbv

end Descent
