import Descent.Proofs.Grammar.Limit
import Descent.Proofs.Grammar.ReadyMade
import Descent.Proofs.Parser.Confined
import Mathlib.Computability.Primrec.List

/-!
# Suffixes in the replies of grammars

Whatever grammar is applied to a text, a success leaves a suffix of the text, and a failure
points at a suffix of it unless a function of the output made the failure up.  The invariant of
one combinator is a fact about parsers.  It is lifted to grammars by induction over the grammar,
to names by induction on the depth to which references are unrolled, and to a grammar that refers
to itself by induction on the number of its unrollings.  A function of the output is only held to
the outputs that its grammar has.
-/

namespace Descent

/-- A parser that leaves a suffix of its input whenever it matches. -/
def Parser.LeavesSuffix (p : Parser) : Prop :=
  ∀ src v rest, p src = .returned (.success v rest) → rest <:+ src

/-- A parser whose failures point at a suffix of its input. -/
def Parser.LocatesFailures (p : Parser) : Prop :=
  ∀ src f, p src = .returned (.failure f) → f.input <:+ src

namespace Grammar

/-- The grammar outputs the value on some text, whatever it refers to as itself. -/
def Yields (defs : Definitions) (g : Grammar) (v : Value) : Prop :=
  ∃ limit self, (g.run { defs.context limit with self }).Yields v

/-- A function that returns no failure of its own for any output of the grammar. -/
def NeverRejects (defs : Definitions) (g : Grammar) (f : Value → Except Fault Value) : Prop :=
  ∀ v w, g.Yields defs v → f v = .ok w → w.failure? = none

/-- A parser that was made elsewhere leaves suffixes. -/
def KeepsSuffixes : Grammar → Prop
  | .custom p => p.LeavesSuffix
  | _ => True

/-- A parser that was made elsewhere leaves suffixes and locates its failures, and a function that
may reject the output does not. -/
def KeepsLocations (defs : Definitions) : Grammar → Prop
  | .custom p => p.LeavesSuffix ∧ p.LocatesFailures
  | .transform g f => NeverRejects defs g f
  | _ => True

/-- Both conditions at once, the second one if failures are `located`. -/
def Confinable (defs : Definitions) (located : Prop) : Grammar → Prop
  | .custom p => p.Confined located
  | .transform g f => located → NeverRejects defs g f
  | _ => True

variable {defs : Definitions}

theorem confinable_false : Confinable defs False = KeepsSuffixes := by
  funext g
  cases g with
  | custom p =>
      simp only [Confinable, KeepsSuffixes, eq_iff_iff]
      constructor
      · intro h src v rest hreply
        exact h src _ hreply
      · rintro h src (⟨v, rest⟩ | f) hreply
        · exact h src v rest hreply
        · exact False.elim
  | transform g f => simp [Confinable, KeepsSuffixes]
  | _ => rfl

theorem confinable_true : Confinable defs True = KeepsLocations defs := by
  funext g
  cases g with
  | custom p =>
      simp only [Confinable, KeepsLocations, eq_iff_iff]
      constructor
      · intro h
        exact ⟨fun src v rest hreply => h src _ hreply,
          fun src f hreply => h src _ hreply trivial⟩
      · rintro ⟨hsuffix, hlocates⟩ src (⟨v, rest⟩ | f) hreply
        · exact hsuffix src v rest hreply
        · exact fun _ => hlocates src f hreply
  | transform g f => simp [Confinable, KeepsLocations]
  | _ => rfl

end Grammar

variable {defs : Definitions} {located : Prop} {ctx : Context}

/-- A context in which everything that is referred to is confined.  If failures are `located`, names
also have to stand for what they are defined as, up to a depth. -/
structure Context.Confines (defs : Definitions) (located : Prop) (ctx : Context) : Prop where
  grows : located → ∃ limit, ctx.GrowsTo { defs.context limit with self := ctx.self }
  resolve : ∀ name, (ctx.resolve name).Confined located
  self : ctx.self.Confined located

theorem Context.Confines.yields (hctx : ctx.Confines defs located) (hlocated : located)
    {g : Grammar} {v : Value} (hv : (g.run ctx).Yields v) : g.Yields defs v := by
  obtain ⟨limit, hgrows⟩ := hctx.grows hlocated
  exact ⟨limit, ctx.self, hv.of_growsTo (Grammar.growsTo_run g hgrows)⟩

theorem Context.Confines.withSelf (hctx : ctx.Confines defs located) {p : Parser}
    (hp : p.Confined located) : Context.Confines defs located { ctx with self := p } where
  grows hlocated := by
    obtain ⟨limit, hgrows⟩ := hctx.grows hlocated
    exact ⟨limit, hgrows.limit_le, hgrows.resolve, .refl p⟩
  resolve := hctx.resolve
  self := hp

theorem Grammar.confined_run (g : Grammar) (hg : g.Everywhere (Confinable defs located))
    (hctx : ctx.Confines defs located) : (g.run ctx).Confined located := by
  induction g generalizing ctx with
  | any => exact Parser.confined_any
  | literal t => exact Parser.confined_literal t
  | nothing => exact Parser.confined_nothing
  | pattern p => exact Parser.confined_pattern p
  | raise fault => exact Parser.confined_raise fault
  | custom p => exact hg
  | reference name => exact hctx.resolve name
  | self => exact hctx.self
  | recursive body ih =>
      apply Parser.confined_recursive
      intro p hp
      exact ih hg.2 (hctx.withSelf hp)
  | as g v ih => exact (ih hg.2 hctx).as v
  | map g f ih => exact (ih hg.2 hctx).map _
  | transform g f ih =>
      apply (ih hg.2 hctx).transform
      intro hlocated v w hv hw
      cases hf : f v with
      | error fault => simp [hf] at hw
      | ok u =>
          obtain rfl : u = w := by simpa [hf] using hw
          exact hg.1 hlocated v u (hctx.yields hlocated hv) hf
  | reparse g inner ih _ => exact (ih hg.2 hctx).map _
  | flatMap g f ihg ihf =>
      exact (ihg hg.2.1 hctx).flatMap fun v _ => ihf v (hg.2.2 v) hctx
  | oneOf gs ih =>
      apply Parser.confined_oneOf
      simp only [runAll_eq_map, List.mem_map]
      rintro _ ⟨g, hmem, rfl⟩
      exact ih g hmem ((everywhereAll_iff gs).mp hg.2 g hmem) hctx
  | sequence gs ih =>
      apply Parser.confined_sequence
      simp only [runAll_eq_map, List.mem_map]
      rintro _ ⟨g, hmem, rfl⟩
      exact ih g hmem ((everywhereAll_iff gs).mp hg.2 g hmem) hctx
  | many g ih => exact (ih hg.2 hctx).many ctx.limit
  | butNot g excluded name ih _ => exact (ih hg.2.1 hctx).butNot _ name
  | lookaheadNot g follower name ih _ => exact (ih hg.2.1 hctx).lookaheadNot _ name
  | expect g description ih => exact (ih hg.2 hctx).expect description

theorem Definitions.confines_meaning
    (hdefs : ∀ name, (Part.found (defs.find name)).Everywhere (Grammar.Confinable defs located))
    (limit depth : Nat) :
    Context.Confines defs located { limit, resolve := defs.meaning limit depth } := by
  refine ⟨fun _ => defs.exists_growsTo_context limit depth, ?_, Parser.confined_endless⟩
  induction depth with
  | zero =>
      intro name src r h
      simp [meaning] at h
  | succ depth ih =>
      intro name src r h
      simp only [meaning] at h
      refine Grammar.confined_run _ (hdefs name) ⟨fun _ => ?_, ih, Parser.confined_endless⟩ src r h
      exact defs.exists_growsTo_context limit depth

theorem Grammar.confined_apply
    {g : Grammar} (h : defs.Throughout (Grammar.Confinable defs located) g) (limit : Nat) :
    (g.apply defs limit).Confined located :=
  g.confined_run h.1 (Definitions.confines_meaning h.2 limit limit)

/-- Whatever is applied to `src`, a success leaves a suffix of `src`, and a failure points at a
suffix of it unless a function of the output returned that failure. -/
theorem Grammar.apply_replies_with_suffixes
    (g : Grammar) (defs : Definitions) (limit : Nat) (src : Text) :
    (defs.Throughout KeepsSuffixes g →
      ∀ v rest, g.apply defs limit src = .returned (.success v rest) → rest <:+ src) ∧
    (defs.Throughout (KeepsLocations defs) g →
      ∀ f, g.apply defs limit src = .returned (.failure f) → f.input <:+ src) := by
  constructor
  · intro h v rest hreply
    rw [← @confinable_false defs] at h
    exact confined_apply h limit src _ hreply
  · intro h f hreply
    rw [← confinable_true] at h
    exact confined_apply h limit src _ hreply trivial

/-- Lists in square brackets, whose items are lists again, numbers, strings or runs of letters. -/
def nestedLists : Definitions :=
  [ ("list", .grammar (.sequence [.literal "[", (Grammar.reference "item").many, .literal "]"])),
    ("item", .grammar
      (.oneOf
        [ .reference "list", Grammar.integerNumber.token, Grammar.quotedString,
          (Grammar.someOf "ab").transform Value.size ])) ]

/-- A list and one more code point, which a parser made elsewhere matches. -/
def listAndMore : Grammar := .sequence [.reference "list", .custom Parser.any]

theorem throughout_nestedLists
    {P : Grammar → Prop} (hplain : ∀ g, Grammar.Plain g → P g)
    (hcustom : P (.custom Parser.any))
    (htransform : P (.transform (Grammar.someOf "ab") Value.size)) :
    nestedLists.Throughout P listAndMore := by
  have hinteger : Grammar.integerNumber.token.Everywhere P :=
    (Grammar.everywhere_plain_token Grammar.everywhere_plain_integerNumber).mono hplain
  have hquoted : Grammar.quotedString.Everywhere P :=
    Grammar.everywhere_of_mem_readyMade hplain (by simp [Grammar.readyMade])
  constructor
  · refine ⟨hplain _ trivial, hplain _ trivial, hcustom, trivial⟩
  · apply Definitions.everywhere_found fun fault => hplain _ trivial
    intro d hd
    simp only [nestedLists, List.mem_cons, List.not_mem_nil, or_false] at hd
    rcases hd with rfl | rfl
    · exact ⟨hplain _ trivial, hplain _ trivial, ⟨hplain _ trivial, hplain _ trivial⟩,
        hplain _ trivial, trivial⟩
    · exact ⟨hplain _ trivial, hplain _ trivial, hinteger, hquoted,
        ⟨htransform, hplain _ trivial⟩, trivial⟩

theorem neverRejects_size (defs : Definitions) (g : Grammar) :
    Grammar.NeverRejects defs g Value.size := by
  intro v w _ h
  unfold Value.size at h
  split at h
  next items _ =>
    obtain rfl : Value.int items.length = w := by simpa using h
    rfl
  next => simp at h

theorem apply_replies_with_suffixes_nestedLists :
    (nestedLists.Throughout Grammar.KeepsSuffixes listAndMore ∧
      listAndMore.apply nestedLists 9 "['a'[ab]]!?" =
        .returned (.success
          (.list
            [ .list
                [ .text "[",
                  .list [.text "a", .list [.text "[", .list [.int 2], .text "]"]],
                  .text "]" ],
              .text "!" ]) "?") ∧
      ("?" : Text) <:+ "['a'[ab]]!?") ∧
    (nestedLists.Throughout (Grammar.KeepsLocations nestedLists) listAndMore ∧
      listAndMore.apply nestedLists 9 "[1[abx" =
        .returned (.failure
          { input := "[abx", message := "input did not begin with \"]\"" }) ∧
      ("[abx" : Text) <:+ "[1[abx") := by
  have hany : Parser.any.Confined True := Parser.confined_any
  have hsuffixes : nestedLists.Throughout Grammar.KeepsSuffixes listAndMore := by
    apply throughout_nestedLists
    · intro g hg
      cases g <;> trivial
    · exact fun src v rest h => hany src (.success v rest) h
    · trivial
  have hlocations : nestedLists.Throughout (Grammar.KeepsLocations nestedLists) listAndMore := by
    apply throughout_nestedLists
    · intro g hg
      cases g <;> trivial
    · exact ⟨fun src v rest h => hany src (.success v rest) h,
        fun src f h => hany src (.failure f) h trivial⟩
    · exact neverRejects_size _ _
  have hsuccess :
      listAndMore.apply nestedLists 9 "['a'[ab]]!?" =
        .returned (.success
          (.list
            [ .list
                [ .text "[",
                  .list [.text "a", .list [.text "[", .list [.int 2], .text "]"]],
                  .text "]" ],
              .text "!" ]) "?") := by
    cbv
  have hfailure :
      listAndMore.apply nestedLists 9 "[1[abx" =
        .returned (.failure
          { input := "[abx", message := "input did not begin with \"]\"" }) := by
    cbv
  exact
    ⟨⟨hsuffixes, hsuccess,
        (Grammar.apply_replies_with_suffixes listAndMore nestedLists 9 _).1 hsuffixes _ _
          hsuccess⟩,
      hlocations, hfailure,
      (Grammar.apply_replies_with_suffixes listAndMore nestedLists 9 _).2 hlocations _ hfailure⟩

end Descent
