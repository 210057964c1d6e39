import Descent.Proofs.Grammar.Agreement
import Descent.Proofs.Grammar.Factoring
import Descent.Proofs.Grammar.Result

/-!
# Sequences

A sequence hands the text that one part leaves to the next part.  It matches if all of its parts
do, each on the text that the parts before it have left, and its output has one item for each
part.  Otherwise there is a first part that does not match, the parts before it do, and what that
part comes to is what the sequence comes to, whatever stands behind it.  So a sequence may be split
anywhere: to match the parts in front and then those behind is to match them all.
-/

namespace Descent

namespace Parser

variable {p : Parser} {ps qs : List Parser} {src middle rest : Text} {v : Value} {vs : List Value}

theorem sequence_of_collect (h : collect ps src = .returned (.ok (vs, rest))) :
    sequence ps src = .returned (.success (.list vs) rest) := by
  simp [sequence, h]

theorem sequence_append_cons_of_no_match
    (h : collect ps src = .returned (.ok (vs, middle)))
    (hp : ∀ v rest, p middle ≠ .returned (.success v rest)) (qs : List Parser) :
    sequence (ps ++ p :: qs) src = p middle := by
  simp only [sequence, collect_append, h, collect, Outcome.returned_bind]
  cases hfirst : p middle with
  | returned r =>
      cases r with
      | success v rest => exact absurd hfirst (hp v rest)
      | failure f => rfl
  | raised fault => rfl
  | exhausted => rfl

/-- If not all parts match, there is a first one that does not. -/
theorem exists_first_no_match (h : ∀ x, collect ps src ≠ .returned (.ok x)) :
    ∃ first p later vs middle, ps = first ++ p :: later ∧
      collect first src = .returned (.ok (vs, middle)) ∧
      ∀ v rest, p middle ≠ .returned (.success v rest) := by
  induction ps generalizing src with
  | nil => exact absurd rfl (h ([], src))
  | cons p ps ih =>
      by_cases hp : ∃ v middle, p src = .returned (.success v middle)
      · obtain ⟨v, middle, hp⟩ := hp
        have hothers : ∀ x, collect ps middle ≠ .returned (.ok x) := by
          rintro ⟨vs, rest⟩ hcollect
          exact h (v :: vs, rest) (by simp [collect, hp, hcollect])
        obtain ⟨first, q, later, vs, middle', rfl, hfirst, hq⟩ := ih hothers
        exact ⟨p :: first, q, later, v :: vs, middle', rfl, by simp [collect, hp, hfirst], hq⟩
      · exact ⟨[], p, ps, [], src, rfl, rfl, fun v rest hmatch => hp ⟨v, rest, hmatch⟩⟩

theorem sequence_append (ps qs : List Parser) :
    sequence (ps ++ qs) =
      (sequence ps).flatMap fun xs => (sequence qs).map fun ys => .ofExcept (xs.plus ys) := by
  funext src
  simp only [sequence, flatMap, map, collect_append]
  cases collect ps src with
  | returned r =>
      rcases r with f | ⟨xs, middle⟩
      · rfl
      · simp only [Outcome.returned_bind, Outcome.pure_eq]
        cases collect qs middle with
        | returned r => rcases r with f | ⟨ys, rest⟩ <;> rfl
        | raised fault => rfl
        | exhausted => rfl
  | raised fault => rfl
  | exhausted => rfl

end Parser

/-- The sequence of the first parts, and behind it the sequence of the others, which is put together
when the first one has matched.  The outputs of both are joined. -/
def Part.sequenceInTwo (ps qs : List Part) : Except Fault Grammar := do
  let first ← Part.sequence ps
  (Part.grammar first).flatMap fun xs => do
    let second ← Part.sequence qs
    let joined ← (Part.grammar second).map xs.plus
    return .grammar joined

namespace Grammar

/-! ### From one part to the next -/

/-- The grammars match one after the other, the first one on `src`, and each other one on the text
that the one before it leaves.  The last one leaves `rest`, and there is an output for each. -/
inductive Threads (defs : Definitions) : List Grammar → Text → List Value → Text → Prop
  | done (src : Text) : Threads defs [] src [] src
  | step {g : Grammar} {gs : List Grammar} {src middle rest : Text} {v : Value} {vs : List Value} :
      g.ComesTo defs src (.ok (.success v middle)) → Threads defs gs middle vs rest →
        Threads defs (g :: gs) src (v :: vs) rest

variable {g : Grammar} {gs hs : List Grammar} {defs : Definitions} {src middle rest : Text}
  {v : Value} {vs : List Value} {result : Except Fault Reply}

theorem Threads.length_eq (h : Threads defs gs src vs rest) : vs.length = gs.length := by
  induction h with
  | done => rfl
  | step _ _ ih => simp [ih]

theorem threads_of_collect {limit : Nat}
    (h : Parser.collect (runAll gs (defs.context limit)) src = .returned (.ok (vs, rest))) :
    Threads defs gs src vs rest := by
  induction gs generalizing src vs with
  | nil =>
      obtain ⟨rfl, rfl⟩ : [] = vs ∧ src = rest := by simpa [runAll, Parser.collect] using h
      exact .done src
  | cons g gs ih =>
      obtain ⟨v, middle, vs', hfirst, hothers, rfl⟩ := Parser.collect_cons_cases h
      exact .step ⟨limit, hfirst⟩ (ih hothers)

theorem Threads.exists_bound (h : Threads defs gs src vs rest) :
    ∃ bound, ∀ limit, bound ≤ limit →
      Parser.collect (runAll gs (defs.context limit)) src = .returned (.ok (vs, rest)) := by
  induction h with
  | done src => exact ⟨0, fun _ _ => rfl⟩
  | step hfirst _ ih =>
      obtain ⟨bound, hbound⟩ := hfirst.exists_bound
      obtain ⟨bound', hbound'⟩ := ih
      refine ⟨max bound bound', fun limit hlimit => ?_⟩
      have hmatch := hbound limit (le_of_max_le_left hlimit)
      have hothers := hbound' limit (le_of_max_le_right hlimit)
      rw [apply] at hmatch
      simp [runAll, Parser.collect, hmatch, hothers]

/-! ### What a sequence comes to -/

theorem comesTo_sequence_success_iff :
    (sequence gs).ComesTo defs src (.ok (.success v rest)) ↔
      ∃ vs, v = .list vs ∧ Threads defs gs src vs rest := by
  constructor
  · rintro ⟨limit, hlimit⟩
    obtain ⟨vs, rfl, hcollect⟩ := Parser.of_sequence_eq_success hlimit
    exact ⟨vs, rfl, threads_of_collect hcollect⟩
  · rintro ⟨vs, rfl, hthreads⟩
    obtain ⟨bound, hbound⟩ := hthreads.exists_bound
    exact ⟨bound, Parser.sequence_of_collect (hbound bound (Nat.le_refl _))⟩

theorem ofExcept_ne_success (h : ∀ v rest, result ≠ .ok (.success v rest)) (v : Value)
    (rest : Text) : Outcome.ofExcept result ≠ .returned (.success v rest) := by
  intro hmatch
  have hmatch' : Outcome.ofExcept result = Outcome.ofExcept (.ok (.success v rest)) := hmatch
  exact h v rest (Outcome.ofExcept_injective hmatch')

theorem comesTo_sequence_stop_iff (hresult : ∀ v rest, result ≠ .ok (.success v rest)) :
    (sequence gs).ComesTo defs src result ↔
      ∃ first g later vs middle, gs = first ++ g :: later ∧ Threads defs first src vs middle ∧
        g.ComesTo defs middle result := by
  constructor
  · rintro ⟨limit, hlimit⟩
    have hnone : ∀ x, Parser.collect (runAll gs (defs.context limit)) src ≠ .returned (.ok x) := by
      rintro ⟨vs, rest⟩ hcollect
      have hsuccess := Parser.sequence_of_collect hcollect
      exact ofExcept_ne_success hresult _ _ (hlimit.symm.trans hsuccess)
    obtain ⟨ps, p, qs, vs, middle, hsplit, hps, hp⟩ := Parser.exists_first_no_match hnone
    rw [runAll_eq_map] at hsplit
    obtain ⟨first, others, rfl, rfl, hothers⟩ := List.map_eq_append_iff.mp hsplit
    obtain ⟨g, later, rfl, rfl, rfl⟩ := List.map_eq_cons_iff.mp hothers
    have hstop := Parser.sequence_append_cons_of_no_match hps hp
      (later.map (run · (defs.context limit)))
    rw [← hsplit, ← runAll_eq_map] at hstop
    rw [← runAll_eq_map] at hps
    exact ⟨first, g, later, vs, middle, rfl, threads_of_collect hps, limit, hstop.symm.trans hlimit⟩
  · rintro ⟨first, g, later, vs, middle, rfl, hthreads, hg⟩
    obtain ⟨bound, hbound⟩ := hthreads.exists_bound
    obtain ⟨bound', hbound'⟩ := hg.exists_bound
    have hfirst := hbound (max bound bound') (Nat.le_max_left _ _)
    have hstop := hbound' (max bound bound') (Nat.le_max_right _ _)
    refine ⟨max bound bound', ?_⟩
    rw [apply] at hstop ⊢
    rw [runAll_eq_map] at hfirst
    rw [run_sequence, List.map_append, List.map_cons, ← hstop]
    apply Parser.sequence_append_cons_of_no_match hfirst
    intro v rest hmatch
    exact ofExcept_ne_success hresult v rest (hstop.symm.trans hmatch)

/-- What stands behind parts that do not all match is not applied. -/
theorem apply_sequence_append_of_not_threads
    (h : ∀ vs middle, ¬ Threads defs gs src vs middle) (hs : List Grammar) (limit : Nat) :
    (sequence (gs ++ hs)).apply defs limit src = (sequence gs).apply defs limit src := by
  have hnone : ∀ x, Parser.collect (runAll gs (defs.context limit)) src ≠ .returned (.ok x) :=
    fun x hcollect => h x.1 x.2 (threads_of_collect hcollect)
  simp only [runAll_eq_map] at hnone
  simp only [apply, run_sequence, List.map_append]
  exact Parser.sequence_append_of_sequence hnone _

theorem sequence_append_agrees (gs hs : List Grammar) :
    (sequence (gs ++ hs)).Agrees
      ((sequence gs).flatMap fun xs => (sequence hs).map xs.plus) := by
  intro ctx
  rw [run_sequence, List.map_append, Parser.sequence_append]
  simp only [run, runAll_eq_map]

theorem sequenceInTwo_map_grammar (hgs : 2 ≤ gs.length) (hhs : 2 ≤ hs.length) :
    Part.sequenceInTwo (gs.map .grammar) (hs.map .grammar) =
      .ok ((sequence gs).flatMap fun xs => (sequence hs).map xs.plus) := by
  rw [Part.sequenceInTwo, sequence_map_grammar hgs, sequence_map_grammar hhs]
  rfl

/-- A sequence of at least two grammars matches exactly if each of them matches the text that those
before it leave, and then it outputs the list of their outputs.  It comes to anything else exactly
if the grammars in front of one of them match and that one comes to it.  If they do not match, what
stands behind them makes no difference, even if it raises or does not end.  And a sequence may be
split in two, of which the second one is put together once the first one has matched: joined, their
outputs are those of the whole sequence. -/
theorem sequence_threads_and_splits
    {gs hs : List Grammar} (hgs : 2 ≤ gs.length) (hhs : 2 ≤ hs.length) :
    Part.sequence (gs.map .grammar) = .ok (sequence gs) ∧
    (∀ defs src v rest, (sequence gs).ComesTo defs src (.ok (.success v rest)) ↔
      ∃ vs, v = .list vs ∧ vs.length = gs.length ∧ Threads defs gs src vs rest) ∧
    (∀ defs src result, (∀ v rest, result ≠ .ok (.success v rest)) →
      ((sequence gs).ComesTo defs src result ↔
        ∃ first g later vs middle, gs = first ++ g :: later ∧ Threads defs first src vs middle ∧
          g.ComesTo defs middle result)) ∧
    (∀ defs src first, (∀ vs middle, ¬ Threads defs first src vs middle) →
      ∀ others others' limit, (sequence (first ++ others)).apply defs limit src =
        (sequence (first ++ others')).apply defs limit src) ∧
    BuiltAlike (Part.sequence ((gs ++ hs).map .grammar))
      (Part.sequenceInTwo (gs.map .grammar) (hs.map .grammar)) := by
  refine ⟨sequence_map_grammar hgs, ?_, ?_, ?_, ?_⟩
  · intro defs src v rest
    rw [comesTo_sequence_success_iff]
    constructor
    · rintro ⟨vs, hv, hthreads⟩
      exact ⟨vs, hv, hthreads.length_eq, hthreads⟩
    · rintro ⟨vs, hv, -, hthreads⟩
      exact ⟨vs, hv, hthreads⟩
  · intro defs src result hresult
    exact comesTo_sequence_stop_iff hresult
  · intro defs src first hfirst others others' limit
    rw [apply_sequence_append_of_not_threads hfirst others,
      apply_sequence_append_of_not_threads hfirst others']
  · have hall : 2 ≤ (gs ++ hs).length := by
      rw [List.length_append]
      omega
    rw [sequence_map_grammar hall, sequenceInTwo_map_grammar hgs hhs]
    exact .built (sequence_append_agrees gs hs)

def leadingLetters : List Grammar := [literal "a", (literal "b").optional]

def trailingLetters : List Grammar := [literal "c", any]

theorem sequence_threads_and_splits_letters :
    2 ≤ leadingLetters.length ∧ 2 ≤ trailingLetters.length ∧
    (sequence leadingLetters).ComesTo [] "acdx"
      (.ok (.success (.list [.text "a", .nothing]) "cdx")) ∧
    (sequence leadingLetters).ComesTo [] "bc"
      (.ok (.failure { input := "bc", message := "input did not begin with \"a\"" })) ∧
    ∃ g, Part.sequenceInTwo (leadingLetters.map .grammar) (trailingLetters.map .grammar) = .ok g ∧
      g.apply [] 0 "acdx" =
        .returned (.success (.list [.text "a", .nothing, .text "c", .text "d"]) "x") := by
  have hleading : 2 ≤ leadingLetters.length := by simp [leadingLetters]
  have htrailing : 2 ≤ trailingLetters.length := by simp [trailingLetters]
  obtain ⟨-, hsuccess, hstop, -, hsplit⟩ := sequence_threads_and_splits hleading htrailing
  have hthreads : Threads [] leadingLetters "acdx" [.text "a", .nothing] "cdx" :=
    .step ⟨0, rfl⟩ (.step ⟨0, rfl⟩ (.done _))
  refine ⟨hleading, htrailing, (hsuccess _ _ _ _).mpr ⟨_, rfl, rfl, hthreads⟩, ?_, ?_⟩
  · apply (hstop _ _ _ (by simp)).mpr
    exact ⟨[], literal "a", [(literal "b").optional], [], "bc", rfl, .done _, 0, rfl⟩
  · have hall : 2 ≤ (leadingLetters ++ trailingLetters).length := by
      simp [leadingLetters, trailingLetters]
    rw [sequence_map_grammar hall] at hsplit
    rw [sequenceInTwo_map_grammar hleading htrailing] at hsplit ⊢
    cases hsplit with
    | built hagrees =>
        refine ⟨_, rfl, ?_⟩
        rw [← hagrees.apply_eq]
        rfl

end Grammar

end Descent
