import Descent.Proofs.Grammar.AtLeastOnce
import Mathlib.Data.List.TakeWhile

/-!
# Runs read character by character

A choice between given characters that is repeated as often as possible reads the longest run of
them, one character at a time.  The outputs are the characters as texts of their own, so joining
them gives the run.
-/

namespace Descent

namespace Parser

theorem gather_characters
    {cs : Text} (hcs : cs ≠ []) {src : Text} {limit : Nat} (hlimit : src.length < limit) :
    (oneOf (characters cs)).gather limit src =
      .returned ((src.takeWhile (CharSet.ofText cs)).map fun c => .text [c],
        src.dropWhile (CharSet.ofText cs)) := by
  induction src generalizing limit with
  | nil =>
      obtain ⟨limit, rfl⟩ := Nat.exists_eq_succ_of_ne_zero (Nat.ne_of_gt hlimit)
      have hhead : ∀ d ∈ ([] : Text).head?, d ∉ cs := by simp
      obtain ⟨message, hfail⟩ := oneOf_characters_of_notMem hcs hhead
      exact gather_of_failure hfail limit
  | cons c src ih =>
      obtain ⟨limit, rfl⟩ := Nat.exists_eq_succ_of_ne_zero (Nat.ne_of_gt (Nat.zero_lt_of_lt hlimit))
      by_cases hc : c ∈ cs
      · have hfirst := oneOf_characters_of_mem hc src
        have hshorter : src.length < limit := by simpa using hlimit
        rw [gather_of_success hfirst (by simp), ih hshorter]
        simp [CharSet.ofText, hc]
      · have hhead : ∀ d ∈ (c :: src).head?, d ∉ cs := by simpa using hc
        obtain ⟨message, hfail⟩ := oneOf_characters_of_notMem hcs hhead
        rw [gather_of_failure hfail]
        simp [CharSet.ofText, hc]

end Parser

theorem Value.join_map_singleton (t : Text) :
    join (.list (t.map fun c => .text [c])) = .ok (.text t) := by
  have hjoin := join_map_text (t.map fun c => [c])
  have hflatten : (t.map fun c => [c]).flatten = t := by
    rw [← List.flatMap_def]
    exact List.flatMap_singleton' t
  rw [List.map_map, hflatten] at hjoin
  exact hjoin

namespace Grammar

variable {cs src rest : Text} {c : CodePoint} {ctx : Context}

theorem run_characters (cs : Text) (ctx : Context) :
    (oneOf (cs.map fun c => literal [c])).run ctx = Parser.oneOf (Parser.characters cs) := by
  simp [run, runAll_eq_map, Parser.characters, Function.comp_def]

theorem run_many_characters (hcs : cs ≠ []) (hlimit : src.length < ctx.limit) :
    (oneOf (cs.map fun c => literal [c])).many.run ctx src =
      .returned (.success (.list ((src.takeWhile (CharSet.ofText cs)).map fun c => .text [c]))
        (src.dropWhile (CharSet.ofText cs))) := by
  have hgather := Parser.gather_characters hcs hlimit
  simp only [run, Parser.many, ← run_characters cs ctx] at hgather ⊢
  simp [hgather]

theorem run_oneOrMore_characters_of_mem
    (hsrc : src = c :: rest) (hc : c ∈ cs) (hlimit : src.length ≤ ctx.limit) :
    (oneOf (cs.map fun c => literal [c])).oneOrMore.run ctx src =
      .returned (.success (.list ((src.takeWhile (CharSet.ofText cs)).map fun c => .text [c]))
        (src.dropWhile (CharSet.ofText cs))) := by
  subst hsrc
  have hfirst : (oneOf (cs.map fun c => literal [c])).run ctx (c :: rest) =
      .returned (.success (.text [c]) rest) := by
    rw [run_characters]
    exact Parser.oneOf_characters_of_mem hc rest
  have hshorter : rest.length < ctx.limit := by simpa using hlimit
  rw [run_oneOrMore_of_success hfirst, run_characters,
    Parser.gather_characters (List.ne_nil_of_mem hc) hshorter]
  simp [CharSet.ofText, hc]

theorem run_oneOrMore_characters_of_notMem
    (hcs : cs ≠ []) (h : ∀ c ∈ src.head?, c ∉ cs) (ctx : Context) :
    ∃ message, (oneOf (cs.map fun c => literal [c])).oneOrMore.run ctx src =
      Parser.failWith message src := by
  obtain ⟨message, hfail⟩ := Parser.oneOf_characters_of_notMem hcs h
  refine ⟨message, ?_⟩
  rw [← run_characters cs ctx] at hfail
  simp only [oneOrMore, run, runAll, Parser.map, Parser.sequence, Parser.collect] at hfail ⊢
  simp [hfail, Parser.failWith]

end Grammar

end Descent
