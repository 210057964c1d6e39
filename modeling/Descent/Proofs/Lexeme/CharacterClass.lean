import Descent.Proofs.Lexeme.Blank
import Descent.Proofs.Lexeme.Characters
import Descent.Proofs.Pattern.CharacterClass
import Descent.Proofs.Text.LongestPrefix

/-!
# Classes of given characters

A class matches the characters that it is built from and no others, whatever they mean in a written
pattern.  A repetition behind it reads the longest run of them, or a run of a given length.  The
runs are those that a repeated choice between the characters reads one by one, and the only
difference is the message of a failure.
-/

namespace Descent

open Text

/-- The same match, or failures on the same input. -/
inductive Reply.Alike : Reply → Reply → Prop
  | success (v : Value) (rest : Text) : Alike (.success v rest) (.success v rest)
  | failure (input message message' : Text) :
      Alike (.failure { input, message }) (.failure { input, message := message' })

theorem Part.toGrammars_characters (cs : Text) :
    toGrammars (cs.map fun c => Part.text [c]) = .ok (cs.map fun c => .literal [c]) := by
  induction cs with
  | nil => rfl
  | cons c cs ih =>
      rw [List.map_cons, toGrammars, ih]
      rfl

theorem Part.oneOf_characters {cs : Text} (h : 2 ≤ cs.length) :
    Part.oneOf (cs.map fun c => Part.text [c]) = .ok (.oneOf (cs.map fun c => .literal [c])) := by
  have hmany : ¬ (cs.map fun c => Part.text [c]).length < 2 := by
    rw [List.length_map]
    omega
  rw [Part.oneOf, atLeastTwo, if_neg hmany, toGrammars_characters]
  rfl

namespace Grammar

variable {cs : Text}

/-- On every text, both grammars reply and the replies are alike. -/
def RepliesLike (g h : Grammar) : Prop :=
  ∀ defs src, ∃ r r', g.ComesTo defs src (.ok r) ∧ h.ComesTo defs src (.ok r') ∧ r.Alike r'

/-! ### Building -/

theorem charClass_of_read {repetition : Text} {p : Pattern}
    (h : Pattern.read {} ("[" ++ Pattern.escape cs ++ "]" ++ repetition) = .ok p) :
    charClass cs repetition = .ok (.pattern p) := by
  rw [charClass, h]
  rfl

theorem charClass_once (hcs : cs ≠ []) : charClass cs "" = .ok (.pattern (.oneOf cs)) :=
  charClass_of_read (Pattern.read_class hcs)

theorem charClass_star (hcs : cs ≠ []) : charClass cs "*" = .ok (manyOf cs) := by
  have hstar : Pattern.repetition? [.plain '*'] = some (⟨0, none⟩, []) := rfl
  exact charClass_of_read (Pattern.read_class_repetition hcs rfl hstar rfl)

theorem charClass_plus (hcs : cs ≠ []) : charClass cs "+" = .ok (someOf cs) := by
  have hplus : Pattern.repetition? [.plain '+'] = some (⟨1, none⟩, []) := rfl
  exact charClass_of_read (Pattern.read_class_repetition hcs rfl hplus rfl)

theorem charClass_times (hcs : cs ≠ []) (n : Nat) :
    charClass cs ("\x7b" ++ Text.ofNat n ++ "\x7d") =
      .ok (.pattern (.iterate (.oneOf cs) n (some n) .greedy)) := by
  have hbounds : (some n).all (n ≤ ·) := by simp
  exact charClass_of_read
    (Pattern.read_class_repetition hcs (Pattern.marks?_times n) (Pattern.repetition?_times n) hbounds)

/-- The runs of blanks are classes, which could be written as such. -/
theorem charClass_blank :
    charClass Alphabet.blank "+" = .ok whitespace ∧
      charClass Alphabet.blank "*" = .ok optionalWhitespace := by
  have hblank : Alphabet.blank ≠ [] := by decide
  exact ⟨charClass_plus hblank, charClass_star hblank⟩

/-! ### Runs -/

theorem run_pattern_times (cs : Text) (n : Nat) (ctx : Context) (src : Text) :
    (pattern (.iterate (.oneOf cs) n (some n) .greedy)).run ctx src =
      if n ≤ src.length ∧ Only cs (src.take n) then
        .returned (.success (.text (src.take n)) (src.drop n))
      else Parser.failWith "input did not match regular expression" src := by
  simp only [run, Parser.pattern, Pattern.matchStart?_iterate_oneOf]
  split_ifs <;> rfl

theorem manyOf_repliesLike (hcs : cs ≠ []) :
    (manyOf cs).RepliesLike ((oneOf (cs.map fun c => literal [c])).many.map Value.join) := by
  intro defs src
  have hlimit : src.length < (defs.context (src.length + 1)).limit := Nat.lt_succ_self _
  have hloop := run_many_characters hcs hlimit
  refine ⟨_, _, ⟨0, run_manyOf cs _ src⟩, ⟨src.length + 1, ?_⟩, .success _ _⟩
  rw [apply, run, Parser.map, hloop]
  simp [Value.join_map_singleton]

theorem someOf_repliesLike (hcs : cs ≠ []) :
    (someOf cs).RepliesLike ((oneOf (cs.map fun c => literal [c])).oneOrMore.map Value.join) := by
  intro defs src
  have hsome := run_someOf cs (defs.context 0) src
  by_cases hhead : ∀ c ∈ src.head?, c ∉ cs
  · obtain ⟨message, hloop⟩ :=
      run_oneOrMore_characters_of_notMem hcs hhead (defs.context (src.length + 1))
    have hnone : src.takeWhile (CharSet.ofText cs) = [] := by
      cases src with
      | nil => rfl
      | cons c rest =>
          have hc : c ∉ cs := hhead c rfl
          simp [CharSet.ofText, hc]
    rw [if_pos hnone] at hsome
    refine ⟨_, _, ⟨0, hsome⟩, ⟨src.length + 1, ?_⟩, .failure src _ message⟩
    rw [apply, run, Parser.map, hloop]
    rfl
  · obtain ⟨c, rest, hsrc, hc⟩ : ∃ c rest, src = c :: rest ∧ c ∈ cs := by
      cases src with
      | nil => simp at hhead
      | cons c rest => exact ⟨c, rest, rfl, by simpa using hhead⟩
    have hlimit : src.length ≤ (defs.context (src.length + 1)).limit := Nat.le_succ _
    have hloop := run_oneOrMore_characters_of_mem hsrc hc hlimit
    have hsome_mem : src.takeWhile (CharSet.ofText cs) ≠ [] := by
      simp [hsrc, CharSet.ofText, hc]
    rw [if_neg hsome_mem] at hsome
    refine ⟨_, _, ⟨0, hsome⟩, ⟨src.length + 1, ?_⟩, .success _ _⟩
    rw [apply, run, Parser.map, hloop]
    simp [Value.join_map_singleton]

/-- Whatever characters a class is built from, it can be built, alone or with a repetition, and it
matches these characters and no others.  Repetitions read the longest run or exactly as many
characters as they ask for.  A choice between the characters, of which there must be at least two,
reads the same runs. -/
theorem charClass_matches_literally (hcs : cs ≠ []) :
    (∃ one star plus,
      charClass cs "" = .ok one ∧ charClass cs "*" = .ok star ∧ charClass cs "+" = .ok plus ∧
      (∀ defs limit src,
        (∀ c rest, src = c :: rest → c ∈ cs →
          one.apply defs limit src = .returned (.success (.text [c]) rest)) ∧
        ((∀ c ∈ src.head?, c ∉ cs) →
          one.apply defs limit src =
            Parser.failWith "input did not match regular expression" src) ∧
        ∃ longest rest, src = longest ++ rest ∧ IsLongestPrefix (Only cs) longest src ∧
          star.apply defs limit src = .returned (.success (.text longest) rest) ∧
          plus.apply defs limit src =
            if longest = [] then Parser.failWith "input did not match regular expression" src
            else .returned (.success (.text longest) rest)) ∧
      (2 ≤ cs.length → ∃ choice, Part.oneOf (cs.map fun c => Part.text [c]) = .ok choice ∧
        star.RepliesLike (choice.many.map Value.join) ∧
        plus.RepliesLike (choice.oneOrMore.map Value.join))) ∧
    ∀ n, ∃ times, charClass cs ("\x7b" ++ Text.ofNat n ++ "\x7d") = .ok times ∧
      ∀ defs limit src,
        times.apply defs limit src =
          if n ≤ src.length ∧ Only cs (src.take n) then
            .returned (.success (.text (src.take n)) (src.drop n))
          else Parser.failWith "input did not match regular expression" src := by
  constructor
  · refine ⟨_, _, _, charClass_once hcs, charClass_star hcs, charClass_plus hcs, ?_, ?_⟩
    · intro defs limit src
      refine ⟨?_, fun h => run_pattern_oneOf_of_notMem h _, ?_⟩
      · rintro c rest rfl hc
        exact run_pattern_oneOf_of_mem hc rest _
      · exact ⟨_, _, List.takeWhile_append_dropWhile.symm, isLongestPrefix_takeWhile cs src,
          run_manyOf cs _ src, run_someOf cs _ src⟩
    · intro htwo
      exact ⟨_, Part.oneOf_characters htwo, manyOf_repliesLike hcs, someOf_repliesLike hcs⟩
  · intro n
    exact ⟨_, charClass_times hcs n, fun defs limit src => run_pattern_times cs n _ src⟩

theorem charClass_matches_literally_marks :
    ("]^-\\" : Text) ≠ [] ∧
    (∃ plus choice,
      charClass "]^-\\" "+" = .ok plus ∧
      plus.apply [] 0 "^-\\]a" = .returned (.success (.text "^-\\]") "a") ∧
      Part.oneOf (("]^-\\" : Text).map fun c => Part.text [c]) = .ok choice ∧
      plus.RepliesLike (choice.oneOrMore.map Value.join)) ∧
    ∃ times, charClass "]^-\\" ("\x7b" ++ Text.ofNat 2 ++ "\x7d") = .ok times ∧
      times.apply [] 0 "^-\\]a" = .returned (.success (.text "^-") "\\]a") := by
  have hne : ("]^-\\" : Text) ≠ [] := by decide
  obtain ⟨⟨one, star, plus, -, -, hplus, hreplies, hchoice⟩, htimes⟩ :=
    charClass_matches_literally hne
  refine ⟨hne, ?_, ?_⟩
  · obtain ⟨choice, hbuilt, -, hlike⟩ := hchoice (by decide)
    refine ⟨plus, choice, hplus, ?_, hbuilt, hlike⟩
    obtain ⟨-, -, longest, rest, hsrc, hlongest, -, hrun⟩ := hreplies [] 0 "^-\\]a"
    have hsplit : ("^-\\]a" : Text) = "^-\\]" ++ "a" := rfl
    have hwritten : IsLongestPrefix (Only "]^-\\") "^-\\]" "^-\\]a" :=
      ((continuesBy_only _).isLongestPrefix_iff hsplit).mpr (by decide)
    obtain rfl := hlongest.unique hwritten
    rw [hsplit] at hsrc
    obtain rfl := List.append_cancel_left hsrc
    exact hrun
  · obtain ⟨times, hbuilt, hrun⟩ := htimes 2
    exact ⟨times, hbuilt, hrun [] 0 "^-\\]a"⟩

end Grammar

end Descent
