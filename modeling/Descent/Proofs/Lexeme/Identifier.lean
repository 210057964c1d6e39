import Descent.Grammar.Definitions
import Descent.Lexeme.Identifier
import Descent.Proofs.Lexeme.Blank
import Descent.Proofs.Parser.Choice
import Descent.Proofs.Text.LongestPrefix

/-!
# Reserved words

A reserved word is looked for on its own, as a text that no identifier character follows, and not in
the identifier that was read.  If the word is an identifier, this comes to the same: such a text is
the longest identifier at the beginning.  So words that are prefixes of each other or of the
identifier do no harm, and it does not matter how many words there are.
-/

namespace Descent

namespace Text

open Alphabet (identifierStart identifierContinue)

variable {t w src rest : Text} {c : CodePoint}

/-- A letter or an underscore, with letters, underscores and digits behind it. -/
def IsIdentifier (t : Text) : Prop :=
  ∃ c cs, t = c :: cs ∧ c ∈ identifierStart ∧ Only identifierContinue cs

/-- The text begins with the word, and no identifier character follows. -/
def BeginsWithWord (w src : Text) : Prop :=
  ∃ rest, src = w ++ rest ∧ ∀ c ∈ rest.head?, c ∉ identifierContinue

theorem continuesBy_isIdentifier : ContinuesBy IsIdentifier identifierContinue where
  only := by
    rintro t ⟨c, cs, rfl, hc, hcs⟩ d hd
    rcases List.mem_cons.mp hd with rfl | hd
    · exact List.mem_append_left _ hc
    · exact hcs d hd
  snoc := by
    rintro t ⟨c, cs, rfl, hc, hcs⟩ d hd
    exact ⟨c, cs ++ [d], rfl, hc, (continuesBy_only _).snoc cs hcs d hd⟩

theorem isLongestPrefix_isIdentifier_iff (hw : IsIdentifier w) :
    IsLongestPrefix IsIdentifier w src ↔ BeginsWithWord w src := by
  constructor
  · intro h
    obtain ⟨rest, hrest⟩ := h.isPrefix
    exact ⟨rest, hrest.symm, ((continuesBy_isIdentifier.isLongestPrefix_iff hrest.symm).mp h).2⟩
  · rintro ⟨rest, hsrc, hnext⟩
    exact (continuesBy_isIdentifier.isLongestPrefix_iff hsrc).mpr ⟨hw, hnext⟩

theorem isLongestPrefix_identifier (hc : c ∈ identifierStart) (rest : Text) :
    IsLongestPrefix IsIdentifier (c :: rest.takeWhile (CharSet.ofText identifierContinue))
      (c :: rest) := by
  have hrun := isLongestPrefix_takeWhile identifierContinue rest
  obtain ⟨after, hafter⟩ := hrun.isPrefix
  have hnext := (((continuesBy_only _).isLongestPrefix_iff hafter.symm).mp hrun).2
  have hidentifier : IsIdentifier (c :: rest.takeWhile (CharSet.ofText identifierContinue)) :=
    ⟨c, _, rfl, hc, hrun.mem⟩
  exact (isLongestPrefix_isIdentifier_iff hidentifier).mpr ⟨after, by simp [hafter], hnext⟩

end Text

namespace Grammar

open Text

variable {t w src rest : Text} {words : List Text}

/-! ### Identifiers -/

theorem run_identifier_of_isLongestPrefix
    (hsrc : src = t ++ rest) (ht : IsLongestPrefix IsIdentifier t src) (ctx : Context) :
    identifier.run ctx src = .returned (.success (.text t) rest) := by
  obtain ⟨c, cs, htext, hc, -⟩ := ht.mem
  have hmatch := Pattern.matchStart?_set_zeroOrMore_cons (CharSet.ofText Alphabet.identifierStart)
    (CharSet.ofText Alphabet.identifierContinue) c (cs ++ rest)
  rw [if_pos (by simpa [CharSet.ofText] using hc)] at hmatch
  have hbegins : src = c :: (cs ++ rest) := by rw [hsrc, htext, List.cons_append]
  -- What the pattern reads is a longest identifier too, and there is only one.
  have hlongest := isLongestPrefix_identifier hc (cs ++ rest)
  rw [← hbegins] at hlongest
  have hread := hlongest.unique ht
  have hrest : t ++ (cs ++ rest).dropWhile (CharSet.ofText Alphabet.identifierContinue) =
      t ++ rest := by
    rw [← hread, List.cons_append, List.takeWhile_append_dropWhile, ← hbegins, hsrc, hread]
  rw [hread, List.append_cancel_left hrest, ← hbegins] at hmatch
  simp [identifier, run, Parser.pattern, Pattern.oneOf, hmatch]

theorem run_identifier_of_none
    (h : ∀ t, ¬ IsLongestPrefix IsIdentifier t src) (ctx : Context) :
    identifier.run ctx src = Parser.failWith "input did not match regular expression" src := by
  cases src with
  | nil => rfl
  | cons c rest =>
      have hc : c ∉ Alphabet.identifierStart := by
        intro hc
        exact h _ (isLongestPrefix_identifier hc rest)
      have hmatch := Pattern.matchStart?_set_zeroOrMore_cons
        (CharSet.ofText Alphabet.identifierStart) (CharSet.ofText Alphabet.identifierContinue) c rest
      rw [if_neg (by simpa [CharSet.ofText] using hc)] at hmatch
      simp [identifier, run, Parser.pattern, Pattern.oneOf, hmatch]

/-! ### Words -/

theorem run_keyword_of_word
    (hsrc : src = w ++ rest) (h : ∀ c ∈ rest.head?, c ∉ Alphabet.identifierContinue)
    (ctx : Context) : (keyword w).run ctx src = .returned (.success (.text w) rest) := by
  have hword := Parser.literal_append w rest
  have hfollower := run_pattern_oneOf_of_notMem h ctx
  simp only [run] at hfollower
  simp [keyword, run, Parser.lookaheadNot, hsrc, hword, hfollower, Parser.failWith, Reply.isSuccess]

theorem run_keyword_of_no_word (h : ¬ BeginsWithWord w src) (ctx : Context) :
    ∃ message, (keyword w).run ctx src = Parser.failWith message src := by
  by_cases hprefix : w <+: src
  · obtain ⟨rest, rfl⟩ := hprefix
    obtain ⟨c, after, rfl, hc⟩ : ∃ c after, rest = c :: after ∧ c ∈ Alphabet.identifierContinue := by
      by_contra hnone
      refine h ⟨rest, rfl, fun c hc hmem => hnone ?_⟩
      obtain ⟨after, rfl⟩ := List.head?_eq_some_iff.mp hc
      exact ⟨c, after, rfl, hmem⟩
    have hword := Parser.literal_append w (c :: after)
    have hfollower := run_pattern_oneOf_of_mem hc after ctx
    simp only [run] at hfollower
    refine ⟨"input was unexpectedly followed by an identifier character", ?_⟩
    simp only [keyword, run, Parser.lookaheadNot, hword, hfollower, Outcome.returned_bind]
    rfl
  · have hword := Parser.literal_of_not_prefix hprefix
    refine ⟨"input did not begin with \"" ++ w ++ "\"", ?_⟩
    simp only [keyword, run, Parser.lookaheadNot, hword]
    rfl

theorem run_keyword_eq_success_iff {ctx : Context} {v : Value} :
    (keyword w).run ctx src = .returned (.success v rest) ↔
      v = .text w ∧ src = w ++ rest ∧ ∀ c ∈ rest.head?, c ∉ Alphabet.identifierContinue := by
  constructor
  · intro h
    by_cases hbegins : BeginsWithWord w src
    · obtain ⟨after, hsrc, hnext⟩ := hbegins
      rw [run_keyword_of_word hsrc hnext] at h
      obtain ⟨rfl, rfl⟩ : .text w = v ∧ after = rest := by simpa using h
      exact ⟨rfl, hsrc, hnext⟩
    · obtain ⟨message, hfail⟩ := run_keyword_of_no_word hbegins ctx
      simp [hfail, Parser.failWith] at h
  · rintro ⟨rfl, hsrc, hnext⟩
    exact run_keyword_of_word hsrc hnext ctx

theorem run_keyword_returns (w : Text) (ctx : Context) (src : Text) :
    ∃ r, (keyword w).run ctx src = .returned r := by
  by_cases hbegins : BeginsWithWord w src
  · obtain ⟨rest, hsrc, hnext⟩ := hbegins
    exact ⟨_, run_keyword_of_word hsrc hnext ctx⟩
  · obtain ⟨message, hfail⟩ := run_keyword_of_no_word hbegins ctx
    exact ⟨_, hfail⟩

theorem run_reserved (words : List Text) (ctx : Context) :
    (reserved words).run ctx = Parser.oneOf (words.map fun w => (keyword w).run ctx) := by
  have hchoice : (oneOf (words.map keyword)).run ctx =
      Parser.oneOf (words.map fun w => (keyword w).run ctx) := by
    simp [run, runAll_eq_map, Function.comp_def]
  cases words with
  | nil => exact hchoice
  | cons w words =>
      cases words with
      | nil => rfl
      | cons w' words => exact hchoice

/-- The choice between the words matches if the text begins with one of them. -/
theorem exists_run_reserved_eq_returned (hne : words ≠ []) (ctx : Context) (src : Text) :
    ∃ r, (reserved words).run ctx src = .returned r ∧
      (r.isSuccess ↔ ∃ w ∈ words, BeginsWithWord w src) := by
  have hparsers : (words.map fun w => (keyword w).run ctx) ≠ [] := by simpa using hne
  have hreturns : ∀ p ∈ words.map fun w => (keyword w).run ctx, ∃ r, p src = .returned r := by
    intro p hp
    obtain ⟨w, -, rfl⟩ := List.mem_map.mp hp
    exact run_keyword_returns w ctx src
  obtain ⟨r, hr, hmatches⟩ := Parser.exists_oneOf_eq_returned hparsers hreturns
  rw [← run_reserved] at hr
  refine ⟨r, hr, hmatches.trans ?_⟩
  simp [run_keyword_eq_success_iff, BeginsWithWord]

/-! ### Identifiers that are no words -/

theorem identifierExcept_of_ne_nil (hne : words ≠ []) :
    identifierExcept words = .ok (identifier.butNot (reserved words) "a reserved word") := by
  have hsome : ¬ words.isEmpty = true := by simpa using hne
  rw [identifierExcept, if_neg hsome]
  rfl

theorem run_butNot_reserved_of_word
    (hne : words ≠ []) (ht : IsLongestPrefix IsIdentifier t src)
    (h : ∃ w ∈ words, BeginsWithWord w src) (ctx : Context) :
    (identifier.butNot (reserved words) "a reserved word").run ctx src =
      Parser.failWith "input was unexpectedly a reserved word" src := by
  obtain ⟨rest, hsrc⟩ := ht.isPrefix
  have hidentifier := run_identifier_of_isLongestPrefix hsrc.symm ht ctx
  obtain ⟨r, hreserved, hmatches⟩ := exists_run_reserved_eq_returned hne ctx src
  have hmatch : r.isSuccess = true := hmatches.mpr h
  simp only [run, Parser.butNot, hidentifier, hreserved, Outcome.returned_bind, hmatch, if_true]
  rfl

theorem run_butNot_reserved_of_no_word
    (hne : words ≠ []) (hsrc : src = t ++ rest) (ht : IsLongestPrefix IsIdentifier t src)
    (h : ¬ ∃ w ∈ words, BeginsWithWord w src) (ctx : Context) :
    (identifier.butNot (reserved words) "a reserved word").run ctx src =
      .returned (.success (.text t) rest) := by
  have hidentifier := run_identifier_of_isLongestPrefix hsrc ht ctx
  obtain ⟨r, hreserved, hmatches⟩ := exists_run_reserved_eq_returned hne ctx src
  have hnone : r.isSuccess = false := by simpa using mt hmatches.mp h
  simp [run, Parser.butNot, hidentifier, hreserved, hnone]

theorem run_butNot_reserved_of_none
    (h : ∀ t, ¬ IsLongestPrefix IsIdentifier t src) (words : List Text) (ctx : Context) :
    (identifier.butNot (reserved words) "a reserved word").run ctx src =
      Parser.failWith "input did not match regular expression" src := by
  have hidentifier := run_identifier_of_none h ctx
  simp only [run, Parser.butNot, hidentifier]
  rfl

theorem run_butNot_reserved_cases (hne : words ≠ []) (ctx : Context) (src : Text) :
    (∃ t rest, src = t ++ rest ∧ IsLongestPrefix IsIdentifier t src ∧
      (¬ ∃ w ∈ words, BeginsWithWord w src) ∧
      (identifier.butNot (reserved words) "a reserved word").run ctx src =
        .returned (.success (.text t) rest)) ∨
    (∃ t, IsLongestPrefix IsIdentifier t src ∧ (∃ w ∈ words, BeginsWithWord w src) ∧
      (identifier.butNot (reserved words) "a reserved word").run ctx src =
        Parser.failWith "input was unexpectedly a reserved word" src) ∨
    (identifier.butNot (reserved words) "a reserved word").run ctx src =
      Parser.failWith "input did not match regular expression" src := by
  by_cases hlongest : ∃ t, IsLongestPrefix IsIdentifier t src
  · obtain ⟨t, ht⟩ := hlongest
    obtain ⟨rest, hsrc⟩ := ht.isPrefix
    by_cases hwords : ∃ w ∈ words, BeginsWithWord w src
    · exact .inr (.inl ⟨t, ht, hwords, run_butNot_reserved_of_word hne ht hwords ctx⟩)
    · have hrun := run_butNot_reserved_of_no_word hne hsrc.symm ht hwords ctx
      exact .inl ⟨t, rest, hsrc.symm, ht, hwords, hrun⟩
  · exact .inr (.inr (run_butNot_reserved_of_none (not_exists.mp hlongest) words ctx))

theorem run_butNot_reserved_eq_success_iff {ctx : Context} {v : Value} (hne : words ≠ []) :
    (identifier.butNot (reserved words) "a reserved word").run ctx src =
        .returned (.success v rest) ↔
      ∃ t, v = .text t ∧ src = t ++ rest ∧ IsLongestPrefix IsIdentifier t src ∧
        ¬ ∃ w ∈ words, BeginsWithWord w src := by
  constructor
  · intro h
    rcases run_butNot_reserved_cases hne ctx src with
      ⟨t, after, hsrc, ht, hwords, hrun⟩ | ⟨t, ht, hwords, hrun⟩ | hrun
    · rw [hrun] at h
      obtain ⟨rfl, rfl⟩ : .text t = v ∧ after = rest := by simpa using h
      exact ⟨t, rfl, hsrc, ht, hwords⟩
    · simp [hrun, Parser.failWith] at h
    · simp [hrun, Parser.failWith] at h
  · rintro ⟨t, rfl, hsrc, ht, hwords⟩
    exact run_butNot_reserved_of_no_word hne hsrc ht hwords ctx

theorem run_butNot_reserved_eq_reserved_iff {ctx : Context} (hne : words ≠ []) :
    (identifier.butNot (reserved words) "a reserved word").run ctx src =
        Parser.failWith "input was unexpectedly a reserved word" src ↔
      (∃ t, IsLongestPrefix IsIdentifier t src) ∧ ∃ w ∈ words, BeginsWithWord w src := by
  constructor
  · intro h
    rcases run_butNot_reserved_cases hne ctx src with
      ⟨t, after, hsrc, ht, hwords, hrun⟩ | ⟨t, ht, hwords, hrun⟩ | hrun
    · simp [hrun, Parser.failWith] at h
    · exact ⟨⟨t, ht⟩, hwords⟩
    · have hmessage : ("input did not match regular expression" : Text) ≠
          "input was unexpectedly a reserved word" := by decide
      simp [hrun, Parser.failWith, hmessage] at h
  · rintro ⟨⟨t, ht⟩, hwords⟩
    exact run_butNot_reserved_of_word hne ht hwords ctx

theorem exists_beginsWithWord_iff_mem
    (hwords : ∀ w ∈ words, IsIdentifier w) (ht : IsLongestPrefix IsIdentifier t src) :
    (∃ w ∈ words, BeginsWithWord w src) ↔ t ∈ words := by
  constructor
  · rintro ⟨w, hw, hbegins⟩
    have hlongest := (isLongestPrefix_isIdentifier_iff (hwords w hw)).mpr hbegins
    obtain rfl := ht.unique hlongest
    exact hw
  · intro hmem
    exact ⟨t, hmem, (isLongestPrefix_isIdentifier_iff ht.mem).mp ht⟩

/-- A reserved word that is an identifier is matched if and only if it is the longest identifier at
the beginning.  Identifiers other than given words can be asked for, however many words there are.
An identifier is refused if the text begins with one of the words and no identifier character
follows.  If the words are identifiers, this means that it is one of them.  Without an identifier
the failure is the one of identifiers. -/
theorem reserved_words_are_whole_identifiers :
    (∀ w, IsIdentifier w → ∀ defs limit src,
      (∀ v rest, (keyword w).apply defs limit src = .returned (.success v rest) ↔
        v = .text w ∧ src = w ++ rest ∧ IsLongestPrefix IsIdentifier w src) ∧
      (¬ IsLongestPrefix IsIdentifier w src →
        ∃ message, (keyword w).apply defs limit src = Parser.failWith message src)) ∧
    ∀ words, words ≠ [] → ∃ name, identifierExcept words = .ok name ∧ ∀ defs limit src,
      ((∀ t, ¬ IsLongestPrefix IsIdentifier t src) →
        identifier.apply defs limit src =
            Parser.failWith "input did not match regular expression" src ∧
          name.apply defs limit src = identifier.apply defs limit src) ∧
      (∀ v rest, name.apply defs limit src = .returned (.success v rest) ↔
        ∃ t, v = .text t ∧ src = t ++ rest ∧ IsLongestPrefix IsIdentifier t src ∧
          ¬ ∃ w ∈ words, BeginsWithWord w src) ∧
      (name.apply defs limit src =
          Parser.failWith "input was unexpectedly a reserved word" src ↔
        (∃ t, IsLongestPrefix IsIdentifier t src) ∧ ∃ w ∈ words, BeginsWithWord w src) ∧
      ((∀ w ∈ words, IsIdentifier w) →
        (∀ v rest, name.apply defs limit src = .returned (.success v rest) ↔
          ∃ t, v = .text t ∧ src = t ++ rest ∧ IsLongestPrefix IsIdentifier t src ∧ t ∉ words) ∧
        (name.apply defs limit src =
            Parser.failWith "input was unexpectedly a reserved word" src ↔
          ∃ t ∈ words, IsLongestPrefix IsIdentifier t src)) := by
  constructor
  · intro w hw defs limit src
    refine ⟨?_, ?_⟩
    · intro v rest
      rw [apply, run_keyword_eq_success_iff]
      constructor
      · rintro ⟨hv, hsrc, hnext⟩
        exact ⟨hv, hsrc, (isLongestPrefix_isIdentifier_iff hw).mpr ⟨rest, hsrc, hnext⟩⟩
      · rintro ⟨hv, hsrc, hlongest⟩
        exact ⟨hv, hsrc, ((continuesBy_isIdentifier.isLongestPrefix_iff hsrc).mp hlongest).2⟩
    · rw [isLongestPrefix_isIdentifier_iff hw]
      exact fun hnone => run_keyword_of_no_word hnone _
  · intro words hne
    refine ⟨_, identifierExcept_of_ne_nil hne, fun defs limit src => ⟨?_, ?_, ?_, ?_⟩⟩
    · intro hnone
      have hidentifier := run_identifier_of_none hnone (defs.context limit)
      exact ⟨hidentifier, (run_butNot_reserved_of_none hnone words _).trans hidentifier.symm⟩
    · exact fun v rest => run_butNot_reserved_eq_success_iff hne
    · exact run_butNot_reserved_eq_reserved_iff hne
    · intro hwords
      refine ⟨?_, ?_⟩
      · intro v rest
        rw [apply, run_butNot_reserved_eq_success_iff hne]
        constructor
        · rintro ⟨t, hv, hsrc, ht, hnone⟩
          exact ⟨t, hv, hsrc, ht, mt (exists_beginsWithWord_iff_mem hwords ht).mpr hnone⟩
        · rintro ⟨t, hv, hsrc, ht, hnotMem⟩
          exact ⟨t, hv, hsrc, ht, mt (exists_beginsWithWord_iff_mem hwords ht).mp hnotMem⟩
      · rw [apply, run_butNot_reserved_eq_reserved_iff hne]
        constructor
        · rintro ⟨⟨t, ht⟩, hbegins⟩
          exact ⟨t, (exists_beginsWithWord_iff_mem hwords ht).mp hbegins, ht⟩
        · rintro ⟨t, hmem, ht⟩
          exact ⟨⟨t, ht⟩, (exists_beginsWithWord_iff_mem hwords ht).mpr hmem⟩

theorem reserved_words_are_whole_identifiers_if :
    IsIdentifier "if" ∧
    (keyword "if").apply [] 0 "if x" = .returned (.success (.text "if") " x") ∧
    (∀ w ∈ (["iff", "if"] : List Text), IsIdentifier w) ∧
    ∃ name, identifierExcept ["iff", "if"] = .ok name ∧
      name.apply [] 0 "if(" = Parser.failWith "input was unexpectedly a reserved word" "if(" ∧
      name.apply [] 0 "iffy" = .returned (.success (.text "iffy") "") := by
  obtain ⟨hkeyword, hexcept⟩ := reserved_words_are_whole_identifiers
  have hif : IsIdentifier "if" := ⟨'i', "f", rfl, by decide, by decide⟩
  have hiff : IsIdentifier "iff" := ⟨'i', "ff", rfl, by decide, by decide⟩
  have hiffy : IsIdentifier "iffy" := ⟨'i', "ffy", rfl, by decide, by decide⟩
  have hwords : ∀ w ∈ (["iff", "if"] : List Text), IsIdentifier w := by simp [hif, hiff]
  refine ⟨hif, ?_, hwords, ?_⟩
  · apply ((hkeyword "if" hif [] 0 "if x").1 _ _).mpr
    exact ⟨rfl, rfl, (isLongestPrefix_isIdentifier_iff hif).mpr ⟨" x", rfl, by decide⟩⟩
  · obtain ⟨name, hbuilt, hreplies⟩ := hexcept ["iff", "if"] (by decide)
    refine ⟨name, hbuilt, ?_, ?_⟩
    · obtain ⟨-, -, -, hreplies⟩ := hreplies [] 0 "if("
      apply (hreplies hwords).2.mpr
      exact ⟨"if", by decide, (isLongestPrefix_isIdentifier_iff hif).mpr ⟨"(", rfl, by decide⟩⟩
    · obtain ⟨-, -, -, hreplies⟩ := hreplies [] 0 "iffy"
      apply ((hreplies hwords).1 _ _).mpr
      have hlongest : IsLongestPrefix IsIdentifier "iffy" "iffy" :=
        (isLongestPrefix_isIdentifier_iff hiffy).mpr ⟨"", rfl, by decide⟩
      exact ⟨"iffy", rfl, rfl, hlongest, by decide⟩

end Grammar

end Descent
