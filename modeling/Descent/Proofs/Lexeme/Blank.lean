import Descent.Lexeme.Blank
import Descent.Proofs.Pattern.Run
import Descent.Proofs.Text.LongestPrefix

/-!
# Blanks around a token

The blanks in front of a text are dropped as a whole, so it does not matter how many there are.
A token is what its grammar matches between the blanks in front of it and the blanks behind it.
-/

namespace Descent

namespace Text

/-- A text of blanks only. -/
def Blanks (b : Text) : Prop := ∀ c ∈ b, c ∈ Alphabet.blank

def dropBlanks (t : Text) : Text := t.dropWhile (CharSet.ofText Alphabet.blank)

variable {b t : Text}

theorem blanks_nil : Blanks [] := by
  simp [Blanks]

theorem Blanks.append {b' : Text} (hb : Blanks b) (hb' : Blanks b') : Blanks (b ++ b') := by
  intro c hc
  rcases List.mem_append.mp hc with hc | hc
  · exact hb c hc
  · exact hb' c hc

theorem dropBlanks_append (hb : Blanks b) (t : Text) : (b ++ t).dropBlanks = t.dropBlanks := by
  unfold dropBlanks
  apply List.dropWhile_append_of_pos
  intro c hc
  simpa [CharSet.ofText] using hb c hc

theorem exists_blanks_append_dropBlanks (t : Text) :
    ∃ b, Blanks b ∧ t = b ++ t.dropBlanks := by
  refine ⟨t.takeWhile (CharSet.ofText Alphabet.blank), ?_, ?_⟩
  · exact only_takeWhile Alphabet.blank t
  · exact List.takeWhile_append_dropWhile.symm

theorem dropBlanks_suffix (t : Text) : t.dropBlanks <:+ t := List.dropWhile_suffix _

theorem dropBlanks_eq_self (h : ∀ c ∈ t.head?, c ∉ Alphabet.blank) : t.dropBlanks = t := by
  cases t with
  | nil => rfl
  | cons c t =>
      have hc : c ∉ Alphabet.blank := h c rfl
      simp [dropBlanks, CharSet.ofText, hc]

theorem dropBlanks_append_cons {c : CodePoint} (hb : Blanks b) (hc : c ∉ Alphabet.blank) (t : Text) :
    dropBlanks (b ++ c :: t) = c :: t := by
  rw [dropBlanks_append hb]
  apply dropBlanks_eq_self
  intro d hd
  obtain rfl : c = d := by simpa using hd
  exact hc

theorem length_lt_of_dropBlanks_eq_cons
    {c : CodePoint} {rest : Text} (h : t.dropBlanks = c :: rest) : rest.length < t.length := by
  have hle := (dropBlanks_suffix t).length_le
  rw [h, List.length_cons] at hle
  omega

end Text

namespace Grammar

variable {g : Grammar} {ctx : Context} {src : Text}

theorem run_pattern_oneOf_of_mem
    {cs : Text} {c : CodePoint} (hc : c ∈ cs) (rest : Text) (ctx : Context) :
    (pattern (.oneOf cs)).run ctx (c :: rest) = .returned (.success (.text [c]) rest) := by
  have hmatch := Pattern.matchStart?_set_cons (CharSet.ofText cs) c rest
  rw [if_pos (by simpa [CharSet.ofText] using hc)] at hmatch
  simp [run, Parser.pattern, Pattern.oneOf, hmatch]

theorem run_pattern_oneOf_of_notMem
    {cs : Text} (h : ∀ c ∈ src.head?, c ∉ cs) (ctx : Context) :
    (pattern (.oneOf cs)).run ctx src =
      Parser.failWith "input did not match regular expression" src := by
  cases src with
  | nil => rfl
  | cons c rest =>
      have hc : c ∉ cs := h c rfl
      have hmatch := Pattern.matchStart?_set_cons (CharSet.ofText cs) c rest
      rw [if_neg (by simpa [CharSet.ofText] using hc)] at hmatch
      simp [run, Parser.pattern, Pattern.oneOf, hmatch]

theorem run_manyOf (cs : Text) (ctx : Context) (src : Text) :
    (manyOf cs).run ctx src =
      .returned (.success (.text (src.takeWhile (CharSet.ofText cs)))
        (src.dropWhile (CharSet.ofText cs))) := by
  have hmatch := Pattern.matchStart?_zeroOrMore_set (CharSet.ofText cs) src
  simp only [manyOf, run, Parser.pattern, Pattern.oneOf, hmatch]

theorem run_pattern_oneOrMore_set (s : CharSet) (ctx : Context) (src : Text) :
    (pattern (.oneOrMore (.set s))).run ctx src =
      if src.takeWhile s = [] then
        Parser.failWith "input did not match regular expression" src
      else .returned (.success (.text (src.takeWhile s)) (src.dropWhile s)) := by
  simp only [run, Parser.pattern, Pattern.matchStart?_oneOrMore_set]
  split_ifs <;> rfl

theorem run_someOf (cs : Text) (ctx : Context) (src : Text) :
    (someOf cs).run ctx src =
      if src.takeWhile (CharSet.ofText cs) = [] then
        Parser.failWith "input did not match regular expression" src
      else
        .returned (.success (.text (src.takeWhile (CharSet.ofText cs)))
          (src.dropWhile (CharSet.ofText cs))) :=
  run_pattern_oneOrMore_set (CharSet.ofText cs) ctx src

theorem run_optionalWhitespace (ctx : Context) (src : Text) :
    optionalWhitespace.run ctx src =
      .returned (.success (.text (src.takeWhile (CharSet.ofText Alphabet.blank)))
        src.dropBlanks) :=
  run_manyOf Alphabet.blank ctx src

theorem run_token (g : Grammar) (ctx : Context) (src : Text) :
    g.token.run ctx src = do
      match ← g.run ctx src.dropBlanks with
      | .failure f => return .failure f
      | .success v rest => return .success v rest.dropBlanks := by
  simp only [token, picking, run, runAll, Parser.map, Parser.sequence, Parser.collect,
    run_optionalWhitespace]
  cases hinner : g.run ctx src.dropBlanks with
  | returned r =>
      cases r with
      | success v rest => simp [hinner, Value.pick, Value.items?]
      | failure f => simp [hinner]
  | raised fault => simp [hinner]
  | exhausted => simp [hinner]

theorem run_token_append
    {b : Text} (hb : Text.Blanks b) (g : Grammar) (ctx : Context) (src : Text) :
    g.token.run ctx (b ++ src) = g.token.run ctx src := by
  rw [run_token, run_token, Text.dropBlanks_append hb]

end Grammar

end Descent
