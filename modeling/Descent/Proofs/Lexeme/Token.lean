import Descent.Proofs.Grammar.Agreement
import Descent.Proofs.Lexeme.Blank

/-!
# Tokens

A token drops the blanks in front of it before its grammar is applied, and the blanks behind it
afterwards.  Each time the longest run of them is dropped, so a token does not notice how many blanks
it is given and leaves none.  Hence a token around a token has nothing more to drop, whatever the
grammar inside does with blanks of its own.
-/

namespace Descent

namespace Text

theorem dropBlanks_dropBlanks (t : Text) : t.dropBlanks.dropBlanks = t.dropBlanks :=
  dropBlanks_eq_self (notMem_of_head?_dropWhile Alphabet.blank t)

/-- What is left behind the longest run of blanks. -/
theorem exists_longest_blanks (t : Text) :
    ∃ b, t = b ++ t.dropBlanks ∧ IsLongestPrefix Blanks b t :=
  ⟨t.takeWhile (CharSet.ofText Alphabet.blank), List.takeWhile_append_dropWhile.symm,
    isLongestPrefix_takeWhile Alphabet.blank t⟩

end Text

namespace Grammar

open Text

variable {g : Grammar} {ctx : Context} {src rest : Text} {v : Value}

theorem run_token_of_success (h : g.run ctx src.dropBlanks = .returned (.success v rest)) :
    g.token.run ctx src = .returned (.success v rest.dropBlanks) := by
  rw [run_token, h]
  rfl

theorem run_token_of_no_match
    (h : ∀ v rest, g.run ctx src.dropBlanks ≠ .returned (.success v rest)) :
    g.token.run ctx src = g.run ctx src.dropBlanks := by
  rw [run_token]
  cases hinner : g.run ctx src.dropBlanks with
  | returned r =>
      cases r with
      | success v rest => exact absurd hinner (h v rest)
      | failure f => rfl
  | raised fault => rfl
  | exhausted => rfl

theorem run_token_dropBlanks (g : Grammar) (ctx : Context) (src : Text) :
    g.token.run ctx src.dropBlanks = g.token.run ctx src := by
  rw [run_token, run_token, dropBlanks_dropBlanks]

theorem token_token_agrees (g : Grammar) : g.token.token.Agrees g.token := by
  intro ctx
  funext src
  by_cases h : ∃ v rest, g.run ctx src.dropBlanks = .returned (.success v rest)
  · obtain ⟨v, rest, hmatch⟩ := h
    have hinner := run_token_of_success hmatch
    have houter : g.token.token.run ctx src = _ :=
      run_token_of_success ((run_token_dropBlanks g ctx src).trans hinner)
    rw [houter, hinner, dropBlanks_dropBlanks]
  · have hnone : ∀ v rest, g.run ctx src.dropBlanks ≠ .returned (.success v rest) :=
      fun v rest hmatch => h ⟨v, rest, hmatch⟩
    have hinner := run_token_of_no_match hnone
    have houter := (run_token_dropBlanks g ctx src).trans hinner
    have hnone' : ∀ v rest, g.token.run ctx src.dropBlanks ≠ .returned (.success v rest) := by
      rwa [houter]
    rw [run_token_of_no_match hnone', houter, hinner]

/-- A token takes no notice of the blanks in front of a text.  Where its grammar does not match the
text behind all of them, the token comes to what the grammar comes to there, so its failures point
behind the blanks.  Where the grammar matches, the token has its output and leaves what the grammar
leaves, without any blanks in front.  A token around a token is the same token. -/
theorem token_skips_all_blanks (p : Part) :
    BuiltAlike (do (Part.grammar (← p.token)).token) p.token ∧
    ∀ g, p.toGrammar = .ok g → p.token = .ok g.token ∧
      ∀ ctx src,
        (∀ b, Blanks b → g.token.run ctx (b ++ src) = g.token.run ctx src) ∧
        ∃ b after, src = b ++ after ∧ IsLongestPrefix Blanks b src ∧
          ((∀ v rest, g.run ctx after ≠ .returned (.success v rest)) →
            g.token.run ctx src = g.run ctx after) ∧
          ∀ v rest, g.run ctx after = .returned (.success v rest) →
            ∃ b' last, rest = b' ++ last ∧ IsLongestPrefix Blanks b' rest ∧
              (∀ c ∈ last.head?, c ∉ Alphabet.blank) ∧
              g.token.run ctx src = .returned (.success v last) := by
  constructor
  · unfold Part.token
    cases p.toGrammar with
    | error fault => exact .refused fault
    | ok g => exact .built (token_token_agrees g)
  · intro g hg
    refine ⟨by rw [Part.token, hg]; rfl, fun ctx src => ⟨?_, ?_⟩⟩
    · intro b hb
      exact run_token_append hb g ctx src
    · obtain ⟨b, hsplit, hlongest⟩ := exists_longest_blanks src
      refine ⟨b, src.dropBlanks, hsplit, hlongest, run_token_of_no_match, ?_⟩
      intro v rest hmatch
      obtain ⟨b', hsplit', hlongest'⟩ := exists_longest_blanks rest
      exact ⟨b', rest.dropBlanks, hsplit', hlongest', notMem_of_head?_dropWhile _ rest,
        run_token_of_success hmatch⟩

example : ((literal "a").token.token).apply [] 0 "\t a\n b" =
    .returned (.success (.text "a") "b") := by cbv

end Grammar

end Descent
