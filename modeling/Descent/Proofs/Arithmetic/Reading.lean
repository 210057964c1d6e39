import Descent.Proofs.Arithmetic.Language
import Descent.Proofs.Arithmetic.Number

/-!
# Parsers that read a language

A parser reads a language if it never matches anything else and never stops short of a text of the
language.  The second half has two parts.  Whatever follows a text of the language, the parser
gets at least to its end, and it stops exactly there if what follows cannot continue the text.
All of this is said of inputs below a length, so that a parser that calls itself on shorter inputs
can be treated by induction on the length.
-/

namespace Descent.Arithmetic

open Text Grammar

/-- Blanks in front of the input change nothing. -/
def SkipsBlanks (p : Parser) : Prop := ∀ b src, Blanks b → p (b ++ src) = p src

theorem SkipsBlanks.eq_dropBlanks {p : Parser} (h : SkipsBlanks p) (src : Text) :
    p src.dropBlanks = p src := by
  obtain ⟨b, hb, hsrc⟩ := exists_blanks_append_dropBlanks src
  conv_rhs => rw [hsrc]
  exact (h b _ hb).symm

/-- An input below a length without an overlong digit run. -/
structure Readable (n : Nat) (src : Text) : Prop where
  shortRuns : ShortDigitRuns src
  length_lt : src.length < n

theorem Readable.of_infix
    {n : Nat} {src part : Text} (h : Readable n src) (hpart : part <:+: src) :
    Readable n part where
  shortRuns := h.shortRuns.of_infix hpart
  length_lt := Nat.lt_of_le_of_lt hpart.length_le h.length_lt

theorem Readable.of_suffix
    {n : Nat} {src rest : Text} (h : Readable n src) (hrest : rest <:+ src) : Readable n rest :=
  h.of_infix hrest.isInfix

theorem Readable.of_suffix_cons
    {n : Nat} {src rest : Text} {c : CodePoint} (h : Readable (n + 1) src)
    (hrest : c :: rest <:+ src) : Readable n rest where
  shortRuns := (h.of_suffix ((List.suffix_cons c rest).trans hrest)).shortRuns
  length_lt := by
    have hlength := hrest.length_le
    have hlt := h.length_lt
    simp only [List.length_cons] at hlength
    omega

/-- The text is empty or begins with a code point that is none of `more`. -/
def BeginsOutside (more after : Text) : Prop := ∀ c ∈ after.head?, c ∉ more

theorem beginsOutside_nil {more : Text} : BeginsOutside more [] := by
  simp [BeginsOutside]

theorem beginsOutside_cons {more after : Text} {c : CodePoint} :
    BeginsOutside more (c :: after) ↔ c ∉ more := by
  simp [BeginsOutside]

theorem BeginsOutside.mono
    {more more' after : Text} (h : BeginsOutside more' after) (hmore : more ⊆ more') :
    BeginsOutside more after :=
  fun c hc hmem => h c hc (hmore hmem)

/-- The parser reads the language `L` on inputs shorter than `n`.  A text of the language can only
be continued by code points of `more`. -/
structure Reads (p : Parser) (L : TreeLanguage) (more : Text) (n : Nat) : Prop where
  skips : SkipsBlanks p
  blank_subset : Alphabet.blank ⊆ more
  returns : ∀ src, Readable n src →
    (∃ f, p src = .returned (.failure f)) ∨
      ∃ w t rest, src = w ++ rest ∧ L w t ∧ p src = .returned (.success t.toValue rest)
  reaches : ∀ w t after, L w t → Readable n (w ++ after) →
    ∃ t' rest, p (w ++ after) = .returned (.success t'.toValue rest) ∧ rest <:+ after ∧
      (BeginsOutside more after → t' = t ∧ rest = after)

theorem Reads.of_iff
    {p : Parser} {L L' : TreeLanguage} {more : Text} {n : Nat} (h : Reads p L more n)
    (hiff : ∀ w t, L w t ↔ L' w t) : Reads p L' more n := by
  obtain rfl : L = L' := by
    funext w t
    exact propext (hiff w t)
  exact h

theorem Reads.exists_returned
    {p : Parser} {L : TreeLanguage} {more src : Text} {n : Nat}
    (h : Reads p L more n) (hsrc : Readable n src) : ∃ r, p src = .returned r := by
  rcases h.returns src hsrc with ⟨f, hfail⟩ | ⟨w, t, rest, -, -, hsuccess⟩
  · exact ⟨.failure f, hfail⟩
  · exact ⟨.success t.toValue rest, hsuccess⟩

theorem Reads.parses
    {p : Parser} {L : TreeLanguage} {more src : Text} {n : Nat} {t : Tree}
    (h : Reads p L more n) (hsrc : Readable n src) (hw : L src t) :
    p src = .returned (.success t.toValue []) := by
  rw [← List.append_nil src] at hsrc
  obtain ⟨t', rest, hsuccess, -, hexact⟩ := h.reaches src t [] hw hsrc
  obtain ⟨rfl, rfl⟩ := hexact beginsOutside_nil
  rwa [List.append_nil] at hsuccess

theorem dropBlanks_eq_of_beginsOutside
    {more after : Text} (hmore : Alphabet.blank ⊆ more) (h : BeginsOutside more after) :
    after.dropBlanks = after :=
  dropBlanks_eq_self (h.mono hmore)

/-! ### Symbols between blanks -/

section Symbols

variable {g : Grammar} {ctx : Context} {symbols src rest : Text} {c : CodePoint}

theorem run_token_of_mem
    (hg : g.run ctx = Parser.oneOf (Parser.characters symbols))
    (hsrc : src.dropBlanks = c :: rest) (hc : c ∈ symbols) :
    g.token.run ctx src = .returned (.success (.text [c]) rest.dropBlanks) := by
  rw [run_token, hsrc, hg, Parser.oneOf_characters_of_mem hc]
  rfl

theorem run_token_of_notMem
    (hg : g.run ctx = Parser.oneOf (Parser.characters symbols)) (hne : symbols ≠ [])
    (h : ∀ c ∈ src.dropBlanks.head?, c ∉ symbols) :
    ∃ f, g.token.run ctx src = .returned (.failure f) := by
  obtain ⟨message, hfail⟩ := Parser.oneOf_characters_of_notMem hne h
  refine ⟨{ input := src.dropBlanks, message }, ?_⟩
  rw [run_token, hg, hfail]
  rfl

theorem skipsBlanks_token (g : Grammar) (ctx : Context) : SkipsBlanks (g.token.run ctx) :=
  fun _ src hb => run_token_append hb g ctx src

theorem SkipsBlanks.sequence
    {gs : List Grammar} (h : SkipsBlanks (g.run ctx)) :
    SkipsBlanks ((Grammar.sequence (g :: gs)).run ctx) := by
  intro b src hb
  simp only [run, runAll, Parser.sequence, Parser.collect, h b src hb]

theorem SkipsBlanks.map
    {f : Value → Except Fault Value} (h : SkipsBlanks (g.run ctx)) :
    SkipsBlanks ((Grammar.map g f).run ctx) := by
  intro b src hb
  simp only [run, Parser.map, h b src hb]

end Symbols

end Descent.Arithmetic
