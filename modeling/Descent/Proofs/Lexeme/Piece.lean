import Descent.Proofs.Numeral.Value

/-!
# The pieces of a quoted string

Between its quotes a string is written piece by piece, and every piece stands for one code point.
A piece is a code point that needs no escape, or a backslash with what may stand behind it.  No
piece is the beginning of another, so a text can be taken to pieces in one way only, from the
front and as far as possible.
-/

namespace Descent.Grammar

/-- The letters that stand for control characters, with the characters. -/
def controls : List (CodePoint × CodePoint) :=
  [('b', '\x08'), ('f', '\x0c'), ('n', '\n'), ('r', '\r'), ('t', '\t')]

/-- The letters that do not stand for themselves behind a backslash. -/
def escapeLetters : Text := "bfnrtu"

/-- What may stand behind a backslash. -/
inductive Escape where
  | control (letter character : CodePoint) (h : (letter, character) ∈ controls)
  | number (digits : Text) (hlength : digits.length = 4)
      (hdigits : ∀ d ∈ digits, d ∈ Alphabet.hexadecimal)
  | itself (c : CodePoint) (h : c ∉ escapeLetters)

/-- What is written for a code point in a string between given quotes. -/
inductive Piece (quote : CodePoint) where
  | plain (c : CodePoint) (hquote : c ≠ quote) (hescape : c ≠ ('\\' : CodePoint))
  | escape (e : Escape)

theorem value_lt_of_hexadecimal
    {digits : Text} (hlength : digits.length = 4)
    (hdigits : ∀ d ∈ digits, d ∈ Alphabet.hexadecimal) : Numeral.value 16 digits < 0x110000 := by
  have hof : Numeral.DigitsOf 16 digits :=
    fun d hd => (Alphabet.mem_hexadecimal_iff d).mp (hdigits d hd)
  have hlt : Numeral.value 16 digits < 16 ^ digits.length := Numeral.value_lt (by decide) hof
  rw [hlength] at hlt
  exact Nat.lt_trans hlt (by decide)

namespace Escape

def body : Escape → Text
  | control letter _ _ => [letter]
  | number digits _ _ => ('u' : CodePoint) :: digits
  | itself c _ => [c]

def decoded : Escape → CodePoint
  | control _ character _ => character
  | number digits hlength hdigits =>
      ⟨Numeral.value 16 digits, value_lt_of_hexadecimal hlength hdigits⟩
  | itself c _ => c

theorem mem_escapeLetters_of_mem_controls
    {letter character : CodePoint} (h : (letter, character) ∈ controls) :
    letter ∈ escapeLetters ∧ letter ≠ ('u' : CodePoint) := by
  have hall : ∀ pair ∈ controls, pair.1 ∈ escapeLetters ∧ pair.1 ≠ ('u' : CodePoint) := by decide
  exact hall _ h

theorem eq_of_mem_controls
    {letter character character' : CodePoint} (h : (letter, character) ∈ controls)
    (h' : (letter, character') ∈ controls) : character = character' := by
  have hall : ∀ pair ∈ controls, ∀ pair' ∈ controls, pair.1 = pair'.1 → pair.2 = pair'.2 := by
    decide
  exact hall _ h _ h' rfl

theorem exists_mem_controls
    {c : CodePoint} (h : c ∈ escapeLetters) (hne : c ≠ ('u' : CodePoint)) :
    ∃ character, (c, character) ∈ controls := by
  have hall : ∀ c ∈ escapeLetters, c ≠ ('u' : CodePoint) → ∃ pair ∈ controls, pair.1 = c := by
    decide
  obtain ⟨pair, hpair, rfl⟩ := hall c h hne
  exact ⟨pair.2, hpair⟩

theorem append_inj
    {e e' : Escape} {rest rest' : Text} (h : e.body ++ rest = e'.body ++ rest') :
    e = e' ∧ rest = rest' := by
  cases e with
  | control letter character hmem =>
      obtain ⟨hletter, hne⟩ := mem_escapeLetters_of_mem_controls hmem
      cases e' with
      | control letter' character' hmem' =>
          obtain ⟨rfl, rfl⟩ : letter = letter' ∧ rest = rest' := by simpa [body] using h
          obtain rfl := eq_of_mem_controls hmem hmem'
          exact ⟨rfl, rfl⟩
      | number digits hlength hdigits =>
          obtain ⟨rfl, -⟩ : letter = 'u' ∧ rest = digits ++ rest' := by simpa [body] using h
          contradiction
      | itself c hc =>
          obtain ⟨rfl, -⟩ : letter = c ∧ rest = rest' := by simpa [body] using h
          contradiction
  | number digits hlength hdigits =>
      cases e' with
      | control letter character hmem =>
          obtain ⟨hletter, hne⟩ := mem_escapeLetters_of_mem_controls hmem
          obtain ⟨heq, -⟩ : ('u' : CodePoint) = letter ∧ digits ++ rest = rest' := by
            simpa [body] using h
          exact absurd heq.symm hne
      | number digits' hlength' hdigits' =>
          have hrest : digits ++ rest = digits' ++ rest' := by simpa [body] using h
          obtain ⟨rfl, rfl⟩ := List.append_inj hrest (hlength.trans hlength'.symm)
          exact ⟨rfl, rfl⟩
      | itself c hc =>
          obtain ⟨rfl, -⟩ : ('u' : CodePoint) = c ∧ digits ++ rest = rest' := by
            simpa [body] using h
          exact absurd (by decide) hc
  | itself c hc =>
      cases e' with
      | control letter character hmem =>
          obtain ⟨hletter, -⟩ := mem_escapeLetters_of_mem_controls hmem
          obtain ⟨rfl, -⟩ : c = letter ∧ rest = rest' := by simpa [body] using h
          contradiction
      | number digits hlength hdigits =>
          obtain ⟨rfl, -⟩ : c = 'u' ∧ rest = digits ++ rest' := by simpa [body] using h
          exact absurd (by decide) hc
      | itself c' hc' =>
          obtain ⟨rfl, rfl⟩ : c = c' ∧ rest = rest' := by simpa [body] using h
          exact ⟨rfl, rfl⟩

def BeginsWithNumber (t : Text) : Prop :=
  4 ≤ t.length ∧ ∀ d ∈ t.take 4, d ∈ Alphabet.hexadecimal

theorem exists_body_append (t : Text) :
    (∃ e rest, t = body e ++ rest) ∨ t = [] ∨
      ∃ rest, t = ('u' : CodePoint) :: rest ∧
        ¬ BeginsWithNumber rest := by
  rcases t with _ | ⟨c, rest⟩
  · exact .inr (.inl rfl)
  · by_cases hc : c ∈ escapeLetters
    · by_cases hu : c = ('u' : CodePoint)
      · subst hu
        by_cases hdigits : BeginsWithNumber rest
        · have hlength : (rest.take 4).length = 4 := by simpa using hdigits.1
          refine .inl ⟨.number (rest.take 4) hlength hdigits.2, rest.drop 4, ?_⟩
          simp [body]
        · exact .inr (.inr ⟨rest, rfl, hdigits⟩)
      · obtain ⟨character, hmem⟩ := exists_mem_controls hc hu
        exact .inl ⟨.control c character hmem, rest, rfl⟩
    · exact .inl ⟨.itself c hc, rest, rfl⟩

end Escape

namespace Piece

variable {quote : CodePoint}

def written : Piece quote → Text
  | plain c _ _ => [c]
  | escape e => ('\\' : CodePoint) :: e.body

def decoded : Piece quote → CodePoint
  | plain c _ _ => c
  | escape e => e.decoded

theorem append_inj
    {p p' : Piece quote} {rest rest' : Text} (h : p.written ++ rest = p'.written ++ rest') :
    p = p' ∧ rest = rest' := by
  cases p with
  | plain c hquote hescape =>
      cases p' with
      | plain c' hquote' hescape' =>
          obtain ⟨rfl, rfl⟩ : c = c' ∧ rest = rest' := by simpa [written] using h
          exact ⟨rfl, rfl⟩
      | escape e =>
          obtain ⟨rfl, -⟩ : c = '\\' ∧ rest = e.body ++ rest' := by simpa [written] using h
          contradiction
  | escape e =>
      cases p' with
      | plain c hquote hescape =>
          obtain ⟨rfl, -⟩ : ('\\' : CodePoint) = c ∧ e.body ++ rest = rest' := by
            simpa [written] using h
          contradiction
      | escape e' =>
          obtain ⟨rfl, rfl⟩ := Escape.append_inj (by simpa [written] using h)
          exact ⟨rfl, rfl⟩

end Piece

/-! ### Taking a text to pieces -/

section Pieces

variable {quote : CodePoint}

def writtenAll (ps : List (Piece quote)) : Text := ps.flatMap Piece.written

def decodedAll (ps : List (Piece quote)) : Text := ps.map Piece.decoded

theorem writtenAll_cons (p : Piece quote) (ps : List (Piece quote)) :
    writtenAll (p :: ps) = p.written ++ writtenAll ps := rfl

theorem decodedAll_cons (p : Piece quote) (ps : List (Piece quote)) :
    decodedAll (p :: ps) = p.decoded :: decodedAll ps := rfl

theorem decodedAll_append (ps qs : List (Piece quote)) :
    decodedAll (ps ++ qs) = decodedAll ps ++ decodedAll qs := List.map_append

/-- No piece stands at the beginning of a text. -/
def Exhausts (quote : CodePoint) (t : Text) : Prop :=
  ∀ (p : Piece quote) (rest : Text), t ≠ p.written ++ rest

theorem writtenAll_append (ps qs : List (Piece quote)) :
    writtenAll (ps ++ qs) = writtenAll ps ++ writtenAll qs := List.flatMap_append

/-- Taking a text to pieces as far as possible begins with whatever pieces the text begins with. -/
theorem exists_of_writtenAll_append
    {ps ps' : List (Piece quote)} {rest rest' : Text} (hrest : Exhausts quote rest)
    (h : writtenAll ps ++ rest = writtenAll ps' ++ rest') :
    ∃ qs, ps = ps' ++ qs ∧ rest' = writtenAll qs ++ rest := by
  induction ps' generalizing ps with
  | nil => exact ⟨ps, rfl, h.symm⟩
  | cons p' ps' ih =>
      rw [writtenAll_cons, List.append_assoc] at h
      cases ps with
      | nil => exact absurd h (hrest p' _)
      | cons p ps =>
          rw [writtenAll_cons, List.append_assoc] at h
          obtain ⟨rfl, hnext⟩ := Piece.append_inj h
          obtain ⟨qs, rfl, hqs⟩ := ih hnext
          exact ⟨qs, rfl, hqs⟩

/-- A text can be taken to pieces in one way only. -/
theorem writtenAll_append_inj
    {ps ps' : List (Piece quote)} {rest rest' : Text} (hrest : Exhausts quote rest)
    (hrest' : Exhausts quote rest') (h : writtenAll ps ++ rest = writtenAll ps' ++ rest') :
    ps = ps' ∧ rest = rest' := by
  obtain ⟨qs, rfl, hqs⟩ := exists_of_writtenAll_append hrest h
  cases qs with
  | nil => exact ⟨List.append_nil ps', hqs.symm⟩
  | cons q qs =>
      rw [writtenAll_cons, List.append_assoc] at hqs
      exact absurd hqs (hrest' q _)

/-- The pieces that a text begins with, as many as there are. -/
structure MaximalPieces (t : Text) (ps : List (Piece quote)) (rest : Text) : Prop where
  eq_append : t = writtenAll ps ++ rest
  isPrefix : ∀ ps' rest', t = writtenAll ps' ++ rest' → ps' <+: ps

theorem Exhausts.maximalPieces
    {rest : Text} (h : Exhausts quote rest) (ps : List (Piece quote)) :
    MaximalPieces (writtenAll ps ++ rest) ps rest where
  eq_append := rfl
  isPrefix ps' rest' heq := by
    obtain ⟨qs, hqs, -⟩ := exists_of_writtenAll_append h heq
    exact ⟨qs, hqs.symm⟩

theorem exhausts_quote (hquote : quote ≠ ('\\' : CodePoint)) (rest : Text) :
    Exhausts quote (quote :: rest) := by
  intro p rest' h
  cases p with
  | plain c hc hescape =>
      obtain ⟨rfl, -⟩ : quote = c ∧ rest = rest' := by simpa [Piece.written] using h
      contradiction
  | escape e =>
      obtain ⟨rfl, -⟩ : quote = '\\' ∧ rest = e.body ++ rest' := by
        simpa [Piece.written] using h
      contradiction

/-- The text ends in front of a piece, or within an escape. -/
def EndsInPiece (t : Text) : Prop :=
  t = [] ∨ t = ['\\'] ∨
    ∃ rest, t = ('\\' : CodePoint) :: ('u' : CodePoint) :: rest ∧
      ¬ Escape.BeginsWithNumber rest

theorem Exhausts.eq_quote_cons_or {t : Text} (h : Exhausts quote t) :
    (∃ rest, t = quote :: rest) ∨ EndsInPiece t := by
  cases t with
  | nil => exact .inr (.inl rfl)
  | cons c t =>
      by_cases hquote : c = quote
      · exact .inl ⟨t, by rw [hquote]⟩
      · by_cases hescape : c = ('\\' : CodePoint)
        · subst hescape
          rcases Escape.exists_body_append t with ⟨e, rest, rfl⟩ | rfl | ⟨rest, rfl, hnumber⟩
          · exact absurd rfl (h (.escape e) rest)
          · exact .inr (.inr (.inl rfl))
          · exact .inr (.inr (.inr ⟨rest, rfl, hnumber⟩))
        · exact absurd rfl (h (.plain c hquote hescape) t)

end Pieces

end Descent.Grammar
