import Descent.Lexeme.Quoted
import Descent.Proofs.Lexeme.Piece
import Descent.Proofs.Parser.Choice
import Descent.Proofs.Pattern.Run

/-!
# Reading escapes

Behind a backslash the alternatives are tried in order: an escape by number, the letters for control
characters, and a code point that stands for itself.  Where an escape stands, the alternatives in
front of the right one do not match.  Where none stands, no alternative matches, since the last one
excludes the letter that a malformed escape by number begins with.
-/

namespace Descent.Grammar

variable {src rest : Text} {ctx : Context}

theorem run_literal_of_not_prefix {t : Text} (h : ¬ t <+: src) (ctx : Context) :
    ∃ f, (literal t).run ctx src = .returned (.failure f) :=
  ⟨_, Parser.literal_of_not_prefix h⟩

theorem run_map_of_failure
    {g : Grammar} {e : Failure} (h : g.run ctx src = .returned (.failure e))
    (f : Value → Except Fault Value) : (g.map f).run ctx src = .returned (.failure e) := by
  simp [run, Parser.map, h]

theorem run_map_of_success
    {g : Grammar} {f : Value → Except Fault Value} {v w : Value}
    (h : g.run ctx src = .returned (.success v rest)) (hf : f v = .ok w) :
    (g.map f).run ctx src = .returned (.success w rest) := by
  simp [run, Parser.map, h, hf]

theorem run_picking_literal_append (t : Text) (g : Grammar) (ctx : Context) (src : Text) :
    (picking [literal t, g] 1).run ctx (t ++ src) = g.run ctx src := by
  have hliteral := Parser.literal_append t src
  simp only [picking, run, runAll, Parser.map, Parser.sequence, Parser.collect, hliteral]
  cases hg : g.run ctx src with
  | returned r =>
      cases r with
      | success v rest => simp [hg, Value.pick, Value.items?]
      | failure f => simp [hg]
  | raised fault => simp [hg]
  | exhausted => simp [hg]

theorem run_picking_literal_of_not_prefix
    {t : Text} (h : ¬ t <+: src) (g : Grammar) (ctx : Context) :
    ∃ f, (picking [literal t, g] 1).run ctx src = .returned (.failure f) := by
  obtain ⟨f, hfail⟩ := run_literal_of_not_prefix h ctx
  simp only [run] at hfail
  exact ⟨f, by simp [picking, run, runAll, Parser.map, Parser.sequence, Parser.collect, hfail]⟩

/-! ### Escapes by number -/

def fourDigits : Grammar :=
  (pattern (.iterate (.oneOf Alphabet.hexadecimal) 4 (some 4) .greedy)).expect
    "4 hexadecimal characters after a unicode escape"

theorem run_fourDigits_of_number (h : Escape.BeginsWithNumber src) (ctx : Context) :
    fourDigits.run ctx src = .returned (.success (.text (src.take 4)) (src.drop 4)) := by
  have hmatch := Pattern.matchStart?_iterate_oneOf Alphabet.hexadecimal 4 src
  have hfour : 4 ≤ src.length ∧ Text.Only Alphabet.hexadecimal (src.take 4) := h
  rw [if_pos hfour] at hmatch
  simp [fourDigits, run, Parser.expect, Parser.pattern, hmatch]

theorem run_fourDigits_of_malformed (h : ¬ Escape.BeginsWithNumber src) (ctx : Context) :
    ∃ f, fourDigits.run ctx src = .returned (.failure f) := by
  have hmatch := Pattern.matchStart?_iterate_oneOf Alphabet.hexadecimal 4 src
  have hfour : ¬ (4 ≤ src.length ∧ Text.Only Alphabet.hexadecimal (src.take 4)) := h
  rw [if_neg hfour] at hmatch
  simp [fourDigits, run, Parser.expect, Parser.pattern, Parser.failWith, hmatch]

theorem run_unicodeEscape_of_number
    {digits : Text} (hlength : digits.length = 4)
    (hdigits : ∀ d ∈ digits, d ∈ Alphabet.hexadecimal) (rest : Text) (ctx : Context) :
    unicodeEscape.run ctx (('u' : CodePoint) :: (digits ++ rest)) =
      .returned (.success (.text [(Escape.number digits hlength hdigits).decoded]) rest) := by
  have htake : (digits ++ rest).take 4 = digits := by rw [← hlength, List.take_left]
  have hdrop : (digits ++ rest).drop 4 = rest := by rw [← hlength, List.drop_left]
  have hnumber : Escape.BeginsWithNumber (digits ++ rest) := by
    constructor
    · simp [hlength]
    · rw [htake]
      exact hdigits
  have hfour := run_fourDigits_of_number hnumber ctx
  rw [htake, hdrop] at hfour
  have hof : Numeral.DigitsOf 16 digits :=
    fun d hd => (Alphabet.mem_hexadecimal_iff d).mp (hdigits d hd)
  have hread : Numeral.read? 16 digits = some (Numeral.value 16 digits) := by
    apply Numeral.read?_eq_some_value _ hof
    rintro rfl
    simp at hlength
  have hpicked := run_picking_literal_append "u" fourDigits ctx (digits ++ rest)
  rw [hfour] at hpicked
  have hcodePoint : Value.codePoint (.text digits) =
      .ok (.text [(Escape.number digits hlength hdigits).decoded]) := by
    simp [Value.codePoint, hread, CodePoint.ofNat?, Escape.decoded,
      value_lt_of_hexadecimal hlength hdigits]
  exact run_map_of_success hpicked hcodePoint

theorem run_unicodeEscape_of_malformed
    (h : ¬ Escape.BeginsWithNumber rest) (ctx : Context) :
    ∃ f, unicodeEscape.run ctx (('u' : CodePoint) :: rest) = .returned (.failure f) := by
  obtain ⟨f, hfail⟩ := run_fourDigits_of_malformed h ctx
  have hpicked := run_picking_literal_append "u" fourDigits ctx rest
  rw [hfail] at hpicked
  exact ⟨f, run_map_of_failure hpicked Value.codePoint⟩

theorem run_unicodeEscape_of_not_u
    (h : ∀ c ∈ src.head?, c ≠ ('u' : CodePoint)) (ctx : Context) :
    ∃ f, unicodeEscape.run ctx src = .returned (.failure f) := by
  have hnot : ¬ ("u" : Text) <+: src := by
    rintro ⟨rest, rfl⟩
    exact h _ rfl rfl
  obtain ⟨f, hfail⟩ := run_picking_literal_of_not_prefix hnot fourDigits ctx
  exact ⟨f, run_map_of_failure hfail Value.codePoint⟩

/-! ### Letters for control characters -/

theorem exists_control_of_mem_escapes :
    ∀ pair ∈ Alphabet.escapes, ∃ control ∈ controls, pair = ([control.1], [control.2]) := by
  decide

theorem run_controlEscape_of_not_control
    {g : Grammar} (hg : g ∈ controlEscapes)
    (h : ∀ c ∈ src.head?, ∀ character, (c, character) ∉ controls) (ctx : Context) :
    ∃ f, g.run ctx src = .returned (.failure f) := by
  obtain ⟨pair, hpair, rfl⟩ := List.mem_map.mp hg
  obtain ⟨control, hcontrol, rfl⟩ := exists_control_of_mem_escapes pair hpair
  have hnot : ¬ [control.1] <+: src := by
    rintro ⟨rest, rfl⟩
    exact h control.1 rfl control.2 hcontrol
  obtain ⟨f, hfail⟩ := run_literal_of_not_prefix hnot ctx
  simp only [run] at hfail
  exact ⟨f, by simp [run, Parser.as, hfail]⟩

/-! ### Escapes -/

/-- What may stand behind the backslash of an escape. -/
def escaped : Grammar := oneOf (unicodeEscape :: controlEscapes ++ [plainEscape])

theorem run_escaped_of_failure
    (hnumber : ∃ f, unicodeEscape.run ctx src = .returned (.failure f))
    (h : ∀ c ∈ src.head?, ∀ character, (c, character) ∉ controls) :
    escaped.run ctx src = plainEscape.run ctx src := by
  simp only [escaped, run_oneOf, List.map_append]
  apply Parser.oneOf_append_of_failures
  intro p hp
  obtain ⟨g, hg, rfl⟩ := List.mem_map.mp hp
  rcases List.mem_cons.mp hg with rfl | hg
  · exact hnumber
  · exact run_controlEscape_of_not_control hg h ctx

theorem run_escaped_append (e : Escape) (rest : Text) (ctx : Context) :
    escaped.run ctx (e.body ++ rest) = .returned (.success (.text [e.decoded]) rest) := by
  cases e with
  | control letter character hmem =>
      simp only [controls, List.mem_cons, Prod.mk.injEq, List.not_mem_nil, or_false] at hmem
      rcases hmem with ⟨rfl, rfl⟩ | ⟨rfl, rfl⟩ | ⟨rfl, rfl⟩ | ⟨rfl, rfl⟩ | ⟨rfl, rfl⟩ <;> rfl
  | number digits hlength hdigits =>
      have hfirst := run_unicodeEscape_of_number hlength hdigits rest ctx
      simp only [escaped, run, List.cons_append, runAll]
      exact Parser.oneOf_cons_of_success hfirst
  | itself c hc =>
      have hu : c ≠ ('u' : CodePoint) := by
        rintro rfl
        exact hc (by decide)
      have hhead : ∀ d ∈ (c :: rest).head?, d ≠ ('u' : CodePoint) := by simpa using hu
      have hnumber := run_unicodeEscape_of_not_u hhead ctx
      have hcontrol : ∀ d ∈ (c :: rest).head?, ∀ character, (d, character) ∉ controls := by
        intro d hd character hmem
        obtain rfl : c = d := by simpa using hd
        exact hc (Escape.mem_escapeLetters_of_mem_controls hmem).1
      have hnot : ¬ ("u" : Text) <+: c :: rest := by
        rintro ⟨rest', heq⟩
        exact hu (List.cons.inj heq).1.symm
      have hfail := Parser.literal_of_not_prefix hnot
      simp only [Escape.body, List.singleton_append, run_escaped_of_failure hnumber hcontrol]
      simp [plainEscape, run, Parser.butNot, Parser.any, hfail, Parser.failWith,
        Reply.isSuccess, Escape.decoded]

theorem run_escaped_of_not_escape
    (h : ∀ e rest, src ≠ Escape.body e ++ rest) (ctx : Context) :
    ∃ f, escaped.run ctx src = .returned (.failure f) := by
  rcases Escape.exists_body_append src with ⟨e, rest, hsrc⟩ | rfl | ⟨rest, rfl, hnumber⟩
  · exact absurd hsrc (h e rest)
  · have hhead : ∀ d ∈ ([] : Text).head?, d ≠ ('u' : CodePoint) := by simp
    have hnumber := run_unicodeEscape_of_not_u hhead ctx
    rw [run_escaped_of_failure hnumber (by simp)]
    exact ⟨_, rfl⟩
  · have hnumber := run_unicodeEscape_of_malformed hnumber ctx
    have hcontrol : ∀ d ∈ (('u' : CodePoint) :: rest).head?, ∀ character,
        (d, character) ∉ controls := by
      intro d hd character hmem
      obtain rfl : ('u' : CodePoint) = d := by simpa using hd
      exact (Escape.mem_escapeLetters_of_mem_controls hmem).2 rfl
    rw [run_escaped_of_failure hnumber hcontrol]
    exact ⟨_, rfl⟩

theorem run_escapeSequence_cons (ctx : Context) (src : Text) :
    escapeSequence.run ctx (('\\' : CodePoint) :: src) = escaped.run ctx src :=
  run_picking_literal_append "\\" escaped ctx src

theorem run_escapeSequence_of_not_backslash
    (h : ∀ c ∈ src.head?, c ≠ ('\\' : CodePoint)) (ctx : Context) :
    ∃ f, escapeSequence.run ctx src = .returned (.failure f) := by
  have hnot : ¬ ("\\" : Text) <+: src := by
    rintro ⟨rest, rfl⟩
    exact h _ rfl rfl
  exact run_picking_literal_of_not_prefix hnot escaped ctx

end Descent.Grammar
