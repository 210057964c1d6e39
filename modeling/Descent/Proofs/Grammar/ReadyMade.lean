import Descent.Arithmetic.Expression
import Descent.Lexeme.Fraction
import Descent.Lexeme.Identifier
import Descent.Lexeme.Integer
import Descent.Lexeme.Quoted
import Descent.Proofs.Grammar.Everywhere

/-!
# What ready-made grammars are made of

The ready-made grammars contain neither a parser that was made elsewhere nor a function that may
reject an output.  A condition that is only about these two holds throughout them.
-/

namespace Descent

namespace Grammar

def readyMade : List Grammar :=
  [ whitespace, optionalWhitespace, integerNumber, floatNumber, unicodeEscape, escapeSequence,
    quotedString, identifier, Arithmetic.number, Arithmetic.parenthesized, Arithmetic.factor,
    Arithmetic.term, Arithmetic.expression ]

/-- Neither made elsewhere nor able to reject an output. -/
def Plain : Grammar → Prop
  | .custom _ => False
  | .transform _ _ => False
  | _ => True

theorem everywhere_plain_digitsAfter (v : Value) : (digitsAfter v).Everywhere Plain := by
  cases v with
  | text mark =>
      rw [digitsAfter]
      split <;> simp [Everywhere, Plain, digitsOf, someOf]
  | _ => simp [digitsAfter, Everywhere, Plain, decimalNumber, someOf]

theorem everywhere_plain_integerNumber : integerNumber.Everywhere Plain := by
  simp [integerNumber, unsignedInteger, optional, NumeralBase.all, Everywhere, EverywhereAll,
    Plain, everywhere_plain_digitsAfter]

theorem everywhere_plain_escapeSequence : escapeSequence.Everywhere Plain := by
  simp [escapeSequence, picking, unicodeEscape, controlEscapes, plainEscape, Alphabet.escapes,
    Everywhere, EverywhereAll, Plain]

theorem everywhere_plain_quotedBy (quote : CodePoint) :
    (quotedBy quote).Everywhere Plain := by
  simp [quotedBy, picking, unescaped, Everywhere, EverywhereAll, Plain,
    everywhere_plain_escapeSequence]

theorem everywhere_plain_token {g : Grammar} (h : g.Everywhere Plain) :
    g.token.Everywhere Plain := by
  simp [token, picking, optionalWhitespace, manyOf, Everywhere, EverywhereAll, Plain, h]

end Grammar

namespace Arithmetic

open Grammar

theorem everywhere_plain_number : number.Everywhere Plain := by
  simp [number, digit, oneOrMore, Everywhere, everywhereAll_iff, Plain]

theorem everywhere_plain_level
    {operand : Grammar} (h : operand.Everywhere Plain) (symbols : Text) :
    (level operand symbols).Everywhere Plain := by
  have hsymbol :
      (Grammar.oneOf (symbols.map fun c => literal [c])).token.Everywhere Plain := by
    apply everywhere_plain_token
    simp [Everywhere, everywhereAll_iff, Plain]
  simp [level, operation, Everywhere, EverywhereAll, Plain, h, hsymbol]

theorem everywhere_plain_parenthesizedOf
    {inner : Grammar} (h : inner.Everywhere Plain) :
    (parenthesizedOf inner).Everywhere Plain := by
  have hbracket (t : Text) : (literal t).token.Everywhere Plain :=
    everywhere_plain_token (by simp [Everywhere, Plain])
  simp [parenthesizedOf, picking, Everywhere, EverywhereAll, Plain, h, hbracket]

theorem everywhere_plain_factorOf
    {inner : Grammar} (h : inner.Everywhere Plain) :
    (factorOf inner).Everywhere Plain := by
  simp [factorOf, Everywhere, EverywhereAll, Plain, everywhere_plain_parenthesizedOf h,
    everywhere_plain_token everywhere_plain_number]

theorem everywhere_plain_expression : expression.Everywhere Plain := by
  have hself : self.Everywhere Plain := by simp [Everywhere, Plain]
  refine ⟨trivial, ?_⟩
  exact everywhere_plain_level (everywhere_plain_level (everywhere_plain_factorOf hself) _) _

end Arithmetic

namespace Grammar

theorem everywhere_plain_of_mem_readyMade
    {g : Grammar} (hg : g ∈ readyMade) : g.Everywhere Plain := by
  have hexpression := Arithmetic.everywhere_plain_expression
  have hfactor := Arithmetic.everywhere_plain_factorOf hexpression
  simp only [readyMade, List.mem_cons, List.not_mem_nil, or_false] at hg
  rcases hg with rfl | rfl | rfl | rfl | rfl | rfl | rfl | rfl | rfl | rfl | rfl | rfl | rfl
  · simp [whitespace, someOf, Everywhere, Plain]
  · simp [optionalWhitespace, manyOf, Everywhere, Plain]
  · exact everywhere_plain_integerNumber
  · simp [floatNumber, Everywhere, Plain]
  · simp [unicodeEscape, picking, Everywhere, EverywhereAll, Plain]
  · exact everywhere_plain_escapeSequence
  · simp [quotedString, Everywhere, EverywhereAll, Plain, everywhere_plain_quotedBy]
  · simp [identifier, Everywhere, Plain]
  · exact Arithmetic.everywhere_plain_number
  · exact Arithmetic.everywhere_plain_parenthesizedOf hexpression
  · exact hfactor
  · exact Arithmetic.everywhere_plain_level hfactor _
  · exact hexpression

theorem everywhere_of_mem_readyMade
    {P : Grammar → Prop} (hP : ∀ g, Plain g → P g) {g : Grammar} (hg : g ∈ readyMade) :
    g.Everywhere P :=
  (everywhere_plain_of_mem_readyMade hg).mono hP

end Grammar

end Descent
