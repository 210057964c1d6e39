import Descent.Proofs.Arithmetic.Number
import Descent.Proofs.Grammar.Limit
import Descent.Proofs.Lexeme.Harmless

/-!
# Conversions inside the grammars of arithmetic

A number converts the run of digits that it has matched, which fails if the run is too long.  The
other functions in the grammars only rearrange outputs, and the outputs they are applied to have the
shape that they expect.  A grammar that contains itself is treated by induction on the number of its
unrollings.
-/

namespace Descent.Arithmetic

open Grammar

variable {decimals located : Prop} {operand inner : Grammar} {ctx : Context} {src : Text}

/-! ### Numbers -/

theorem harmless_characters (symbols : Text) :
    ((oneOf (symbols.map fun c => literal [c])).run ctx).Harmless decimals located := by
  apply harmless_oneOf
  intro g hg
  obtain ⟨c, -, rfl⟩ := List.mem_map.mp hg
  exact harmless_literal [c]

theorem run_number_of_overlong
    (hlimit : src.length ≤ ctx.limit) (h : Numeral.decimalLimit < src.leadingDigits.length) :
    number.run ctx src = .raised (.tooManyDigits src.leadingDigits.length) := by
  have hsome : src.leadingDigits ≠ [] := List.ne_nil_of_length_pos (Nat.zero_lt_of_lt h)
  rw [run_number_of_digits hsome hlimit, if_pos h]

theorem exists_reply_number
    (hlimit : src.length ≤ ctx.limit) (h : src.leadingDigits.length ≤ Numeral.decimalLimit) :
    ∃ r, number.run ctx src = .returned r := by
  by_cases hnone : src.leadingDigits = []
  · obtain ⟨message, hfail⟩ := run_number_of_no_digits hnone ctx
    exact ⟨_, hfail⟩
  · rw [run_number_of_digits hnone hlimit, if_neg (Nat.not_lt.mpr h)]
    exact ⟨_, rfl⟩

theorem number_raises_iff (hlimit : src.length ≤ ctx.limit) {fault : Fault} :
    number.run ctx src = .raised fault ↔
      Numeral.decimalLimit < src.leadingDigits.length ∧
        fault = .tooManyDigits src.leadingDigits.length := by
  constructor
  · intro h
    by_cases hlong : Numeral.decimalLimit < src.leadingDigits.length
    · obtain rfl : _ = fault := by simpa [run_number_of_overlong hlimit hlong] using h
      exact ⟨hlong, rfl⟩
    · obtain ⟨r, hr⟩ := exists_reply_number hlimit (Nat.not_lt.mp hlong)
      simp [hr] at h
  · rintro ⟨hlong, rfl⟩
    exact run_number_of_overlong hlimit hlong

theorem harmless_number (hdecimals : decimals) : (number.run ctx).Harmless decimals located where
  confined hlocated := by
    have hdigits : (digit.oneOrMore.run ctx).Harmless decimals located :=
      harmless_oneOrMore (harmless_characters Alphabet.decimal)
    exact (hdigits.confined hlocated).map _
  overlong src fault h := by
    -- whether the limit suffices for the digits does not matter to what is raised
    obtain ⟨ctx', hgrows, hlimit⟩ := ctx.exists_growsTo src.length
    have hraise := (growsTo_run number hgrows src).eq_raised h
    obtain ⟨hlong, rfl⟩ := (number_raises_iff hlimit).mp hraise
    exact ⟨hdecimals, _, rfl, hlong, fun _ => ⟨src, List.suffix_refl src, rfl⟩⟩

/-! ### Levels and parentheses -/

theorem harmless_level (h : (operand.run ctx).Harmless decimals located) (symbols : Text) :
    ((level operand symbols).run ctx).Harmless decimals located := by
  have hoperation : ((operation operand symbols).run ctx).Harmless decimals located :=
    harmless_sequence (by simpa using ⟨harmless_token (harmless_characters symbols), h⟩)
  apply harmless_map (harmless_sequence (by simpa using ⟨h, hoperation.many _⟩))
  intro v hv
  obtain ⟨vs, rfl, hvs⟩ := yields_sequence hv
  rcases hvs with _ | ⟨-, _ | ⟨hmany, _ | _⟩⟩
  obtain ⟨_ | ⟨operation, operations⟩, rfl, -⟩ := Parser.yields_many hmany
  · exact ⟨_, rfl⟩
  · exact ⟨_, rfl⟩

theorem harmless_parenthesizedOf (h : (inner.run ctx).Harmless decimals located) :
    ((parenthesizedOf inner).run ctx).Harmless decimals located := by
  have hbracket (t : Text) : ((literal t).token.run ctx).Harmless decimals located :=
    harmless_token (harmless_literal t)
  exact harmless_picking (by simp) (by simpa using ⟨hbracket _, h, hbracket _⟩)

theorem harmless_factorOf
    (hdecimals : decimals) (h : (inner.run ctx).Harmless decimals located) :
    ((factorOf inner).run ctx).Harmless decimals located :=
  harmless_oneOf
    (by simpa using ⟨harmless_token (harmless_number hdecimals), harmless_parenthesizedOf h⟩)

theorem harmless_expression (hdecimals : decimals) :
    (expression.run ctx).Harmless decimals located := by
  apply Parser.harmless_recursive
  intro p hp
  have hself : (self.run { ctx with self := p }).Harmless decimals located := hp
  exact harmless_level (harmless_level (harmless_factorOf hdecimals hself) _) _

end Descent.Arithmetic
