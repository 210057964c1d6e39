import Descent.Proofs.Lexeme.Fraction
import Descent.Proofs.Lexeme.Positional
import Descent.Proofs.Verdict.Location

/-!
# The longest float

The pattern of floats prefers its alternatives in a fixed order, yet it finds the longest float
that a text begins with.  A run of digits is never followed by a digit, a point behind it decides
between the alternatives by the next character, and a sign, a point and a mark of an exponent are
no digits.  So wherever the pattern may go on, at most one way is open.  What it finds is read
without a limit to the number of digits.  A float has a point or a mark of an exponent, and an
integer has neither.
-/

namespace Descent

open Numeral

theorem CharSet.ofText_mono {cs ds : Text} (h : ∀ c ∈ cs, c ∈ ds) (c : CodePoint)
    (hc : ofText cs c = true) : ofText ds c = true := by
  have hmem : c ∈ cs := by simpa [ofText] using hc
  simpa [ofText] using h c hmem

theorem CharSet.ofText_disjoint {cs ds : Text} (h : ∀ c ∈ cs, c ∉ ds) (c : CodePoint)
    (hc : ofText cs c = true) : ofText ds c = false := by
  have hmem : c ∈ cs := by simpa [ofText] using hc
  simpa [ofText] using h c hmem

/-! ### The pattern -/

namespace Pattern

theorem beginsIn_decimalDigits : decimalDigits.BeginsIn (CharSet.ofText Alphabet.decimal) :=
  beginsIn_oneOrMore_set _

theorem beginsIn_exponent : exponent.BeginsIn (CharSet.ofText "eE") :=
  beginsIn_set_seq _ _

theorem beginsIn_fraction : fraction.BeginsIn (CharSet.ofText ".") :=
  beginsIn_set_seq _ _

theorem findsLongest_exponent : exponent.FindsLongest := by
  have hsigned : (seq (maybe (oneOf "+-")) decimalDigits).FindsLongest :=
    findsLongest_maybe_set_seq (findsLongest_oneOrMore_set _) beginsIn_decimalDigits
      (CharSet.ofText_disjoint (by decide))
  exact findsLongest_set_seq _ hsigned

theorem findsLongest_fraction : fraction.FindsLongest := by
  have hdigits : (seq decimalDigits (maybe exponent)).FindsLongest := by
    apply findsLongest_oneOrMore_set_seq findsLongest_exponent.maybe
    intro v hv c hc
    rcases matches_maybe_iff.mp hv with rfl | hv
    · simp at hc
    · exact beginsIn_exponent.head?_eq_false (CharSet.ofText_disjoint (by decide)) hv c hc
  exact findsLongest_set_seq _ hdigits

/-- Behind a point stands a digit in one case, and a mark of an exponent in the other. -/
theorem findsLongest_behindWhole : behindWhole.FindsLongest := by
  have hdotted : (seq (maybe (oneOf ".")) exponent).FindsLongest :=
    findsLongest_maybe_set_seq findsLongest_exponent beginsIn_exponent
      (CharSet.ofText_disjoint (by decide))
  have hdigit : Exclusive (seq decimalDigits (maybe exponent)) exponent :=
    exclusive_of_beginsIn (beginsIn_decimalDigits.seq _) beginsIn_exponent
      (CharSet.ofText_disjoint (by decide))
  have hpoint : Exclusive fraction exponent :=
    exclusive_of_beginsIn beginsIn_fraction beginsIn_exponent (CharSet.ofText_disjoint (by decide))
  exact findsLongest_fraction.alt hdotted ((hdigit.set_seq _ _).maybe_set_seq hpoint)

theorem beginsIn_behindWhole : behindWhole.BeginsIn (CharSet.ofText ".eE") :=
  (beginsIn_fraction.mono (CharSet.ofText_mono (by decide))).alt
    (beginsIn_maybe_set_seq (CharSet.ofText_mono (by decide))
      (beginsIn_exponent.mono (CharSet.ofText_mono (by decide))))

theorem beginsIn_unsignedFloat : unsignedFloat.BeginsIn (CharSet.ofText "0123456789.") :=
  ((beginsIn_decimalDigits.seq _).mono (CharSet.ofText_mono (by decide))).alt
    (beginsIn_fraction.mono (CharSet.ofText_mono (by decide)))

theorem findsLongest_unsignedFloat : unsignedFloat.FindsLongest := by
  have hwhole : (seq decimalDigits behindWhole).FindsLongest := by
    apply findsLongest_oneOrMore_set_seq findsLongest_behindWhole
    intro v hv
    exact beginsIn_behindWhole.head?_eq_false (CharSet.ofText_disjoint (by decide)) hv
  have hone : Exclusive (seq decimalDigits behindWhole) fraction :=
    exclusive_of_beginsIn (beginsIn_decimalDigits.seq _) beginsIn_fraction
      (CharSet.ofText_disjoint (by decide))
  exact hwhole.alt findsLongest_fraction hone

theorem findsLongest_floatNumber : floatNumber.FindsLongest :=
  findsLongest_maybe_set_seq findsLongest_unsignedFloat beginsIn_unsignedFloat
    (CharSet.ofText_disjoint (by decide))

end Pattern

namespace Numeral

variable {t digits : Text} {e : Int}

/-- The characters that floats are written with. -/
def floatCharacters : Text := Alphabet.decimal ++ ".eE+-"

theorem Digits.only (h : Digits t) : Text.Only floatCharacters t :=
  fun c hc => List.mem_append_left _ (h c hc)

theorem Exponent.only (h : Exponent t) : Text.Only floatCharacters t := by
  cases h with
  | none => simp [Text.Only]
  | @some mark sign digits hmark hsign hne hdigits =>
      have hmarks : ∀ c ∈ ("eE" : Text), c ∈ floatCharacters := by decide
      have hsigns : ∀ c ∈ ("+-" : Text), c ∈ floatCharacters := by decide
      have hsign : Text.Only floatCharacters sign := by
        rcases hsign with rfl | ⟨c, hc, rfl⟩
        · simp [Text.Only]
        · simpa [Text.Only] using hsigns c hc
      simp only [Text.Only, List.forall_mem_cons, List.forall_mem_append]
      exact ⟨hmarks mark hmark, hsign, hdigits.only⟩

theorem Unsigned.only (h : Unsigned t) : Text.Only floatCharacters t := by
  have hpoint : CodePoint.ofChar '.' ∈ floatCharacters := by decide
  cases h with
  | whole _ hdigits hexponent =>
      simp only [Text.Only, List.forall_mem_append]
      exact ⟨hdigits.only, hexponent.only⟩
  | point _ hwhole hfraction hexponent =>
      simp only [Text.Only, List.forall_mem_cons, List.forall_mem_append]
      exact ⟨hwhole.only, hpoint, hfraction.only, hexponent.only⟩

/-- A float does not consist of digits alone. -/
theorem UnsignedFloat.exists_notMem_decimal (h : UnsignedFloat t digits e) :
    ∃ c ∈ t, c ∉ Alphabet.decimal := by
  have hpoint : CodePoint.ofChar '.' ∉ Alphabet.decimal := by decide
  have hmarks : ∀ c ∈ ("eE" : Text), c ∉ Alphabet.decimal := by decide
  have hexponent : ∀ {written : Text} {e : Int}, written ≠ [] → ExponentOf written e →
      ∃ c ∈ written, c ∉ Alphabet.decimal := by
    intro written e hne he
    obtain ⟨c, written, rfl⟩ := List.exists_cons_of_ne_nil hne
    exact ⟨c, by simp, hmarks c (he.exponent.head?_mem c rfl)⟩
  cases h with
  | whole _ hne he =>
      obtain ⟨c, hc, hnot⟩ := hexponent hne he
      exact ⟨c, List.mem_append_right _ hc, hnot⟩
  | _ => exact ⟨CodePoint.ofChar '.', by simp, hpoint⟩

theorem Marks.exists_notMem_floatCharacters {mark kind : Text} {base : Nat}
    (h : Marks mark kind base) : ∃ c ∈ mark, c ∉ floatCharacters := by
  cases h with
  | binary => exact ⟨'b', by decide, by decide⟩
  | octal => exact ⟨'o', by decide, by decide⟩
  | hexadecimal => exact ⟨'x', by decide, by decide⟩

end Numeral

namespace Grammar

variable {t rest src digits : Text} {negative : Bool} {e : Int} {ctx : Context}

theorem run_floatNumber_of_none (h : ∀ t, IsFloat t → ¬ t <+: src) (ctx : Context) :
    floatNumber.run ctx src = Parser.failWith "input did not match regular expression" src := by
  have hnone : Pattern.floatNumber.matchStart? src = none := by
    rw [Pattern.findsLongest_floatNumber.matchStart?_eq_none_iff, matches_floatNumber]
    exact h
  simp [floatNumber, run, Parser.map, Parser.pattern, hnone, Parser.failWith]

theorem run_floatNumber_of_isLongestPrefix (hsrc : src = t ++ rest)
    (h : Text.IsLongestPrefix IsFloat t src) (ht : WrittenFloat t negative digits e)
    (ctx : Context) :
    floatNumber.run ctx src =
      .returned (.success (.float (Binary64.ofDecimal negative (value 10 digits) e)) rest) := by
  have hmatch : Pattern.floatNumber.matchStart? src = some (t, rest) := by
    rw [Pattern.findsLongest_floatNumber.matchStart?_eq_some_iff, matches_floatNumber]
    exact ⟨hsrc, h⟩
  have hread := float?_of_writtenFloat ht
  simp [floatNumber, run, Parser.map, Parser.pattern, hmatch, Value.toFloat, hread]

theorem exists_isLongestPrefix_isFloat (h : ∃ t, IsFloat t ∧ t <+: src) :
    ∃ t, Text.IsLongestPrefix IsFloat t src := by
  cases hmatch : Pattern.floatNumber.matchStart? src with
  | none =>
      rw [Pattern.findsLongest_floatNumber.matchStart?_eq_none_iff, matches_floatNumber] at hmatch
      obtain ⟨t, ht, hprefix⟩ := h
      exact absurd hprefix (hmatch t ht)
  | some m =>
      have hlongest := Pattern.findsLongest_floatNumber.isLongestPrefix hmatch
      rw [matches_floatNumber] at hlongest
      exact ⟨m.1, hlongest⟩

theorem exists_run_floatNumber_eq_failure_iff (ctx : Context) (src : Text) :
    (∃ f, floatNumber.run ctx src = .returned (.failure f)) ↔ ¬ ∃ t, IsFloat t ∧ t <+: src := by
  constructor
  · rintro ⟨f, hf⟩ hfloat
    obtain ⟨t, ht⟩ := exists_isLongestPrefix_isFloat hfloat
    obtain ⟨rest, hsrc⟩ := ht.isPrefix
    obtain ⟨negative, digits, e, hwritten⟩ := ht.mem
    rw [run_floatNumber_of_isLongestPrefix hsrc.symm ht hwritten] at hf
    simp at hf
  · intro hno
    exact ⟨_, run_floatNumber_of_none (fun t ht hprefix => hno ⟨t, ht, hprefix⟩) ctx⟩

theorem isFloat_of_run_eq_success
    {v : Value} (h : floatNumber.run ctx t = .returned (.success v [])) : IsFloat t := by
  have hfloat : ∃ u, IsFloat u ∧ u <+: t := by
    by_contra hno
    obtain ⟨f, hf⟩ := (exists_run_floatNumber_eq_failure_iff ctx t).mpr hno
    simp [hf] at h
  obtain ⟨u, hu⟩ := exists_isLongestPrefix_isFloat hfloat
  obtain ⟨rest, hsplit⟩ := hu.isPrefix
  obtain ⟨negative, digits, e, hwritten⟩ := hu.mem
  rw [run_floatNumber_of_isLongestPrefix hsplit.symm hu hwritten] at h
  obtain ⟨-, rfl⟩ : _ ∧ rest = [] := by simpa using h
  rw [List.append_nil] at hsplit
  exact hsplit ▸ hu.mem

/-! ### Integers -/

theorem readDigits_ne_of_notMem {sign : Int} {message : Text} {c : CodePoint} {v : Value}
    (hc : c ∈ t) (hnot : c ∉ Alphabet.decimal) :
    readDigits sign 10 message t ≠ .returned (.success v []) := by
  intro heq
  unfold readDigits at heq
  split_ifs at heq
  · simp at heq
  · simp only [Outcome.returned.injEq, Reply.success.injEq] at heq
    have hdigit := List.dropWhile_eq_nil_iff.mp heq.2 c hc
    exact hnot ((Alphabet.mem_decimal_iff c).mpr hdigit)

/-- No integer is read up to the end of a float: a float has no mark of a base, so the digits of an
integer end in front of its point or its exponent. -/
theorem run_integerNumber_ne_of_isFloat (h : IsFloat t) (v : Value) (ctx : Context) :
    integerNumber.run ctx t ≠ .returned (.success v []) := by
  obtain ⟨negative, digits, e, hwritten⟩ := h
  obtain ⟨hbody, -⟩ := hwritten.unsignedFloat
  have hnone : ∀ mark kind base, Marks mark kind base → ¬ mark <+: t.unsigned := by
    intro mark kind base hmarks hbegins
    obtain ⟨c, hc, hnot⟩ := hmarks.exists_notMem_floatCharacters
    exact hnot (hbody.unsigned.only c (hbegins.subset hc))
  rw [run_integerNumber_of_no_marks hnone]
  split_ifs
  · simp
  · obtain ⟨c, hc, hnot⟩ := hbody.exists_notMem_decimal
    exact readDigits_ne_of_notMem hc hnot

/-- A float is read exactly if the text begins with one.  Then the longest that it begins with is
read, however long it is, and the output is the nearest float to the number that it stands for.  No
text is accepted both as a float and as an integer. -/
theorem floatNumber_reads_longest (defs : Definitions) (limit : Nat) :
    (∀ src : Text,
      ((∃ f, floatNumber.apply defs limit src = .returned (.failure f)) ↔
        ¬ ∃ t, IsFloat t ∧ t <+: src) ∧
      ((∃ t, IsFloat t ∧ t <+: src) → ∃ t, Text.IsLongestPrefix IsFloat t src) ∧
      ∀ t rest negative digits e, src = t ++ rest → Text.IsLongestPrefix IsFloat t src →
        WrittenFloat t negative digits e →
        floatNumber.apply defs limit src =
          .returned (.success
            (.float (Binary64.ofDecimal negative (value 10 digits) e)) rest)) ∧
    ∀ (t : Text) (v v' : Value),
      ¬ ((Part.grammar floatNumber).parse defs limit t = .returned (.accepted v) ∧
        (Part.grammar integerNumber).parse defs limit t = .returned (.accepted v')) := by
  constructor
  · intro src
    refine ⟨exists_run_floatNumber_eq_failure_iff _ src, exists_isLongestPrefix_isFloat, ?_⟩
    intro t rest negative digits e hsrc hlongest ht
    exact run_floatNumber_of_isLongestPrefix hsrc hlongest ht _
  · rintro t v v' ⟨hfloat, hinteger⟩
    have hisFloat := isFloat_of_run_eq_success (Parser.parse_eq_accepted_iff.mp hfloat)
    exact run_integerNumber_ne_of_isFloat hisFloat v' _ (Parser.parse_eq_accepted_iff.mp hinteger)

example : floatNumber.apply [] 0 "-1.5e+x" =
    .returned (.success (.float (Binary64.ofDecimal true 15 (-1))) "e+x") := by rfl

end Grammar

end Descent
