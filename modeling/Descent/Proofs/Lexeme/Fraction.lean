import Descent.Lexeme.Fraction
import Descent.Proofs.Lexeme.Integer
import Descent.Proofs.Parser.Output
import Descent.Proofs.Pattern.Longest

/-!
# Written fractions and what they stand for

A written float has a sign that may be missing, and then digits with a point among them or an
exponent behind them, or both.  It stands for its digits, read as one numeral, times a power of
ten.  The pattern of floats matches exactly these texts.  Reading takes a text to pieces in the
same way, so every matched text is read, and as the float nearest to the number that it stands for.
-/

namespace Descent

open Alphabet

namespace Numeral

/-- A text of decimal digits, perhaps empty. -/
def Digits (t : Text) : Prop := ∀ c ∈ t, c ∈ decimal

/-- A written exponent, or nothing. -/
inductive Exponent : Text → Prop
  | none : Exponent []
  | some {mark : CodePoint} {sign digits : Text} (hmark : mark ∈ ("eE" : Text))
      (hsign : sign = [] ∨ ∃ c ∈ ("+-" : Text), sign = [c]) (hne : digits ≠ [])
      (hdigits : Digits digits) : Exponent (mark :: (sign ++ digits))

/-- The parts of a written fraction, without its sign. -/
inductive Unsigned : Text → Prop
  | whole {digits exponent : Text} (hne : digits ≠ []) (hdigits : Digits digits)
      (hexponent : Exponent exponent) : Unsigned (digits ++ exponent)
  | point {whole fraction exponent : Text} (hne : whole ++ fraction ≠ [])
      (hwhole : Digits whole) (hfraction : Digits fraction) (hexponent : Exponent exponent) :
      Unsigned (whole ++ ('.' : CodePoint) :: (fraction ++ exponent))

/-- At least one decimal digit. -/
structure SomeDigits (t : Text) : Prop where
  ne_nil : t ≠ []
  digits : Digits t

/-- A written exponent and its value, which is zero if there is none. -/
inductive ExponentOf : Text → Int → Prop
  | none : ExponentOf [] 0
  | unsigned {mark : CodePoint} {digits : Text} (hmark : mark ∈ ("eE" : Text))
      (hdigits : SomeDigits digits) : ExponentOf (mark :: digits) (value 10 digits)
  | plus {mark : CodePoint} {digits : Text} (hmark : mark ∈ ("eE" : Text))
      (hdigits : SomeDigits digits) : ExponentOf (mark :: '+' :: digits) (value 10 digits)
  | minus {mark : CodePoint} {digits : Text} (hmark : mark ∈ ("eE" : Text))
      (hdigits : SomeDigits digits) : ExponentOf (mark :: '-' :: digits) (-(value 10 digits : Int))

/-- A float without a sign, its digits, and the power of ten by which their value is multiplied. -/
inductive UnsignedFloat : Text → (digits : Text) → (exponent : Int) → Prop
  /-- Digits on both sides of a point. -/
  | point {whole fraction written : Text} {e : Int} (hwhole : SomeDigits whole)
      (hfraction : SomeDigits fraction) (hexponent : ExponentOf written e) :
      UnsignedFloat (whole ++ ('.' : CodePoint) :: (fraction ++ written)) (whole ++ fraction)
        (e - fraction.length)
  | whole {whole written : Text} {e : Int} (hwhole : SomeDigits whole) (hne : written ≠ [])
      (hexponent : ExponentOf written e) : UnsignedFloat (whole ++ written) whole e
  /-- A point with nothing but an exponent behind it. -/
  | dotted {whole written : Text} {e : Int} (hwhole : SomeDigits whole) (hne : written ≠ [])
      (hexponent : ExponentOf written e) :
      UnsignedFloat (whole ++ ('.' : CodePoint) :: written) whole e
  /-- A point with nothing in front of it. -/
  | bare {fraction written : Text} {e : Int} (hfraction : SomeDigits fraction)
      (hexponent : ExponentOf written e) :
      UnsignedFloat (('.' : CodePoint) :: (fraction ++ written)) fraction (e - fraction.length)

/-- A float, whether it is negative, its digits, and the power of ten by which their value is
multiplied. -/
inductive WrittenFloat : Text → (negative : Bool) → (digits : Text) → (exponent : Int) → Prop
  | unsigned {body digits : Text} {e : Int} (hbody : UnsignedFloat body digits e) :
      WrittenFloat body false digits e
  | minus {body digits : Text} {e : Int} (hbody : UnsignedFloat body digits e) :
      WrittenFloat (('-' : CodePoint) :: body) true digits e

def IsFloat (t : Text) : Prop := ∃ negative digits e, WrittenFloat t negative digits e

variable {t u w digits : Text} {negative : Bool} {e : Int}

/-! ### The parts of a written float -/

theorem digits_nil : Digits [] := by
  simp [Digits]

theorem SomeDigits.append (ht : SomeDigits t) (hu : SomeDigits u) : SomeDigits (t ++ u) where
  ne_nil := by simp [ht.ne_nil]
  digits := by
    intro c hc
    exact (List.mem_append.mp hc).elim (ht.digits c) (hu.digits c)

theorem exponent_iff_exists_exponentOf : Exponent t ↔ ∃ e, ExponentOf t e := by
  constructor
  · intro h
    cases h with
    | none => exact ⟨0, .none⟩
    | @some mark sign digits hmark hsign hne hdigits =>
        rcases hsign with rfl | ⟨c, hc, rfl⟩
        · exact ⟨_, .unsigned hmark ⟨hne, hdigits⟩⟩
        · obtain rfl | rfl : c = '+' ∨ c = '-' := by simpa [Text.ofString] using hc
          · exact ⟨_, .plus hmark ⟨hne, hdigits⟩⟩
          · exact ⟨_, .minus hmark ⟨hne, hdigits⟩⟩
  · rintro ⟨e, h⟩
    cases h with
    | none => exact .none
    | @unsigned mark digits hmark hdigits =>
        exact @Exponent.some mark [] digits hmark (.inl rfl) hdigits.ne_nil hdigits.digits
    | @plus mark digits hmark hdigits =>
        exact @Exponent.some mark ['+'] digits hmark (.inr ⟨'+', by decide, rfl⟩) hdigits.ne_nil
          hdigits.digits
    | @minus mark digits hmark hdigits =>
        exact @Exponent.some mark ['-'] digits hmark (.inr ⟨'-', by decide, rfl⟩) hdigits.ne_nil
          hdigits.digits

theorem ExponentOf.exponent (h : ExponentOf t e) : Exponent t :=
  exponent_iff_exists_exponentOf.mpr ⟨e, h⟩

theorem Exponent.head?_mem (h : Exponent t) : ∀ c ∈ t.head?, c ∈ ("eE" : Text) := by
  cases h with
  | none => simp
  | some hmark _ _ _ => simpa using hmark

theorem UnsignedFloat.unsigned (h : UnsignedFloat t digits e) : Unsigned t := by
  cases h with
  | point hwhole hfraction hexponent =>
      exact .point (by simp [hwhole.ne_nil]) hwhole.digits hfraction.digits hexponent.exponent
  | whole hwhole _ hexponent => exact .whole hwhole.ne_nil hwhole.digits hexponent.exponent
  | @dotted _ written _ hwhole _ hexponent =>
      have hne : digits ++ [] ≠ [] := by simp [hwhole.ne_nil]
      exact @Unsigned.point digits [] written hne hwhole.digits digits_nil hexponent.exponent
  | @bare _ written _ hfraction hexponent =>
      exact @Unsigned.point [] digits written hfraction.ne_nil digits_nil hfraction.digits
        hexponent.exponent

theorem Unsigned.strip?_minus (h : Unsigned t) : Text.strip? "-" t = none := by
  have hhead : ∀ c ∈ t.head?, c ∈ decimal ∨ c = '.' := by
    cases h with
    | @whole digits exponent hne hdigits _ =>
        obtain ⟨d, digits, rfl⟩ := List.exists_cons_of_ne_nil hne
        simp [hdigits d]
    | @point whole fraction exponent _ hwhole _ _ =>
        cases whole with
        | nil => simp
        | cons d whole => simp [hwhole d]
  cases hstrip : Text.strip? "-" t with
  | none => rfl
  | some rest =>
      obtain rfl := Text.strip?_eq_some_iff.mp hstrip
      exact absurd (hhead _ rfl) (by decide)

/-- Behind the sign stands a float without a sign. -/
theorem WrittenFloat.unsignedFloat (h : WrittenFloat t negative digits e) :
    UnsignedFloat t.unsigned digits e ∧ (Text.strip? "-" t).isSome = negative := by
  cases h with
  | unsigned hbody =>
      have hstrip := hbody.unsigned.strip?_minus
      simpa [Text.unsigned, hstrip] using hbody
  | minus hbody => exact ⟨hbody, rfl⟩

end Numeral

/-! ### What the pattern matches -/

namespace Pattern

theorem matches_oneOf_iff {cs w : Text} : (oneOf cs).Matches w ↔ ∃ c ∈ cs, w = [c] := by
  simp [oneOf, Matches, CharSet.ofText]

theorem matches_maybe_oneOf_singleton_iff {c : CodePoint} {w : Text} :
    (maybe (oneOf [c])).Matches w ↔ w = [] ∨ w = [c] := by
  simp [matches_maybe_iff, matches_oneOf_iff]

/-- What may follow the digits in front of a float. -/
def behindWhole : Pattern := alt fraction (seq (maybe (oneOf ".")) exponent)

/-- The pattern of floats behind the sign. -/
def unsignedFloat : Pattern := alt (seq decimalDigits behindWhole) fraction

end Pattern

namespace Numeral

variable {t w digits : Text} {negative : Bool} {e : Int}

theorem matches_decimalDigits_iff : Pattern.decimalDigits.Matches w ↔ SomeDigits w := by
  constructor
  · intro h
    obtain ⟨hne, hall⟩ := Pattern.matches_oneOrMore_set h
    exact ⟨hne, by simpa [CharSet.ofText, Digits] using hall⟩
  · intro h
    refine ⟨w.map fun c => [c], ?_, ⟨?_, by simp⟩, ?_⟩
    · intro u hu
      obtain ⟨c, hc, rfl⟩ := List.mem_map.mp hu
      exact Pattern.matches_oneOf_iff.mpr ⟨c, h.digits c hc, rfl⟩
    · simpa [Nat.one_le_iff_ne_zero] using h.ne_nil
    · rw [← List.flatMap_def]
      exact (List.flatMap_singleton' w).symm

theorem matches_exponent_iff : Pattern.exponent.Matches w ↔ w ≠ [] ∧ Exponent w := by
  constructor
  · rintro ⟨u, v, hu, ⟨sign, digits, hsign, hdigits, rfl⟩, rfl⟩
    obtain ⟨mark, hmark, rfl⟩ := Pattern.matches_oneOf_iff.mp hu
    have hsign := (Pattern.matches_maybe_iff.mp hsign).imp_right Pattern.matches_oneOf_iff.mp
    have hdigits := matches_decimalDigits_iff.mp hdigits
    exact ⟨by simp, @Exponent.some mark sign digits hmark hsign hdigits.ne_nil hdigits.digits⟩
  · rintro ⟨hne, h⟩
    cases h with
    | none => contradiction
    | @some mark sign digits hmark hsign hsome hdigits =>
        refine ⟨[mark], sign ++ digits, Pattern.matches_oneOf_iff.mpr ⟨mark, hmark, rfl⟩,
          ⟨sign, digits, ?_, matches_decimalDigits_iff.mpr ⟨hsome, hdigits⟩, rfl⟩, rfl⟩
        exact Pattern.matches_maybe_iff.mpr (hsign.imp_right Pattern.matches_oneOf_iff.mpr)

theorem matches_maybe_exponent_iff :
    (Pattern.maybe Pattern.exponent).Matches w ↔ Exponent w := by
  rw [Pattern.matches_maybe_iff, matches_exponent_iff]
  constructor
  · rintro (rfl | ⟨-, h⟩)
    · exact .none
    · exact h
  · intro h
    exact (em (w = [])).imp_right fun hne => ⟨hne, h⟩

theorem matches_fraction_iff :
    Pattern.fraction.Matches w ↔ ∃ fraction written,
      SomeDigits fraction ∧ Exponent written ∧ w = ('.' : CodePoint) :: (fraction ++ written) := by
  constructor
  · rintro ⟨u, v, hu, ⟨fraction, written, hfraction, hwritten, rfl⟩, rfl⟩
    obtain ⟨c, hc, rfl⟩ := Pattern.matches_oneOf_iff.mp hu
    obtain rfl : c = ('.' : CodePoint) := by simpa [Text.ofString] using hc
    exact ⟨fraction, written, matches_decimalDigits_iff.mp hfraction,
      matches_maybe_exponent_iff.mp hwritten, rfl⟩
  · rintro ⟨fraction, written, hfraction, hwritten, rfl⟩
    have hpoint : (Pattern.oneOf ".").Matches ['.'] := ⟨'.', by decide, rfl⟩
    exact ⟨['.'], fraction ++ written, hpoint, ⟨fraction, written,
      matches_decimalDigits_iff.mpr hfraction, matches_maybe_exponent_iff.mpr hwritten, rfl⟩, rfl⟩

theorem matches_behindWhole_iff :
    Pattern.behindWhole.Matches w ↔ Pattern.fraction.Matches w ∨
      ∃ written, written ≠ [] ∧ Exponent written ∧
        (w = written ∨ w = ('.' : CodePoint) :: written) := by
  apply or_congr_right
  constructor
  · rintro ⟨point, written, hpoint, hexponent, rfl⟩
    obtain ⟨hne, hexponent⟩ := matches_exponent_iff.mp hexponent
    refine ⟨written, hne, hexponent, ?_⟩
    rcases Pattern.matches_maybe_oneOf_singleton_iff.mp hpoint with rfl | rfl
    · exact .inl rfl
    · exact .inr rfl
  · rintro ⟨written, hne, hexponent, hw⟩
    have hexponent := matches_exponent_iff.mpr ⟨hne, hexponent⟩
    rcases hw with rfl | rfl
    · exact ⟨[], w, Pattern.matches_maybe_oneOf_singleton_iff.mpr (.inl rfl), hexponent, rfl⟩
    · exact ⟨['.'], written, Pattern.matches_maybe_oneOf_singleton_iff.mpr (.inr rfl), hexponent,
        rfl⟩

theorem matches_unsignedFloat_iff :
    Pattern.unsignedFloat.Matches w ↔ ∃ digits e, UnsignedFloat w digits e := by
  constructor
  · rintro (⟨whole, rest, hwhole, hrest, rfl⟩ | hbare)
    · have hwhole := matches_decimalDigits_iff.mp hwhole
      rcases matches_behindWhole_iff.mp hrest with hpoint | ⟨written, hne, hexponent, hrest⟩
      · obtain ⟨fraction, written, hfraction, hexponent, rfl⟩ := matches_fraction_iff.mp hpoint
        obtain ⟨e, he⟩ := exponent_iff_exists_exponentOf.mp hexponent
        exact ⟨_, _, .point hwhole hfraction he⟩
      · obtain ⟨e, he⟩ := exponent_iff_exists_exponentOf.mp hexponent
        rcases hrest with rfl | rfl
        · exact ⟨_, _, .whole hwhole hne he⟩
        · exact ⟨_, _, .dotted hwhole hne he⟩
    · obtain ⟨fraction, written, hfraction, hexponent, rfl⟩ := matches_fraction_iff.mp hbare
      obtain ⟨e, he⟩ := exponent_iff_exists_exponentOf.mp hexponent
      exact ⟨_, _, .bare hfraction he⟩
  · rintro ⟨digits, e, h⟩
    have hinFront : ∀ {whole rest : Text}, SomeDigits whole → Pattern.behindWhole.Matches rest →
        Pattern.unsignedFloat.Matches (whole ++ rest) := by
      intro whole rest hwhole hrest
      exact .inl ⟨whole, rest, matches_decimalDigits_iff.mpr hwhole, hrest, rfl⟩
    cases h with
    | point hwhole hfraction he =>
        have hpoint := matches_fraction_iff.mpr ⟨_, _, hfraction, he.exponent, rfl⟩
        exact hinFront hwhole (matches_behindWhole_iff.mpr (.inl hpoint))
    | whole hwhole hne he =>
        exact hinFront hwhole (matches_behindWhole_iff.mpr (.inr ⟨_, hne, he.exponent, .inl rfl⟩))
    | dotted hwhole hne he =>
        exact hinFront hwhole (matches_behindWhole_iff.mpr (.inr ⟨_, hne, he.exponent, .inr rfl⟩))
    | bare hdigits he => exact .inr (matches_fraction_iff.mpr ⟨_, _, hdigits, he.exponent, rfl⟩)

/-- The pattern matches the written floats and nothing else. -/
theorem matches_floatNumber : Pattern.floatNumber.Matches = IsFloat := by
  funext w
  apply propext
  constructor
  · rintro ⟨sign, body, hsign, hbody, rfl⟩
    obtain ⟨digits, e, hbody⟩ := matches_unsignedFloat_iff.mp hbody
    rcases Pattern.matches_maybe_oneOf_singleton_iff.mp hsign with rfl | rfl
    · exact ⟨_, _, _, .unsigned hbody⟩
    · exact ⟨_, _, _, .minus hbody⟩
  · rintro ⟨negative, digits, e, h⟩
    cases h with
    | unsigned hbody =>
        exact ⟨[], _, Pattern.matches_maybe_oneOf_singleton_iff.mpr (.inl rfl),
          matches_unsignedFloat_iff.mpr ⟨_, _, hbody⟩, rfl⟩
    | minus hbody =>
        exact ⟨['-'], _, Pattern.matches_maybe_oneOf_singleton_iff.mpr (.inr rfl),
          matches_unsignedFloat_iff.mpr ⟨_, _, hbody⟩, rfl⟩

/-! ### Reading the parts -/

theorem read?_of_someDigits (h : SomeDigits t) : read? 10 t = some (value 10 t) :=
  read?_eq_some_value h.ne_nil fun c hc => (mem_decimal_iff c).mp (h.digits c hc)

theorem spanDigits_append {rest : Text} (hdigits : Digits digits)
    (hrest : ∀ c ∈ rest.head?, c ∉ decimal) : spanDigits (digits ++ rest) = (digits, rest) := by
  have hall : ∀ c ∈ digits, CharSet.digits c = true :=
    fun c hc => (digits_iff_mem_decimal c).mpr (hdigits c hc)
  rw [spanDigits, List.takeWhile_append_of_pos hall, List.dropWhile_append_of_pos hall]
  cases rest with
  | nil => simp
  | cons c rest =>
      have hc : ¬ CharSet.digits c = true := by
        rw [digits_iff_mem_decimal]
        exact hrest c rfl
      simp [hc]

theorem exponentOf?_eq (h : ExponentOf t e) : exponentOf? t = some e := by
  cases h with
  | none => rfl
  | @unsigned mark digits hmark hdigits =>
      have hread := read?_of_someDigits hdigits
      obtain ⟨d, digits, rfl⟩ := List.exists_cons_of_ne_nil hdigits.ne_nil
      have hd : d ∈ decimal := hdigits.digits d (by simp)
      have hminus : d ≠ '-' := ne_of_mem_of_not_mem hd (by decide)
      have hplus : d ≠ '+' := ne_of_mem_of_not_mem hd (by decide)
      simp [exponentOf?, hminus, hplus, hread]
  | plus hmark hdigits =>
      have hminus : ('+' : CodePoint) ≠ '-' := by decide
      simp [exponentOf?, hminus, read?_of_someDigits hdigits]
  | minus hmark hdigits => simp [exponentOf?, read?_of_someDigits hdigits]

/-- The digits in front of a point, the digits behind it and the exponent that reading takes from a
text without a sign. -/
def TakenApart (body whole fraction written : Text) : Prop :=
  ∃ rest, spanDigits body = (whole, rest) ∧
    (Text.strip? "." rest = none ∧ fraction = [] ∧ written = rest ∨
      ∃ behind, Text.strip? "." rest = some behind ∧ spanDigits behind = (fraction, written))

variable {whole fraction written : Text}

theorem takenApart_whole (hwhole : Digits whole) (hwritten : Exponent written) :
    TakenApart (whole ++ written) whole [] written := by
  have hhead := hwritten.head?_mem
  have hmarks : ∀ c ∈ ("eE" : Text), c ∉ decimal ∧ c ≠ '.' := by decide
  have hpoint : Text.strip? "." written = none := by
    cases hstrip : Text.strip? "." written with
    | none => rfl
    | some behind =>
        obtain rfl := Text.strip?_eq_some_iff.mp hstrip
        exact absurd rfl (hmarks _ (hhead _ rfl)).2
  exact ⟨written, spanDigits_append hwhole fun c hc => (hmarks c (hhead c hc)).1,
    .inl ⟨hpoint, rfl, rfl⟩⟩

theorem takenApart_point (hwhole : Digits whole) (hfraction : Digits fraction)
    (hwritten : Exponent written) :
    TakenApart (whole ++ ('.' : CodePoint) :: (fraction ++ written)) whole fraction written := by
  have hhead := hwritten.head?_mem
  have hmarks : ∀ c ∈ ("eE" : Text), c ∉ decimal := by decide
  refine ⟨'.' :: (fraction ++ written), spanDigits_append hwhole ?_,
    .inr ⟨fraction ++ written, Text.strip?_append "." _,
      spanDigits_append hfraction fun c hc => hmarks c (hhead c hc)⟩⟩
  intro c hc
  obtain rfl : '.' = c := by simpa using hc
  decide

theorem float?_of_takenApart (hparts : TakenApart t.unsigned whole fraction written)
    (hdigits : SomeDigits (whole ++ fraction)) (he : ExponentOf written e) :
    float? t = some (Binary64.ofDecimal (Text.strip? "-" t).isSome
      (value 10 (whole ++ fraction)) (e - fraction.length)) := by
  obtain ⟨rest, hspan, hpoint⟩ := hparts
  have hread := read?_of_someDigits hdigits
  have hexponent := exponentOf?_eq he
  unfold Text.unsigned at hspan
  cases hstrip : Text.strip? "-" t with
  | none =>
      have hspan : spanDigits t = (whole, rest) := by simpa [hstrip] using hspan
      rcases hpoint with ⟨hpoint, rfl, rfl⟩ | ⟨behind, hpoint, hfraction⟩
      · simp only [float?, hstrip, hspan, hpoint, hread, hexponent]
        rfl
      · simp only [float?, hstrip, hspan, hpoint, hfraction, hread, hexponent]
        rfl
  | some body =>
      have hspan : spanDigits body = (whole, rest) := by simpa [hstrip] using hspan
      rcases hpoint with ⟨hpoint, rfl, rfl⟩ | ⟨behind, hpoint, hfraction⟩
      · simp only [float?, hstrip, hspan, hpoint, hread, hexponent]
        rfl
      · simp only [float?, hstrip, hspan, hpoint, hfraction, hread, hexponent]
        rfl

theorem float?_of_unsignedFloat (h : UnsignedFloat t.unsigned digits e) :
    float? t = some (Binary64.ofDecimal (Text.strip? "-" t).isSome (value 10 digits) e) := by
  generalize hbody : t.unsigned = body at h
  cases h with
  | @point whole fraction written k hwhole hfraction hk =>
      have hparts : TakenApart t.unsigned whole fraction written :=
        hbody ▸ takenApart_point hwhole.digits hfraction.digits hk.exponent
      exact float?_of_takenApart hparts (hwhole.append hfraction) hk
  | @whole _ written _ hwhole _ hk =>
      have hparts : TakenApart t.unsigned digits [] written :=
        hbody ▸ takenApart_whole hwhole.digits hk.exponent
      have hread := float?_of_takenApart hparts (by simpa using hwhole) hk
      simpa using hread
  | @dotted _ written _ hwhole _ hk =>
      have hparts : TakenApart t.unsigned digits [] written :=
        hbody ▸ takenApart_point hwhole.digits digits_nil hk.exponent
      have hread := float?_of_takenApart hparts (by simpa using hwhole) hk
      simpa using hread
  | @bare _ written k hfraction hk =>
      have hparts : TakenApart t.unsigned [] digits written :=
        hbody ▸ takenApart_point digits_nil hfraction.digits hk.exponent
      exact float?_of_takenApart hparts (by simpa using hfraction) hk

/-- Reading gives the float nearest to the number that a written float stands for. -/
theorem float?_of_writtenFloat (h : WrittenFloat t negative digits e) :
    float? t = some (Binary64.ofDecimal negative (value 10 digits) e) := by
  obtain ⟨hbody, rfl⟩ := h.unsignedFloat
  exact float?_of_unsignedFloat hbody

end Numeral

theorem Value.exists_toFloat_of_yields {v : Value}
    (h : (Parser.pattern .floatNumber).Yields v) : ∃ x, v.toFloat = .ok (.float x) := by
  obtain ⟨src, w, rest, hmatch, rfl⟩ := Parser.yields_pattern h
  have hmatches := (Pattern.matches_of_matchStart? hmatch).1
  rw [Numeral.matches_floatNumber] at hmatches
  obtain ⟨negative, digits, e, hwritten⟩ := hmatches
  refine ⟨Binary64.ofDecimal negative (Numeral.value 10 digits) e, ?_⟩
  simp [toFloat, Numeral.float?_of_writtenFloat hwritten]

end Descent
