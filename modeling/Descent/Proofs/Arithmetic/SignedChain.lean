import Descent.Proofs.Lexeme.Fraction
import Descent.Proofs.Text.LongestPrefix

/-!
# Chains of digit runs

Digit runs with a sign between any two of them stand for the number that comes out when the signs
are applied from right to left.  A text is the text of at most one chain.  A prefix of a text is the
longest chain there if what follows can go on neither with a digit nor with a sign and a digit
behind it, so a sign that nothing computable follows is left over.
-/

namespace Descent.Arithmetic

open Numeral Text

inductive Sign where
  | plus
  | minus

namespace Sign

def symbol : Sign → CodePoint
  | plus => '+'
  | minus => '-'

def apply : Sign → Int → Int → Int
  | plus, m, n => m + n
  | minus, m, n => m - n

theorem symbol_injective : Function.Injective symbol := by
  intro s s' h
  cases s <;> cases s' <;> first | rfl | exact absurd h (by decide)

theorem symbol_notMem_decimal (s : Sign) : s.symbol ∉ Alphabet.decimal := by
  cases s <;> decide

theorem mem_symbols_iff {c : CodePoint} : c ∈ ("+-" : Text) ↔ ∃ s : Sign, c = s.symbol := by
  constructor
  · intro hc
    obtain rfl | rfl : c = '+' ∨ c = '-' := by simpa [ofString] using hc
    · exact ⟨plus, rfl⟩
    · exact ⟨minus, rfl⟩
  · rintro ⟨s, rfl⟩
    cases s <;> decide

end Sign

abbrev DigitRun := { digits : Text // SomeDigits digits }

/-- Digit runs with a sign between any two of them. -/
inductive SignedChain where
  | number (digits : DigitRun)
  | operation (digits : DigitRun) (sign : Sign) (others : SignedChain)

namespace SignedChain

def text : SignedChain → Text
  | number digits => digits
  | operation digits sign others => digits ++ sign.symbol :: others.text

/-- The signs are applied from right to left. -/
def value : SignedChain → Int
  | number digits => Numeral.value 10 digits
  | operation digits sign others => sign.apply (Numeral.value 10 digits) others.value

/-- No chain goes on in this text: it begins neither with a digit nor with a sign and a digit. -/
structure Ends (rest : Text) : Prop where
  digit : ∀ c ∈ rest.head?, c ∉ Alphabet.decimal
  operation : ∀ (s : Sign) (behind : Text), rest = s.symbol :: behind →
    ∀ c ∈ behind.head?, c ∉ Alphabet.decimal

variable {digits digits' rest rest' : Text} {chain chain' : SignedChain}

/-! ### Digit runs in front of something else -/

theorem digits_append_inj (h : SomeDigits digits) (h' : SomeDigits digits')
    (hrest : ∀ c ∈ rest.head?, c ∉ Alphabet.decimal)
    (hrest' : ∀ c ∈ rest'.head?, c ∉ Alphabet.decimal)
    (heq : digits ++ rest = digits' ++ rest') : digits = digits' ∧ rest = rest' := by
  have hspan := congrArg spanDigits heq
  rw [spanDigits_append h.digits hrest, spanDigits_append h'.digits hrest'] at hspan
  exact Prod.ext_iff.mp hspan

theorem digits_length_le (h : SomeDigits digits) (h' : SomeDigits digits')
    (hrest : ∀ c ∈ rest.head?, c ∉ Alphabet.decimal)
    (heq : digits ++ rest = digits' ++ rest') : digits'.length ≤ digits.length := by
  have hlongest : IsLongestPrefix (Only Alphabet.decimal) digits (digits ++ rest) :=
    ((continuesBy_only _).isLongestPrefix_iff rfl).mpr ⟨h.digits, hrest⟩
  exact hlongest.length_le digits' h'.digits ⟨rest', heq.symm⟩

theorem symbol_cons_head? (s : Sign) (t : Text) :
    ∀ c ∈ (s.symbol :: t).head?, c ∉ Alphabet.decimal := by
  simpa using s.symbol_notMem_decimal

theorem ne_append_symbol_cons (h : SomeDigits digits) (s : Sign) :
    digits ≠ digits' ++ s.symbol :: rest := by
  rintro rfl
  exact s.symbol_notMem_decimal (h.digits _ (by simp))

theorem exists_digit_of_text (chain : SignedChain) :
    ∃ c others, chain.text = c :: others ∧ c ∈ Alphabet.decimal := by
  obtain ⟨⟨digits, hdigits⟩, behind, htext⟩ : ∃ (run : DigitRun) (behind : Text),
      chain.text = run ++ behind := by
    cases chain with
    | number digits => exact ⟨digits, [], (List.append_nil _).symm⟩
    | operation digits sign others => exact ⟨digits, _, rfl⟩
  obtain ⟨c, others, rfl⟩ := List.exists_cons_of_ne_nil hdigits.ne_nil
  exact ⟨c, others ++ behind, htext, hdigits.digits c (by simp)⟩

/-! ### Chains in front of something else -/

/-- By induction on the chain that ends.  The other one has the same digits and the same sign in
front, or it is shorter. -/
theorem length_le_of_ends (hrest : Ends rest) (heq : chain.text ++ rest = chain'.text ++ rest') :
    chain'.text.length ≤ chain.text.length := by
  induction chain generalizing chain' with
  | number digits =>
      cases chain' with
      | number digits' => exact digits_length_le digits.2 digits'.2 hrest.digit heq
      | operation digits' s' others' =>
          rw [text, text, List.append_assoc] at heq
          obtain ⟨-, rfl⟩ := digits_append_inj digits.2 digits'.2 hrest.digit
            (symbol_cons_head? s' _) heq
          obtain ⟨c, others, htext, hc⟩ := exists_digit_of_text others'
          exact absurd hc (hrest.operation s' _ rfl c (by simp [htext]))
  | operation digits s others ih =>
      rw [text, List.append_assoc] at heq
      cases chain' with
      | number digits' =>
          have hle := digits_length_le digits.2 digits'.2 (symbol_cons_head? s _) heq
          simp only [text, List.length_append]
          exact Nat.le_add_right_of_le hle
      | operation digits' s' others' =>
          rw [text, List.append_assoc] at heq
          obtain ⟨hdigits, hbehind⟩ := digits_append_inj digits.2 digits'.2
            (symbol_cons_head? s _) (symbol_cons_head? s' _) heq
          have hle := ih (List.cons.inj hbehind).2
          simp only [text, List.length_append, List.length_cons, hdigits]
          omega

theorem text_injective : Function.Injective text := by
  intro chain
  induction chain with
  | number digits =>
      intro chain' heq
      cases chain' with
      | number digits' => exact congrArg number (Subtype.ext heq)
      | operation digits' s' others' =>
          exact absurd heq (ne_append_symbol_cons digits.2 s')
  | operation digits s others ih =>
      intro chain' heq
      cases chain' with
      | number digits' =>
          exact absurd heq.symm (ne_append_symbol_cons digits'.2 s)
      | operation digits' s' others' =>
          obtain ⟨hdigits, hbehind⟩ := digits_append_inj digits.2 digits'.2
            (symbol_cons_head? s _) (symbol_cons_head? s' _) heq
          obtain ⟨hsymbol, hothers⟩ := List.cons.inj hbehind
          rw [Subtype.ext hdigits, Sign.symbol_injective hsymbol, ih hothers]

theorem isLongestPrefix_of_ends (chain : SignedChain) (hrest : Ends rest) :
    IsLongestPrefix (· ∈ Set.range text) chain.text (chain.text ++ rest) where
  mem := ⟨chain, rfl⟩
  isPrefix := List.prefix_append _ _
  length_le := by
    rintro - ⟨chain', rfl⟩ ⟨rest', heq⟩
    exact length_le_of_ends hrest heq.symm

end SignedChain

end Descent.Arithmetic
