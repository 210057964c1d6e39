import Descent.Proofs.Numeral.Value

/-!
# Written numbers

A number is written in a base by its digits, the most significant one first.  There is at least
one digit, each is a digit of the base, and their value is the number.  An integer has its sign in
front, and the mark of the base between the sign and the digits.
-/

namespace Descent.Numeral

/-- The digits of a number, with small letters. -/
def digits (base n : Nat) : Text := (Nat.toDigits base n).map CodePoint.ofChar

def written (mark : Text) (base : Nat) (n : Int) : Text :=
  (if n < 0 then ("-" : Text) else []) ++ (mark ++ digits base n.natAbs)

variable {base n : Nat}

theorem digit?_digitChar : ∀ d < 16, digit? (CodePoint.ofChar d.digitChar) = some d := by
  decide

theorem digitIn?_digitChar {d : Nat} (hd : d < base) (hbase : base ≤ 16) :
    digitIn? base (CodePoint.ofChar d.digitChar) = some d := by
  rw [digitIn?, digit?_digitChar d (hd.trans_le hbase)]
  simp [hd]

theorem digitValue_digitChar {d : Nat} (hd : d < 16) :
    digitValue (CodePoint.ofChar d.digitChar) = d := by
  simp [digitValue, digit?_digitChar d hd]

theorem value_append_singleton (base : Nat) (t : Text) (c : CodePoint) :
    value base (t ++ [c]) = value base t * base + digitValue c := by
  rw [value_append]
  simp [value]

theorem digits_of_lt (h : n < base) : digits base n = [CodePoint.ofChar n.digitChar] := by
  rw [digits, Nat.toDigits_of_lt_base h]
  rfl

theorem digits_of_le (hbase : 1 < base) (h : base ≤ n) :
    digits base n = digits base (n / base) ++ [CodePoint.ofChar (n % base).digitChar] := by
  simp [digits, Nat.toDigits_of_base_le hbase h]

theorem digits_ne_nil (base n : Nat) : digits base n ≠ [] := by
  simp [digits]

theorem digitsOf_digits (hbase : 1 < base) (hbase' : base ≤ 16) (n : Nat) :
    DigitsOf base (digits base n) := by
  have hdigit : ∀ d < base, (digitIn? base (CodePoint.ofChar d.digitChar)).isSome := by
    intro d hd
    simp [digitIn?_digitChar hd hbase']
  induction n using Nat.strong_induction_on with
  | _ n ih =>
      by_cases h : n < base
      · rw [digits_of_lt h]
        intro c hc
        obtain rfl := List.mem_singleton.mp hc
        exact hdigit n h
      · have hle : base ≤ n := Nat.le_of_not_lt h
        have hfewer : n / base < n := Nat.div_lt_self (by omega) hbase
        rw [digits_of_le hbase hle]
        intro c hc
        rcases List.mem_append.mp hc with hc | hc
        · exact ih (n / base) hfewer c hc
        · obtain rfl := List.mem_singleton.mp hc
          exact hdigit (n % base) (Nat.mod_lt n (by omega))

theorem value_digits (hbase : 1 < base) (hbase' : base ≤ 16) (n : Nat) :
    value base (digits base n) = n := by
  induction n using Nat.strong_induction_on with
  | _ n ih =>
      by_cases h : n < base
      · rw [digits_of_lt h, ← List.nil_append [_], value_append_singleton,
          digitValue_digitChar (h.trans_le hbase')]
        simp [value]
      · have hle : base ≤ n := Nat.le_of_not_lt h
        have hfewer : n / base < n := Nat.div_lt_self (by omega) hbase
        have hlast : n % base < 16 := (Nat.mod_lt n (by omega)).trans_le hbase'
        rw [digits_of_le hbase hle, value_append_singleton, ih (n / base) hfewer,
          digitValue_digitChar hlast]
        exact Nat.div_add_mod' n base

theorem ofNat_eq_digits (n : Nat) : Text.ofNat n = digits 10 n := by
  simp [Text.ofNat, Text.ofString, digits]

theorem value_ofNat (n : Nat) : value 10 (Text.ofNat n) = n := by
  rw [ofNat_eq_digits]
  exact value_digits (by omega) (by omega) n

theorem ofInt_eq_written (n : Int) : Text.ofInt n = written [] 10 n := by
  unfold Text.ofInt written
  rw [ofNat_eq_digits]
  split_ifs <;> rfl

end Descent.Numeral
