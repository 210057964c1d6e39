import Descent.Proofs.Pattern.Place
import Descent.Proofs.Text.LongestPrefix

/-!
# Runs of a set of code points

A greedy repetition of a set offers the end of the longest run first.  A match at the start of a
text accepts the first end on offer, so the patterns below match exactly the longest run, or a
run of a given length.  Nothing here looks at shorter runs, which are only of interest to a
pattern that goes on behind the repetition.
-/

namespace Descent

namespace Cursor

/-- The place behind the longest run of a set. -/
def pastRun (s : CharSet) (c : Cursor) : Cursor where
  before := (c.after.takeWhile s).reverse ++ c.before
  after := c.after.dropWhile s
  offset := (c.after.takeWhile s).length + c.offset
  offset_eq := by simp [c.offset_eq]

theorem pastRun_of_advance?_eq_none
    {s : CharSet} {c : Cursor} (h : c.advance? s = none) :
    c.pastRun s = c := by
  have hnext := of_advance?_eq_none h
  rcases c with ⟨before, _ | ⟨x, after⟩, offset, hoffset⟩
  · simp [pastRun]
  · have hx : s x = false := hnext x rfl
    simp [pastRun, hx]

theorem pastRun_of_advance?_eq_some
    {s : CharSet} {c d : Cursor} (h : c.advance? s = some d) :
    c.pastRun s = d.pastRun s := by
  obtain ⟨x, hx, hafter, hbefore, hoffset⟩ := of_advance?_eq_some h
  simp [pastRun, hx, hafter, hbefore, hoffset]
  omega

/-- The place a number of code points ahead. -/
def past (n : Nat) (c : Cursor) : Cursor where
  before := (c.after.take n).reverse ++ c.before
  after := c.after.drop n
  offset := (c.after.take n).length + c.offset
  offset_eq := by simp [c.offset_eq]

@[simp] theorem past_zero (c : Cursor) : c.past 0 = c := by
  simp [past]

theorem past_of_advance?_eq_some
    {s : CharSet} {c d : Cursor} (h : c.advance? s = some d) (n : Nat) :
    c.past (n + 1) = d.past n := by
  obtain ⟨x, -, hafter, hbefore, hoffset⟩ := of_advance?_eq_some h
  simp [past, hafter, hbefore, hoffset]
  omega

end Cursor

namespace Pattern

variable {s : CharSet} {c d e : Cursor} {k : Continuation}

theorem offer_set_of_advance?_eq_some (h : c.advance? s = some d) :
    offer (.set s) c k = k d := by
  simp [offer, h]

theorem offer_set_of_advance?_eq_none (h : c.advance? s = none) :
    offer (.set s) c k = none := by
  simp [offer, h]

theorem upTo_set_of_pastRun {allowance : Text}
    (hroom : c.after.length ≤ allowance.length) (hk : k (c.pastRun s) = some e) :
    upTo (offer (.set s)) allowance c k = some e := by
  induction allowance generalizing c with
  | nil =>
      have hafter : c.after = [] := by simpa using hroom
      have hstop : c.advance? s = none := by
        rcases c with ⟨before, after, offset, hoffset⟩
        subst hafter
        rfl
      rw [Cursor.pastRun_of_advance?_eq_none hstop] at hk
      simpa [upTo] using hk
  | cons _ allowance ih =>
      rw [upTo]
      cases hstep : c.advance? s with
      | none =>
          rw [Cursor.pastRun_of_advance?_eq_none hstep] at hk
          simpa [offer_set_of_advance?_eq_none hstep] using hk
      | some d =>
          obtain ⟨x, -, hafter, -, hoffset⟩ := Cursor.of_advance?_eq_some hstep
          have hlt : c.offset < d.offset := by omega
          rw [Cursor.pastRun_of_advance?_eq_some hstep] at hk
          have hrest : upTo (offer (.set s)) allowance d k = some e := by
            apply ih _ hk
            simpa [hafter] using hroom
          simp [offer_set_of_advance?_eq_some hstep, hlt, hrest]

theorem exactly_set (s : CharSet) (n : Nat) (c : Cursor) (k : Continuation) :
    exactly (offer (.set s)) n c k =
      if n ≤ c.after.length ∧ ∀ x ∈ c.after.take n, s x = true then k (c.past n)
      else none := by
  induction n generalizing c with
  | zero => simp [exactly]
  | succ n ih =>
      rw [exactly]
      cases hstep : c.advance? s with
      | none =>
          rw [offer_set_of_advance?_eq_none hstep, if_neg]
          rintro ⟨hlength, hall⟩
          have hnext := Cursor.of_advance?_eq_none hstep
          rcases hafter : c.after with _ | ⟨x, after⟩
          · simp [hafter] at hlength
          · have hx : s x = true := hall x (by simp [hafter])
            simp [hafter, hx] at hnext
      | some d =>
          rw [offer_set_of_advance?_eq_some hstep, ih,
            Cursor.past_of_advance?_eq_some hstep]
          obtain ⟨x, hx, hafter, -, -⟩ := Cursor.of_advance?_eq_some hstep
          simp [hafter, hx]

theorem offer_zeroOrMore_set (s : CharSet) (c : Cursor) :
    offer (zeroOrMore (.set s)) c some = some (c.pastRun s) := by
  simp only [zeroOrMore, offer, iterations, exactly, spare]
  exact upTo_set_of_pastRun (Nat.le_refl _) rfl

theorem matchStart?_set_cons (s : CharSet) (x : CodePoint) (t : Text) :
    (set s).matchStart? (x :: t) = if s x then some ([x], t) else none := by
  by_cases hx : s x = true <;> simp [matchStart?, offer, Cursor.start, Cursor.advance?, hx]

theorem matchStart?_zeroOrMore_set (s : CharSet) (t : Text) :
    (zeroOrMore (.set s)).matchStart? t = some (t.takeWhile s, t.dropWhile s) := by
  rw [matchStart?, offer_zeroOrMore_set]
  simp [Cursor.pastRun, Cursor.start]

theorem matchStart?_set_zeroOrMore_cons (s r : CharSet) (x : CodePoint) (t : Text) :
    (seq (.set s) (zeroOrMore (.set r))).matchStart? (x :: t) =
      if s x then some (x :: t.takeWhile r, t.dropWhile r) else none := by
  rw [matchStart?, offer]
  by_cases hx : s x = true
  · have hstep : (Cursor.start (x :: t)).advance? s = some ⟨[x], t, 1, rfl⟩ := by
      simp [Cursor.start, Cursor.advance?, hx]
    rw [offer_set_of_advance?_eq_some hstep, offer_zeroOrMore_set]
    simp [Cursor.pastRun, hx]
  · have hstep : (Cursor.start (x :: t)).advance? s = none := by
      simp [Cursor.start, Cursor.advance?, hx]
    rw [offer_set_of_advance?_eq_none hstep]
    simp [hx]

theorem offer_oneOrMore_set_of_pastRun
    (hstep : c.advance? s = some d) (hk : k (c.pastRun s) = some e) :
    offer (oneOrMore (.set s)) c k = some e := by
  rw [Cursor.pastRun_of_advance?_eq_some hstep] at hk
  simp only [oneOrMore, offer, iterations, exactly, spare, hstep]
  exact upTo_set_of_pastRun (Nat.le_refl _) hk

theorem matchStart?_oneOrMore_set (s : CharSet) (t : Text) :
    (oneOrMore (.set s)).matchStart? t =
      if t.takeWhile s = [] then none else some (t.takeWhile s, t.dropWhile s) := by
  rcases t with _ | ⟨x, t⟩
  · rfl
  · by_cases hx : s x = true
    · have hstep : (Cursor.start (x :: t)).advance? s = some ⟨[x], t, 1, rfl⟩ := by
        simp [Cursor.start, Cursor.advance?, hx]
      rw [matchStart?, offer_oneOrMore_set_of_pastRun hstep rfl]
      simp [Cursor.pastRun, Cursor.start, hx]
    · have hstep : (Cursor.start (x :: t)).advance? s = none := by
        simp [Cursor.start, Cursor.advance?, hx]
      simp [matchStart?, oneOrMore, offer, iterations, exactly, hstep, hx]

theorem matchStart?_iterate_set (s : CharSet) (n : Nat) (t : Text) :
    (iterate (.set s) n (some n) .greedy).matchStart? t =
      if n ≤ t.length ∧ ∀ x ∈ t.take n, s x = true then some (t.take n, t.drop n)
      else none := by
  have hoffer :
      offer (iterate (.set s) n (some n) .greedy) (Cursor.start t) some =
        exactly (offer (.set s)) n (Cursor.start t) some := by
    rw [offer, iterations]
    simp [spare, upTo]
  rw [matchStart?, hoffer, exactly_set]
  by_cases h : n ≤ t.length ∧ ∀ x ∈ t.take n, s x = true
  · simp [h, Cursor.past, Cursor.start]
  · have hstart :
        ¬ (n ≤ (Cursor.start t).after.length ∧
          ∀ x ∈ (Cursor.start t).after.take n, s x = true) := h
    rw [if_neg h, if_neg hstart, Option.map_none]

theorem matchStart?_iterate_oneOf (cs : Text) (n : Nat) (t : Text) :
    (iterate (.oneOf cs) n (some n) .greedy).matchStart? t =
      if n ≤ t.length ∧ Text.Only cs (t.take n) then some (t.take n, t.drop n) else none := by
  have honly : Text.Only cs (t.take n) ↔ ∀ c ∈ t.take n, CharSet.ofText cs c = true := by
    simp [Text.Only, CharSet.ofText]
  simp only [oneOf, matchStart?_iterate_set, honly]

end Pattern

end Descent
