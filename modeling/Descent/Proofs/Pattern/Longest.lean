import Descent.Proofs.Pattern.Run

/-!
# Patterns that find the longest match

A match ends at the first place on offer, and nothing in the order of the offers makes that the
last place at which a text of the language ends.  A pattern finds the longest match if it does: no
text of its language that begins at a place goes on behind the end that it finds there.  A run of a
set does, since more iterations are tried first, and so does such a pattern behind a set.  The
other operators keep the property where at most one of two ways to go on is possible, which is
settled by the code point with which the texts of a language begin.
-/

namespace Descent.Pattern

variable {p q : Pattern} {s r : CharSet} {c d : Cursor} {k : Continuation} {w : Text}

/-- No text of the language that begins at a place goes on behind the end that is found there. -/
def FindsLongest (p : Pattern) : Prop :=
  ∀ (c : Cursor) (w rest : Text), p.Matches w → c.after = w ++ rest →
    ∃ d, offer p c some = some d ∧ d.after.length ≤ rest.length

/-- No text goes on from a text of one language and also from a text of the other. -/
def Exclusive (p q : Pattern) : Prop :=
  ∀ u v t t', p.Matches u → q.Matches v → u ++ t ≠ v ++ t'

/-- Every text of the language begins with a code point of the set. -/
def BeginsIn (p : Pattern) (s : CharSet) : Prop :=
  ∀ w, p.Matches w → ∃ x v, w = x :: v ∧ s x = true

theorem exists_matches_of_offer (h : offer p c some = some d) :
    ∃ w, p.Matches w ∧ c.after = w ++ d.after := by
  obtain ⟨d', w, hw, hd, hsome⟩ := offersIn_offer p c some d h
  obtain rfl : d' = d := by simpa using hsome
  exact ⟨w, hw, hd.after⟩

theorem length_after_le_of_offer (h : offer p c some = some d) :
    d.after.length ≤ c.after.length := by
  obtain ⟨w, -, hafter⟩ := exists_matches_of_offer h
  rw [hafter, List.length_append]
  omega

theorem exists_advance? {x : CodePoint} {t : Text} (hx : s x = true) (h : c.after = x :: t) :
    ∃ d, c.advance? s = some d ∧ d.after = t := by
  rcases c with ⟨before, after, offset, hoffset⟩
  obtain rfl : after = x :: t := h
  exact ⟨⟨x :: before, t, offset + 1, by simp [hoffset]⟩, by simp [Cursor.advance?, hx], rfl⟩

theorem after_pastRun (s : CharSet) (c : Cursor) :
    (c.pastRun s).after = c.after.dropWhile s := rfl

/-! ### Sets and runs -/

theorem beginsIn_set_seq (s : CharSet) (q : Pattern) : (seq (set s) q).BeginsIn s := by
  rintro w ⟨u, v, ⟨x, hx, rfl⟩, -, rfl⟩
  exact ⟨x, v, rfl, hx⟩

theorem findsLongest_set_seq (s : CharSet) (hq : q.FindsLongest) :
    (seq (set s) q).FindsLongest := by
  rintro c w rest ⟨u, v, ⟨x, hx, rfl⟩, hv, rfl⟩ hafter
  obtain ⟨d, hstep, hd⟩ := exists_advance? hx hafter
  rw [offer, offer_set_of_advance?_eq_some hstep]
  exact hq d v rest hv hd

theorem matches_oneOrMore_set (h : (oneOrMore (set s)).Matches w) :
    w ≠ [] ∧ ∀ x ∈ w, s x = true := by
  obtain ⟨ws, hws, ⟨hleast, -⟩, rfl⟩ := h
  have hall : ∀ x ∈ ws.flatten, s x = true := by
    intro x hx
    obtain ⟨u, hu, hxu⟩ := List.mem_flatten.mp hx
    obtain ⟨y, hy, rfl⟩ := hws u hu
    obtain rfl : x = y := by simpa using hxu
    exact hy
  refine ⟨?_, hall⟩
  obtain ⟨u, us, rfl⟩ := List.exists_cons_of_length_pos (by omega : 0 < ws.length)
  obtain ⟨y, -, rfl⟩ := hws u (by simp)
  simp

theorem beginsIn_oneOrMore_set (s : CharSet) : (oneOrMore (set s)).BeginsIn s := by
  intro w hw
  obtain ⟨hne, hall⟩ := matches_oneOrMore_set hw
  obtain ⟨x, v, rfl⟩ := List.exists_cons_of_ne_nil hne
  exact ⟨x, v, rfl, hall x (by simp)⟩

theorem BeginsIn.seq (hp : p.BeginsIn s) (q : Pattern) : (seq p q).BeginsIn s := by
  rintro w ⟨u, v, hu, -, rfl⟩
  obtain ⟨x, u, rfl, hx⟩ := hp u hu
  exact ⟨x, u ++ v, rfl, hx⟩

theorem findsLongest_oneOrMore_set (s : CharSet) : (oneOrMore (set s)).FindsLongest := by
  intro c w rest hw hafter
  obtain ⟨hne, hall⟩ := matches_oneOrMore_set hw
  obtain ⟨x, v, rfl⟩ := List.exists_cons_of_ne_nil hne
  obtain ⟨d, hstep, -⟩ := exists_advance? (hall x (by simp)) hafter
  refine ⟨c.pastRun s, offer_oneOrMore_set_of_pastRun hstep rfl, ?_⟩
  have hpast : (c.pastRun s).after = rest.dropWhile s := by
    rw [after_pastRun, hafter, List.dropWhile_append_of_pos hall]
  rw [hpast]
  exact (List.dropWhile_suffix _).length_le

/-- The texts behind a run must not go on with it.  Then the longest run is followed by whatever may
follow a shorter one. -/
theorem findsLongest_oneOrMore_set_seq (hq : q.FindsLongest)
    (hhead : ∀ v, q.Matches v → ∀ x ∈ v.head?, s x = false) :
    (seq (oneOrMore (set s)) q).FindsLongest := by
  rintro c w rest ⟨u, v, hu, hv, rfl⟩ hafter
  obtain ⟨hne, hall⟩ := matches_oneOrMore_set hu
  have hpast : (c.pastRun s).after = (v ++ rest).dropWhile s := by
    rw [after_pastRun, hafter, List.append_assoc, List.dropWhile_append_of_pos hall]
  have hbehind : ∃ d, offer q (c.pastRun s) some = some d ∧ d.after.length ≤ rest.length := by
    cases v with
    | nil =>
        obtain ⟨d, hd, hle⟩ := hq (c.pastRun s) [] _ hv hpast
        exact ⟨d, hd, hle.trans (List.dropWhile_suffix _).length_le⟩
    | cons x v =>
        have hx : s x = false := hhead _ hv x rfl
        apply hq (c.pastRun s) (x :: v) rest hv
        rw [hpast]
        simp [hx]
  obtain ⟨d, hd, hle⟩ := hbehind
  obtain ⟨x, u, rfl⟩ := List.exists_cons_of_ne_nil hne
  obtain ⟨d', hstep, -⟩ := exists_advance? (hall x (by simp)) hafter
  exact ⟨d, offer_oneOrMore_set_of_pastRun hstep hd, hle⟩

/-! ### Alternatives -/

theorem BeginsIn.mono (hp : p.BeginsIn s) (hsub : ∀ x, s x = true → r x = true) :
    p.BeginsIn r := by
  intro w hw
  obtain ⟨x, v, rfl, hx⟩ := hp w hw
  exact ⟨x, v, rfl, hsub x hx⟩

theorem BeginsIn.alt (hp : p.BeginsIn s) (hq : q.BeginsIn s) : (alt p q).BeginsIn s := by
  rintro w (hw | hw)
  · exact hp w hw
  · exact hq w hw

theorem BeginsIn.head?_eq_false (hp : p.BeginsIn r) (hdisjoint : ∀ x, r x = true → s x = false)
    (hw : p.Matches w) : ∀ x ∈ w.head?, s x = false := by
  obtain ⟨y, v, rfl, hy⟩ := hp w hw
  intro x hx
  obtain rfl : y = x := by simpa using hx
  exact hdisjoint y hy

theorem exclusive_of_beginsIn (hp : p.BeginsIn s) (hq : q.BeginsIn r)
    (hdisjoint : ∀ x, s x = true → r x = false) : Exclusive p q := by
  intro u v t t' hu hv heq
  obtain ⟨x, u, rfl, hx⟩ := hp u hu
  obtain ⟨y, v, rfl, hy⟩ := hq v hv
  obtain rfl : x = y := (List.cons.inj heq).1
  simp [hdisjoint x hx] at hy

/-- Patterns that exclude each other still do behind one code point each. -/
theorem Exclusive.set_seq (h : Exclusive p q) (s r : CharSet) :
    Exclusive (seq (set s) p) (seq (set r) q) := by
  rintro u v t t' ⟨_, u', ⟨x, -, rfl⟩, hu, rfl⟩ ⟨_, v', ⟨y, -, rfl⟩, hv, rfl⟩ heq
  exact h u' v' t t' hu hv (List.cons.inj heq).2

theorem Exclusive.alt_right {q' : Pattern} (h : Exclusive p q) (h' : Exclusive p q') :
    Exclusive p (alt q q') := by
  rintro u v t t' hu (hv | hv)
  · exact h u v t t' hu hv
  · exact h' u v t t' hu hv

theorem FindsLongest.alt (hp : p.FindsLongest) (hq : q.FindsLongest) (hone : Exclusive p q) :
    (alt p q).FindsLongest := by
  rintro c w rest (hw | hw) hafter
  · obtain ⟨d, hd, hle⟩ := hp c w rest hw hafter
    exact ⟨d, by simp [offer, hd], hle⟩
  · have hnone : offer p c some = none := by
      cases hd : offer p c some with
      | none => rfl
      | some d =>
          obtain ⟨u, hu, hafter'⟩ := exists_matches_of_offer hd
          exact absurd (hafter'.symm.trans hafter) (hone u w _ _ hu hw)
    obtain ⟨d, hd, hle⟩ := hq c w rest hw hafter
    exact ⟨d, by simp [offer, hnone, hd], hle⟩

theorem offer_maybe (p : Pattern) (hne : c.after ≠ []) :
    offer (maybe p) c k =
      match offer p c k with
      | some e => some e
      | none => k c := by
  obtain ⟨x, t, hafter⟩ := List.exists_cons_of_ne_nil hne
  cases hfirst : offer p c k <;>
    simp [maybe, offer, iterations, exactly, spare, hafter, upTo, hfirst]

theorem offer_maybe_of_nil (p : Pattern) (h : c.after = []) : offer (maybe p) c k = k c := by
  simp [maybe, offer, iterations, exactly, spare, upTo, h]

theorem matches_maybe_iff : (maybe p).Matches w ↔ w = [] ∨ p.Matches w := by
  constructor
  · rintro ⟨ws, hws, ⟨-, hmost⟩, rfl⟩
    have hlength : ws.length ≤ 1 := by simpa using hmost 1 rfl
    match ws, hlength with
    | [], _ => exact .inl rfl
    | [u], _ => exact .inr (by simpa using hws u (by simp))
  · rintro (rfl | hw)
    · exact ⟨[], by simp, ⟨by simp, by simp⟩, rfl⟩
    · exact ⟨[w], by simpa using hw, ⟨by simp, by simp⟩, by simp⟩

theorem FindsLongest.maybe (hp : p.FindsLongest) : (maybe p).FindsLongest := by
  intro c w rest hw hafter
  by_cases hnil : c.after = []
  · rw [offer_maybe_of_nil p hnil]
    exact ⟨c, rfl, by simp [hnil]⟩
  · rw [offer_maybe p hnil]
    rcases matches_maybe_iff.mp hw with rfl | hw
    · cases hd : offer p c some with
      | none => exact ⟨c, rfl, by simp [hafter]⟩
      | some d => exact ⟨d, rfl, by simpa [hafter] using length_after_le_of_offer hd⟩
    · obtain ⟨d, hd, hle⟩ := hp c w rest hw hafter
      exact ⟨d, by simp [hd], hle⟩

/-- A set that may be missing in front of a pattern is an alternative to the pattern alone. -/
theorem offer_maybe_set_seq (s : CharSet) (q : Pattern) (c : Cursor) (k : Continuation) :
    offer (seq (maybe (set s)) q) c k = offer (alt (seq (set s) q) q) c k := by
  by_cases hnil : c.after = []
  · have hstop : c.advance? s = none := by
      rcases c with ⟨before, after, offset, hoffset⟩
      obtain rfl : after = [] := hnil
      rfl
    simp only [offer, hstop]
    exact offer_maybe_of_nil _ hnil
  · rw [offer, offer_maybe _ hnil]
    rfl

theorem matches_maybe_set_seq_iff :
    (seq (maybe (set s)) q).Matches w ↔ (alt (seq (set s) q) q).Matches w := by
  constructor
  · rintro ⟨u, v, hu, hv, rfl⟩
    rcases matches_maybe_iff.mp hu with rfl | hu
    · exact .inr hv
    · exact .inl ⟨u, v, hu, hv, rfl⟩
  · rintro (⟨u, v, hu, hv, rfl⟩ | hw)
    · exact ⟨u, v, matches_maybe_iff.mpr (.inr hu), hv, rfl⟩
    · exact ⟨[], w, matches_maybe_iff.mpr (.inl rfl), hw, rfl⟩

theorem beginsIn_maybe_set_seq (hsub : ∀ x, s x = true → r x = true) (hq : q.BeginsIn r) :
    (seq (maybe (set s)) q).BeginsIn r := by
  intro w hw
  exact ((beginsIn_set_seq s q).mono hsub).alt hq w (matches_maybe_set_seq_iff.mp hw)

theorem Exclusive.maybe_set_seq (h : Exclusive p (seq (set s) q)) (h' : Exclusive p q) :
    Exclusive p (seq (maybe (set s)) q) := by
  intro u v t t' hu hv
  exact h.alt_right h' u v t t' hu (matches_maybe_set_seq_iff.mp hv)

theorem findsLongest_maybe_set_seq (hq : q.FindsLongest) (hbegins : q.BeginsIn r)
    (hdisjoint : ∀ x, s x = true → r x = false) : (seq (maybe (set s)) q).FindsLongest := by
  have halt : (alt (seq (set s) q) q).FindsLongest :=
    (findsLongest_set_seq s hq).alt hq
      (exclusive_of_beginsIn (beginsIn_set_seq s q) hbegins hdisjoint)
  intro c w rest hw hafter
  rw [offer_maybe_set_seq]
  exact halt c w rest (matches_maybe_set_seq_iff.mp hw) hafter

/-! ### Matches at the start of a text -/

theorem FindsLongest.matchStart?_eq_none_iff (hp : p.FindsLongest) {t : Text} :
    p.matchStart? t = none ↔ ∀ w, p.Matches w → ¬ w <+: t := by
  constructor
  · rintro hnone w hw ⟨rest, rfl⟩
    obtain ⟨d, hd, -⟩ := hp (Cursor.start (w ++ rest)) w rest hw rfl
    simp [matchStart?, hd] at hnone
  · intro hno
    cases hmatch : p.matchStart? t with
    | none => rfl
    | some m =>
        obtain ⟨hw, hsplit⟩ := matches_of_matchStart? hmatch
        exact absurd ⟨m.2, hsplit⟩ (hno m.1 hw)

theorem FindsLongest.isLongestPrefix (hp : p.FindsLongest) {t matched rest : Text}
    (h : p.matchStart? t = some (matched, rest)) :
    Text.IsLongestPrefix p.Matches matched t := by
  obtain ⟨hmatched, hsplit⟩ := matches_of_matchStart? h
  refine ⟨hmatched, ⟨rest, hsplit⟩, ?_⟩
  rintro w hw ⟨last, hlast⟩
  obtain ⟨d, hd, hle⟩ := hp (Cursor.start t) w last hw hlast.symm
  have hrest : d.after = rest := by
    simp only [matchStart?, hd, Option.map_some, Option.some.injEq, Prod.mk.injEq] at h
    exact h.2
  have hlength := congrArg List.length (hsplit.trans hlast.symm)
  simp only [List.length_append] at hlength
  rw [hrest] at hle
  omega

/-- What is matched at the start of a text is the longest prefix of the text in the language. -/
theorem FindsLongest.matchStart?_eq_some_iff (hp : p.FindsLongest) {t matched rest : Text} :
    p.matchStart? t = some (matched, rest) ↔
      t = matched ++ rest ∧ Text.IsLongestPrefix p.Matches matched t := by
  constructor
  · intro h
    exact ⟨(append_of_matchStart? h).symm, hp.isLongestPrefix h⟩
  · rintro ⟨hsplit, hlongest⟩
    cases hmatch : p.matchStart? t with
    | none =>
        have hno := hp.matchStart?_eq_none_iff.mp hmatch matched hlongest.mem
        exact absurd hlongest.isPrefix hno
    | some m =>
        obtain ⟨matched', rest'⟩ := m
        obtain rfl := (hp.isLongestPrefix hmatch).unique hlongest
        have hsame := (append_of_matchStart? hmatch).trans hsplit
        obtain rfl := List.append_cancel_left hsame
        rfl

end Descent.Pattern
