import Descent.Pattern.Matcher
import Mathlib.Tactic

/-!
# What a pattern matches

A pattern has a language: the texts that it may match, whatever stands around them.  Anchors and
lookaround only restrict where a match is possible, so they count as the empty text.  A pattern only
ever offers places that are a text of its language ahead.  Hence what is matched at the start of a
text belongs to the language, and with what follows it makes up the text.
-/

namespace Descent

namespace Pattern

/-- Texts of `L` one after the other, as many as the condition on their number allows. -/
def Several (L : Text → Prop) (count : Nat → Prop) (w : Text) : Prop :=
  ∃ ws : List Text, (∀ u ∈ ws, L u) ∧ count ws.length ∧ w = ws.flatten

/-- How many iterations a repetition may have. -/
def Counts (least : Nat) (most : Option Nat) (n : Nat) : Prop :=
  least ≤ n ∧ ∀ bound ∈ most, n ≤ max least bound

/-- The texts that a pattern may match. -/
def Matches : Pattern → Text → Prop
  | .empty, w => w = []
  | .set s, w => ∃ c, s c = true ∧ w = [c]
  | .seq p q, w => ∃ u v, p.Matches u ∧ q.Matches v ∧ w = u ++ v
  | .alt p q, w => p.Matches w ∨ q.Matches w
  | .iterate p least most _, w => Several p.Matches (Counts least most) w
  | .anchor _, w => w = []
  | .ahead _ _, w => w = []
  | .behind _ _ _, w => w = []

end Pattern

namespace Cursor

theorem of_advance?_eq_some
    {s : CharSet} {c d : Cursor} (h : c.advance? s = some d) :
    ∃ x, s x = true ∧ c.after = x :: d.after ∧ d.before = x :: c.before ∧
      d.offset = c.offset + 1 := by
  rcases c with ⟨before, _ | ⟨x, after⟩, offset, hoffset⟩
  · simp [advance?] at h
  · obtain ⟨hx, rfl⟩ : s x = true ∧
        (⟨x :: before, after, offset + 1, by simp [hoffset]⟩ : Cursor) = d := by
      simpa [advance?] using h
    exact ⟨x, hx, rfl, rfl, rfl⟩

theorem of_advance?_eq_none
    {s : CharSet} {c : Cursor} (h : c.advance? s = none) :
    ∀ x ∈ c.after.head?, s x = false := by
  rcases c with ⟨before, _ | ⟨x, after⟩, offset, hoffset⟩
  · simp
  · simpa [advance?] using h

/-- From the first place to the second one passes the text `w`. -/
structure Passes (c : Cursor) (w : Text) (d : Cursor) : Prop where
  before : d.before = w.reverse ++ c.before
  after : c.after = w ++ d.after

variable {c d e : Cursor} {u v : Text}

theorem passes_nil (c : Cursor) : c.Passes [] c := ⟨rfl, rfl⟩

theorem Passes.append (h : c.Passes u d) (h' : d.Passes v e) : c.Passes (u ++ v) e where
  before := by rw [h'.before, h.before, List.reverse_append, List.append_assoc]
  after := by rw [h.after, h'.after, List.append_assoc]

theorem passes_of_advance? {s : CharSet} (h : c.advance? s = some d) :
    ∃ x, s x = true ∧ c.Passes [x] d := by
  obtain ⟨x, hx, hafter, hbefore, -⟩ := of_advance?_eq_some h
  exact ⟨x, hx, hbefore, hafter⟩

end Cursor

namespace Pattern

variable {body : Offer} {L : Text → Prop}

/-- The continuation is only ever asked about places that are a text of `L` ahead. -/
def OffersIn (L : Text → Prop) (o : Offer) : Prop :=
  ∀ c k e, o c k = some e → ∃ d w, L w ∧ c.Passes w d ∧ k d = some e

/-! ### Repetitions -/

theorem several_zero {count : Nat → Prop} (h : count 0) : Several L count [] :=
  ⟨[], by simp, h, rfl⟩

theorem Several.cons {count count' : Nat → Prop} {u w : Text} (hu : L u) (h : Several L count w)
    (hcount : ∀ n, count n → count' (n + 1)) : Several L count' (u ++ w) := by
  obtain ⟨ws, hws, hn, rfl⟩ := h
  exact ⟨u :: ws, by simpa using ⟨hu, hws⟩, by simpa using hcount _ hn, by simp⟩

theorem Several.append {count count' count'' : Nat → Prop} {u w : Text} (hu : Several L count u)
    (hw : Several L count' w) (hcount : ∀ m n, count m → count' n → count'' (m + n)) :
    Several L count'' (u ++ w) := by
  obtain ⟨us, hus, hm, rfl⟩ := hu
  obtain ⟨ws, hws, hn, rfl⟩ := hw
  refine ⟨us ++ ws, ?_, by simpa using hcount _ _ hm hn, by simp⟩
  intro v hv
  exact (List.mem_append.mp hv).elim (hus v) (hws v)

theorem OffersIn.exactly (hbody : OffersIn L body) (n : Nat) :
    OffersIn (Several L (· = n)) (exactly body n) := by
  induction n with
  | zero =>
      intro c k e h
      exact ⟨c, [], several_zero rfl, c.passes_nil, h⟩
  | succ n ih =>
      intro c k e h
      obtain ⟨d, u, hu, hd, hrest⟩ := hbody _ _ _ h
      obtain ⟨d', w, hw, hd', hk⟩ := ih _ _ _ hrest
      exact ⟨d', u ++ w, hw.cons hu (by simp), hd.append hd', hk⟩

theorem OffersIn.upTo (hbody : OffersIn L body) (allowance : Text) :
    OffersIn (Several L (· ≤ allowance.length)) (upTo body allowance) := by
  induction allowance with
  | nil =>
      intro c k e h
      exact ⟨c, [], several_zero (Nat.zero_le _), c.passes_nil, h⟩
  | cons x allowance ih =>
      intro c k e h
      rw [Pattern.upTo] at h
      split at h
      next e' hmore =>
        obtain ⟨d, u, hu, hd, hrest⟩ := hbody _ _ _ hmore
        by_cases hlt : c.offset < d.offset
        · rw [if_pos hlt] at hrest
          obtain ⟨d', w, hw, hd', hk⟩ := ih _ _ _ hrest
          exact ⟨d', u ++ w, hw.cons hu (by simp), hd.append hd', hk.trans h⟩
        · rw [if_neg hlt] at hrest
          refine ⟨d, u, ?_, hd, hrest.trans h⟩
          exact ⟨[u], by simpa using hu, by simp, by simp⟩
      next => exact ⟨c, [], several_zero (Nat.zero_le _), c.passes_nil, h⟩

theorem OffersIn.fromNone (hbody : OffersIn L body) (allowance : Text) :
    OffersIn (Several L (· ≤ allowance.length)) (fromNone body allowance) := by
  induction allowance with
  | nil =>
      intro c k e h
      exact ⟨c, [], several_zero (Nat.zero_le _), c.passes_nil, h⟩
  | cons x allowance ih =>
      intro c k e h
      rw [Pattern.fromNone] at h
      split at h
      next e' hfirst =>
        exact ⟨c, [], several_zero (Nat.zero_le _), c.passes_nil, hfirst.trans h⟩
      next =>
        obtain ⟨d, u, hu, hd, hrest⟩ := hbody _ _ _ h
        by_cases hlt : c.offset < d.offset
        · rw [if_pos hlt] at hrest
          obtain ⟨d', w, hw, hd', hk⟩ := ih _ _ _ hrest
          exact ⟨d', u ++ w, hw.cons hu (by simp), hd.append hd', hk⟩
        · simp [hlt] at hrest

theorem length_spare_le
    (least : Nat) {bound : Nat} {most : Option Nat} (h : bound ∈ most) (c : Cursor) :
    (spare least most c).length ≤ bound - least := by
  obtain rfl : most = some bound := h
  simp [spare]

theorem OffersIn.iterations
    (hbody : OffersIn L body) (least : Nat) (most : Option Nat) (greed : Greed) :
    OffersIn (Several L (Counts least most)) (iterations body least most greed) := by
  have hcounts (d : Cursor) (m n : Nat) (hm : m = least)
      (hn : n ≤ (spare least most d).length) : Counts least most (m + n) := by
    refine ⟨by omega, fun bound hbound => ?_⟩
    have hspare := length_spare_le least hbound d
    omega
  intro c k e h
  cases greed with
  | greedy =>
      obtain ⟨d, u, hu, hd, hrest⟩ := hbody.exactly least _ _ _ h
      obtain ⟨d', w, hw, hd', hk⟩ := hbody.upTo _ _ _ _ hrest
      exact ⟨d', u ++ w, hu.append hw (hcounts d), hd.append hd', hk⟩
  | frugal =>
      obtain ⟨d, u, hu, hd, hrest⟩ := hbody.exactly least _ _ _ h
      obtain ⟨d', w, hw, hd', hk⟩ := hbody.fromNone _ _ _ _ hrest
      exact ⟨d', u ++ w, hu.append hw (hcounts d), hd.append hd', hk⟩
  | possessive =>
      simp only [Pattern.iterations] at h
      split at h
      next d hlongest =>
        obtain ⟨d₁, u, hu, hd₁, hrest⟩ := hbody.exactly least _ _ _ hlongest
        obtain ⟨d₂, w, hw, hd₂, hsome⟩ := hbody.upTo _ _ _ _ hrest
        obtain rfl : d₂ = d := by simpa using hsome
        exact ⟨d₂, u ++ w, hu.append hw (hcounts d₁), hd₁.append hd₂, h⟩
      next => simp at h

/-! ### Patterns -/

theorem offersIn_offer (p : Pattern) : OffersIn p.Matches (offer p) := by
  induction p with
  | empty =>
      intro c k e h
      exact ⟨c, [], rfl, c.passes_nil, h⟩
  | set s =>
      intro c k e h
      rw [offer] at h
      split at h
      next d hstep =>
        obtain ⟨x, hx, hd⟩ := Cursor.passes_of_advance? hstep
        exact ⟨d, [x], ⟨x, hx, rfl⟩, hd, h⟩
      next => simp at h
  | seq p q ihp ihq =>
      intro c k e h
      obtain ⟨d, u, hu, hd, hrest⟩ := ihp _ _ _ h
      obtain ⟨d', w, hw, hd', hk⟩ := ihq _ _ _ hrest
      exact ⟨d', u ++ w, ⟨u, w, hu, hw, rfl⟩, hd.append hd', hk⟩
  | alt p q ihp ihq =>
      intro c k e h
      rw [offer] at h
      split at h
      next e' hfirst =>
        obtain ⟨d, w, hw, hd, hk⟩ := ihp _ _ _ hfirst
        exact ⟨d, w, .inl hw, hd, hk.trans h⟩
      next =>
        obtain ⟨d, w, hw, hd, hk⟩ := ihq _ _ _ h
        exact ⟨d, w, .inr hw, hd, hk⟩
  | iterate p least most greed ih => exact ih.iterations least most greed
  | anchor a =>
      intro c k e h
      rw [offer] at h
      split at h
      · exact ⟨c, [], rfl, c.passes_nil, h⟩
      · simp at h
  | ahead positive p _ =>
      intro c k e h
      rw [offer] at h
      split at h
      · exact ⟨c, [], rfl, c.passes_nil, h⟩
      · simp at h
  | behind positive width p _ =>
      intro c k e h
      rw [offer] at h
      split at h
      · exact ⟨c, [], rfl, c.passes_nil, h⟩
      · simp at h

theorem matches_of_matchStart?
    {p : Pattern} {t matched rest : Text} (h : p.matchStart? t = some (matched, rest)) :
    p.Matches matched ∧ matched ++ rest = t := by
  obtain ⟨c, hoffer, hc⟩ := Option.map_eq_some_iff.mp h
  obtain ⟨d, w, hw, hd, hsome⟩ := offersIn_offer p _ _ _ hoffer
  obtain rfl : d = c := by simpa using hsome
  obtain ⟨rfl, rfl⟩ : d.before.reverse = matched ∧ d.after = rest := by
    simpa using hc
  have hbefore : d.before.reverse = w := by simp [hd.before, Cursor.start]
  rw [hbefore]
  exact ⟨hw, hd.after.symm⟩

theorem append_of_matchStart?
    {p : Pattern} {t matched rest : Text} (h : p.matchStart? t = some (matched, rest)) :
    matched ++ rest = t :=
  (matches_of_matchStart? h).2

end Pattern

end Descent
