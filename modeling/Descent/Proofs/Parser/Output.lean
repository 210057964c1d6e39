import Descent.Proofs.Parser.Limit
import Descent.Proofs.Parser.Repetition
import Mathlib.Data.List.Forall2

/-!
# The outputs of combinators

A combinator that matches has matched some of its parts, and where it stops they did.  Hence what a
parser may output, on whatever text, is described by the outputs of its parts: a sequence outputs a
list with one item for each part, a repetition a list of outputs of its body, and the other
combinators output what one of their parts does or what a function makes of it.
-/

namespace Descent.Parser

variable {p q : Parser} {ps : List Parser} {src rest : Text} {v w : Value}

/-! ### Parts of a match -/

theorem of_as_eq_success (h : (p.as v) src = .returned (.success w rest)) :
    w = v ∧ ∃ u, p src = .returned (.success u rest) := by
  obtain ⟨⟨u, middle⟩ | f, hfirst, hlast⟩ := Outcome.bind_eq_returned_iff.mp h
  · obtain ⟨rfl, rfl⟩ : v = w ∧ middle = rest := by simpa using hlast
    exact ⟨rfl, u, hfirst⟩
  · simp at hlast

theorem of_map_eq_success {f : Value → Outcome Value}
    (h : (p.map f) src = .returned (.success w rest)) :
    ∃ v, p src = .returned (.success v rest) ∧ f v = .returned w := by
  obtain ⟨⟨v, middle⟩ | e, hfirst, hlast⟩ := Outcome.bind_eq_returned_iff.mp h
  · obtain ⟨w', hw', hreply⟩ := Outcome.bind_eq_returned_iff.mp hlast
    obtain ⟨rfl, rfl⟩ : w' = w ∧ middle = rest := by simpa using hreply
    exact ⟨v, hfirst, hw'⟩
  · simp at hlast

theorem of_transform_eq_success {f : Value → Outcome Value}
    (h : (p.transform f) src = .returned (.success w rest)) :
    ∃ v, p src = .returned (.success v rest) := by
  obtain ⟨⟨v, middle⟩ | e, hfirst, hlast⟩ := Outcome.bind_eq_returned_iff.mp h
  · obtain ⟨w', -, hreply⟩ := Outcome.bind_eq_returned_iff.mp hlast
    cases hfailure : w'.failure? with
    | none =>
        obtain ⟨-, rfl⟩ : w' = w ∧ middle = rest := by simpa [hfailure] using hreply
        exact ⟨v, hfirst⟩
    | some e => simp [hfailure] at hreply
  · simp at hlast

theorem of_oneOf_eq_success (h : (oneOf ps) src = .returned (.success v rest)) :
    ∃ p ∈ ps, p src = .returned (.success v rest) := by
  induction ps with
  | nil => simp [oneOf, failWith] at h
  | cons p ps ih =>
      cases ps with
      | nil => exact ⟨p, by simp, h⟩
      | cons q ps =>
          obtain ⟨⟨v', rest'⟩ | e, hfirst, hlast⟩ := Outcome.bind_eq_returned_iff.mp h
          · obtain ⟨rfl, rfl⟩ : v' = v ∧ rest' = rest := by simpa using hlast
            exact ⟨p, by simp, hfirst⟩
          · obtain ⟨p', hp', hreply⟩ := ih hlast
            exact ⟨p', List.mem_cons_of_mem p hp', hreply⟩

theorem of_sequence_eq_success (h : (sequence ps) src = .returned (.success v rest)) :
    ∃ vs, v = .list vs ∧ collect ps src = .returned (.ok (vs, rest)) := by
  obtain ⟨⟨e⟩ | ⟨vs, last⟩, hcollect, hlast⟩ := Outcome.bind_eq_returned_iff.mp h
  · simp at hlast
  · obtain ⟨rfl, rfl⟩ : .list vs = v ∧ last = rest := by simpa using hlast
    exact ⟨vs, rfl, hcollect⟩

theorem of_many_eq_success {limit : Nat} (h : (p.many limit) src = .returned (.success v rest)) :
    ∃ vs, v = .list vs ∧ p.gather limit src = .returned (vs, rest) := by
  obtain ⟨⟨vs, last⟩, hgather, hlast⟩ := Outcome.bind_eq_returned_iff.mp h
  obtain ⟨rfl, rfl⟩ : .list vs = v ∧ last = rest := by simpa using hlast
  exact ⟨vs, rfl, hgather⟩

theorem of_unless_eq_success {o : Outcome Reply} {message middle : Text}
    (h : (do if (← o).isSuccess then failWith message src else return .success v middle) =
      .returned (.success w rest)) : v = w ∧ middle = rest := by
  obtain ⟨r, -, hreply⟩ := Outcome.bind_eq_returned_iff.mp h
  cases hmatched : r.isSuccess with
  | true => simp [hmatched, failWith] at hreply
  | false => simpa [hmatched] using hreply

theorem of_butNot_eq_success {name : Text}
    (h : (p.butNot q name) src = .returned (.success v rest)) :
    p src = .returned (.success v rest) := by
  obtain ⟨⟨v', rest'⟩ | e, hfirst, hlast⟩ := Outcome.bind_eq_returned_iff.mp h
  · obtain ⟨rfl, rfl⟩ := of_unless_eq_success hlast
    exact hfirst
  · simp at hlast

theorem of_lookaheadNot_eq_success {name : Text}
    (h : (p.lookaheadNot q name) src = .returned (.success v rest)) :
    p src = .returned (.success v rest) := by
  obtain ⟨⟨v', rest'⟩ | e, hfirst, hlast⟩ := Outcome.bind_eq_returned_iff.mp h
  · obtain ⟨rfl, rfl⟩ := of_unless_eq_success hlast
    exact hfirst
  · simp at hlast

theorem of_expect_eq_success {description : Text}
    (h : (p.expect description) src = .returned (.success v rest)) :
    p src = .returned (.success v rest) := by
  obtain ⟨⟨v', rest'⟩ | e, hfirst, hlast⟩ := Outcome.bind_eq_returned_iff.mp h
  · obtain ⟨rfl, rfl⟩ : v' = v ∧ rest' = rest := by simpa using hlast
    exact hfirst
  · simp at hlast

/-! ### Outputs on some text -/

/-- The parser outputs the value on some text. -/
def Yields (p : Parser) (v : Value) : Prop :=
  ∃ src rest, p src = .returned (.success v rest)

theorem Yields.of_growsTo (h : p.Yields v) (hgrows : p.GrowsTo q) : q.Yields v := by
  obtain ⟨src, rest, hreply⟩ := h
  exact ⟨src, rest, (hgrows src).eq_returned hreply⟩

theorem yields_any (h : any.Yields v) : ∃ t, v = .text t := by
  obtain ⟨src, rest, hreply⟩ := h
  cases src with
  | nil => simp [any, failWith] at hreply
  | cons c src =>
      obtain ⟨rfl, -⟩ : .text [c] = v ∧ src = rest := by simpa [any] using hreply
      exact ⟨[c], rfl⟩

theorem yields_pattern {pat : Pattern} (h : (pattern pat).Yields v) :
    ∃ src matched rest, pat.matchStart? src = some (matched, rest) ∧ v = .text matched := by
  obtain ⟨src, rest, hreply⟩ := h
  unfold pattern at hreply
  split at hreply
  next matched rest' hmatch =>
    obtain ⟨rfl, -⟩ : .text matched = v ∧ rest' = rest := by simpa using hreply
    exact ⟨src, matched, rest', hmatch, rfl⟩
  next => simp [failWith] at hreply

theorem yields_as (h : (p.as v).Yields w) : w = v := by
  obtain ⟨src, rest, hreply⟩ := h
  exact (of_as_eq_success hreply).1

theorem yields_map {f : Value → Outcome Value} (h : (p.map f).Yields w) :
    ∃ v, p.Yields v ∧ f v = .returned w := by
  obtain ⟨src, rest, hreply⟩ := h
  obtain ⟨v, hfirst, hw⟩ := of_map_eq_success hreply
  exact ⟨v, ⟨src, rest, hfirst⟩, hw⟩

theorem yields_oneOf (h : (oneOf ps).Yields v) : ∃ p ∈ ps, p.Yields v := by
  obtain ⟨src, rest, hreply⟩ := h
  obtain ⟨p, hp, hfirst⟩ := of_oneOf_eq_success hreply
  exact ⟨p, hp, src, rest, hfirst⟩

theorem yields_of_collect {vs : List Value}
    (h : collect ps src = .returned (.ok (vs, rest))) : List.Forall₂ Yields ps vs := by
  induction ps generalizing src vs with
  | nil =>
      obtain ⟨rfl, -⟩ : [] = vs ∧ src = rest := by simpa [collect] using h
      exact .nil
  | cons p ps ih =>
      obtain ⟨v, middle, vs', hfirst, hcollect, rfl⟩ := collect_cons_cases h
      exact .cons ⟨src, middle, hfirst⟩ (ih hcollect)

theorem yields_sequence (h : (sequence ps).Yields v) :
    ∃ vs, v = .list vs ∧ List.Forall₂ Yields ps vs := by
  obtain ⟨src, rest, hreply⟩ := h
  obtain ⟨vs, rfl, hcollect⟩ := of_sequence_eq_success hreply
  exact ⟨vs, rfl, yields_of_collect hcollect⟩

theorem yields_of_gather {limit : Nat} {vs : List Value}
    (h : p.gather limit src = .returned (vs, rest)) : ∀ v ∈ vs, p.Yields v := by
  induction limit generalizing src vs with
  | zero => simp [gather] at h
  | succ limit ih =>
      rcases gather_cases h with
        ⟨f, -, rfl, -⟩ | ⟨-, rfl⟩ | ⟨v, middle, vs', hfirst, hgather, rfl⟩
      · simp
      · simp
      · intro w hw
        rcases List.mem_cons.mp hw with rfl | hw
        · exact ⟨src, middle, hfirst⟩
        · exact ih hgather w hw

theorem yields_many {limit : Nat} (h : (p.many limit).Yields v) :
    ∃ vs, v = .list vs ∧ ∀ w ∈ vs, p.Yields w := by
  obtain ⟨src, rest, hreply⟩ := h
  obtain ⟨vs, rfl, hgather⟩ := of_many_eq_success hreply
  exact ⟨vs, rfl, yields_of_gather hgather⟩

theorem yields_butNot {name : Text} (h : (p.butNot q name).Yields v) : p.Yields v := by
  obtain ⟨src, rest, hreply⟩ := h
  exact ⟨src, rest, of_butNot_eq_success hreply⟩

theorem yields_expect {description : Text} (h : (p.expect description).Yields v) :
    p.Yields v := by
  obtain ⟨src, rest, hreply⟩ := h
  exact ⟨src, rest, of_expect_eq_success hreply⟩

end Descent.Parser
