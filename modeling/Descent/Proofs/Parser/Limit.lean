import Descent.Verdict

/-!
# Parsers under larger limits

A limit only decides whether an outcome is reached, never which one.  A computation grows to
another if the two are the same unless the first is exhausted.  Every combinator makes of parsers
that grow parsers that grow, and a repetition or a recursion also grows with its own limit.
-/

namespace Descent

/-- What an outcome may become under a larger limit. -/
def Outcome.GrowsTo {α : Type} (o o' : Outcome α) : Prop := o = .exhausted ∨ o = o'

namespace Outcome

variable {α β : Type} {o o' : Outcome α}

theorem GrowsTo.refl (o : Outcome α) : o.GrowsTo o := .inr rfl

theorem exhausted_growsTo (o : Outcome α) : (exhausted : Outcome α).GrowsTo o := .inl rfl

theorem GrowsTo.eq_returned {a : α} (h : o.GrowsTo o') (ho : o = .returned a) :
    o' = .returned a := by
  rcases h with h | h
  · simp [h] at ho
  · rw [← h, ho]

theorem GrowsTo.eq_raised {fault : Fault} (h : o.GrowsTo o') (ho : o = .raised fault) :
    o' = .raised fault := by
  rcases h with h | h
  · simp [h] at ho
  · rw [← h, ho]

theorem GrowsTo.bind
    {f f' : α → Outcome β} (h : o.GrowsTo o') (hf : ∀ a, (f a).GrowsTo (f' a)) :
    (o >>= f).GrowsTo (o' >>= f') := by
  rcases h with rfl | rfl
  · exact exhausted_growsTo _
  · cases o with
    | returned a => exact hf a
    | raised fault => exact .refl _
    | exhausted => exact .refl _

end Outcome

namespace Parser

/-- A parser that has the outcomes of another, except that it may be exhausted earlier. -/
def GrowsTo (p q : Parser) : Prop := ∀ src, (p src).GrowsTo (q src)

variable {p q p' q' : Parser}

theorem GrowsTo.refl (p : Parser) : p.GrowsTo p := fun src => .refl (p src)

theorem GrowsTo.as (h : p.GrowsTo q) (v : Value) : (p.as v).GrowsTo (q.as v) :=
  fun src => (h src).bind fun _ => .refl _

theorem GrowsTo.map {f f' : Value → Outcome Value} (h : p.GrowsTo q)
    (hf : ∀ v, (f v).GrowsTo (f' v)) : (p.map f).GrowsTo (q.map f') := by
  intro src
  apply (h src).bind
  rintro (⟨v, rest⟩ | e)
  · exact (hf v).bind fun _ => .refl _
  · exact .refl _

theorem GrowsTo.transform (h : p.GrowsTo q) (f : Value → Outcome Value) :
    (p.transform f).GrowsTo (q.transform f) :=
  fun src => (h src).bind fun _ => .refl _

theorem GrowsTo.flatMap {f f' : Value → Parser} (h : p.GrowsTo q)
    (hf : ∀ v, (f v).GrowsTo (f' v)) : (p.flatMap f).GrowsTo (q.flatMap f') := by
  intro src
  apply (h src).bind
  rintro (⟨v, rest⟩ | e)
  · exact hf v rest
  · exact .refl _

section Lists

variable {ι : Type} {is : List ι} {ps qs : ι → Parser}

theorem growsTo_oneOf (h : ∀ i ∈ is, (ps i).GrowsTo (qs i)) :
    (oneOf (is.map ps)).GrowsTo (oneOf (is.map qs)) := by
  induction is with
  | nil => exact .refl _
  | cons i is ih =>
      have hi : (ps i).GrowsTo (qs i) := h i (by simp)
      cases is with
      | nil => exact hi
      | cons j is =>
          have hrest : (oneOf ((j :: is).map ps)).GrowsTo (oneOf ((j :: is).map qs)) :=
            ih fun k hk => h k (List.mem_cons_of_mem i hk)
          intro src
          apply (hi src).bind
          rintro (⟨v, rest⟩ | e)
          · exact .refl _
          · exact hrest src

theorem growsTo_collect (h : ∀ i ∈ is, (ps i).GrowsTo (qs i)) (src : Text) :
    (collect (is.map ps) src).GrowsTo (collect (is.map qs) src) := by
  induction is generalizing src with
  | nil => exact .refl _
  | cons i is ih =>
      apply (h i (by simp) src).bind
      rintro (⟨v, rest⟩ | e)
      · exact (ih (fun j hj => h j (List.mem_cons_of_mem i hj)) rest).bind fun _ => .refl _
      · exact .refl _

theorem growsTo_sequence (h : ∀ i ∈ is, (ps i).GrowsTo (qs i)) :
    (sequence (is.map ps)).GrowsTo (sequence (is.map qs)) :=
  fun src => (growsTo_collect h src).bind fun _ => .refl _

end Lists

section Limits

variable {limit limit' : Nat}

theorem GrowsTo.gather (h : p.GrowsTo q) (hlimit : limit ≤ limit') (src : Text) :
    (p.gather limit src).GrowsTo (q.gather limit' src) := by
  induction limit generalizing limit' src with
  | zero => exact Outcome.exhausted_growsTo _
  | succ limit ih =>
      cases limit' with
      | zero => omega
      | succ limit' =>
          apply (h src).bind
          rintro (⟨v, rest⟩ | e)
          · cases v with
            | nothing => exact .refl _
            | _ => exact (ih (by omega) rest).bind fun _ => .refl _
          · exact .refl _

theorem GrowsTo.many (h : p.GrowsTo q) (hlimit : limit ≤ limit') :
    (p.many limit).GrowsTo (q.many limit') :=
  fun src => (h.gather hlimit src).bind fun _ => .refl _

theorem growsTo_recursive
    {step step' : Parser → Parser}
    (hstep : ∀ p q : Parser, p.GrowsTo q → (step p).GrowsTo (step' q)) (hlimit : limit ≤ limit') :
    (recursive step limit).GrowsTo (recursive step' limit') := by
  induction limit generalizing limit' with
  | zero => exact fun src => Outcome.exhausted_growsTo _
  | succ limit ih =>
      cases limit' with
      | zero => omega
      | succ limit' => exact hstep _ _ (ih (by omega))

end Limits

theorem GrowsTo.butNot (h : p.GrowsTo q) (h' : p'.GrowsTo q') (name : Text) :
    (p.butNot p' name).GrowsTo (q.butNot q' name) := by
  intro src
  apply (h src).bind
  rintro (⟨v, rest⟩ | e)
  · exact (h' src).bind fun _ => .refl _
  · exact .refl _

theorem GrowsTo.lookaheadNot (h : p.GrowsTo q) (h' : p'.GrowsTo q') (name : Text) :
    (p.lookaheadNot p' name).GrowsTo (q.lookaheadNot q' name) := by
  intro src
  apply (h src).bind
  rintro (⟨v, rest⟩ | e)
  · exact (h' rest).bind fun _ => .refl _
  · exact .refl _

theorem GrowsTo.expect (h : p.GrowsTo q) (description : Text) :
    (p.expect description).GrowsTo (q.expect description) :=
  fun src => (h src).bind fun _ => .refl _

theorem GrowsTo.parse (h : p.GrowsTo q) (src : Text) : (p.parse src).GrowsTo (q.parse src) :=
  (h src).bind fun _ => .refl _

end Parser

end Descent
