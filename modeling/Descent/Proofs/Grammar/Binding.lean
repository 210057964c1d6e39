import Descent.Proofs.Grammar.Agreement

/-!
# Going on behind an output

To go on behind a match with a part that a function of its output finds obeys the laws of a bind,
whose unit matches the empty text and has a given output.  A function that raises, or finds
something unsuitable, does so on application and at the same place on both sides of a law.  The
combinators that only change an output are derived from it.  They differ in what they make of a
failure that their function returns: it is an output for one of them, and the reply for the other.
-/

namespace Descent

namespace Parser

variable {p : Parser} {src : Text}

/-- Matches the empty text and outputs the value. -/
def unit (v : Value) : Parser := fun src => .returned (.success v src)

theorem unit_flatMap (v : Value) (f : Value → Parser) : (unit v).flatMap f = f v := rfl

theorem flatMap_unit (p : Parser) : p.flatMap unit = p := by
  funext src
  unfold flatMap
  cases p src with
  | returned r => cases r <;> rfl
  | raised fault => rfl
  | exhausted => rfl

theorem flatMap_flatMap (p : Parser) (f g : Value → Parser) :
    (p.flatMap f).flatMap g = p.flatMap fun v => (f v).flatMap g := by
  funext src
  simp only [flatMap]
  cases p src with
  | returned r => cases r <;> rfl
  | raised fault => rfl
  | exhausted => rfl

theorem map_eq_flatMap (p : Parser) (f : Value → Outcome Value) :
    p.map f = p.flatMap fun v src => f v >>= fun w => unit w src := rfl

theorem as_eq_map (p : Parser) (v : Value) : p.as v = p.map fun _ => .returned v := rfl

/-- The reply that a value stands for behind a match: a failure is the reply, and anything else is
an output. -/
def ofValue (w : Value) : Parser := fun src =>
  match w.failure? with
  | some e => .returned (.failure e)
  | none => unit w src

theorem transform_eq_flatMap (p : Parser) (f : Value → Outcome Value) :
    p.transform f = p.flatMap fun v src => f v >>= fun w => ofValue w src := by
  funext src
  simp only [transform, flatMap]
  cases p src with
  | returned r =>
      cases r with
      | failure e => rfl
      | success v rest =>
          simp only [Outcome.returned_bind]
          cases f v with
          | returned w =>
              simp only [Outcome.returned_bind, ofValue]
              cases w.failure? <;> rfl
          | raised fault => rfl
          | exhausted => rfl
  | raised fault => rfl
  | exhausted => rfl

end Parser

namespace Part

/-- The empty text with a given output. -/
def unit (v : Value) : Except Fault Part := return .grammar (← (text "").as v)

/-- A part that replies with the failure to every text. -/
def failing (e : Failure) : Part := .grammar (.custom fun _ => .returned (.failure e))

end Part

namespace Grammar

variable {g k : Grammar} {ctx : Context} {src rest : Text} {v w : Value}

theorem run_found_bind {o : Except Fault Value} {f : Value → Except Fault Part} :
    (Part.found (o >>= f)).run ctx =
      fun src => Outcome.ofExcept o >>= fun w => (Part.found (f w)).run ctx src := by
  cases o <;> rfl

theorem run_found_unit (v : Value) (ctx : Context) :
    (Part.found (Part.unit v)).run ctx = Parser.unit v := rfl

/-- A part that is found and goes on behind its output is taken to be suitable first. -/
theorem run_found_flatMap (q : Except Fault Part) (f : Value → Except Fault Part) (ctx : Context) :
    (Part.found (do return .grammar (← (← q).flatMap f))).run ctx =
      ((Part.found q).run ctx).flatMap fun v => (Part.found (f v)).run ctx := by
  cases q with
  | error fault => rfl
  | ok q =>
      simp only [Part.found, Part.flatMap, bind, Except.bind]
      cases q.toGrammar <;> rfl

/-- What is built from the same part is alike if it is so for every grammar that the part may stand
for. -/
theorem builtAlike_toGrammar_bind {p : Part} {x y : Grammar → Except Fault Grammar}
    (h : ∀ g, BuiltAlike (x g) (y g)) : BuiltAlike (p.toGrammar >>= x) (p.toGrammar >>= y) := by
  cases p.toGrammar with
  | error fault => exact .refused fault
  | ok g => exact h g

theorem flatMap_unit_agrees (g : Grammar) :
    (g.flatMap fun v => Part.found (Part.unit v)).Agrees g := by
  intro ctx
  simp only [run, run_found_unit]
  exact Parser.flatMap_unit _

theorem flatMap_flatMap_agrees (k : Grammar) (f g : Value → Except Fault Part) :
    ((k.flatMap fun v => Part.found (f v)).flatMap fun v => Part.found (g v)).Agrees
      (k.flatMap fun v => Part.found (do return .grammar (← (← f v).flatMap g))) := by
  intro ctx
  simp only [run, run_found_flatMap]
  exact Parser.flatMap_flatMap _ _ _

theorem map_agrees_flatMap (g : Grammar) (h : Value → Except Fault Value) :
    (g.map h).Agrees (g.flatMap fun v => Part.found (do Part.unit (← h v))) := by
  intro ctx
  simp only [run, run_found_bind, run_found_unit]
  exact Parser.map_eq_flatMap _ _

theorem transform_agrees_flatMap (g : Grammar) (h : Value → Except Fault Value) :
    (g.transform h).Agrees (g.flatMap fun v => Part.found (do
      let w ← h v
      match w.failure? with
      | some e => return Part.failing e
      | none => Part.unit w)) := by
  intro ctx
  simp only [run, run_found_bind]
  rw [Parser.transform_eq_flatMap]
  congr 1
  funext v src
  congr 1
  funext w
  simp only [Parser.ofValue]
  cases w.failure? <;> rfl

theorem run_map_of_value {f : Value → Except Fault Value}
    (hg : g.run ctx src = .returned (.success v rest)) (hf : f v = .ok w) :
    (g.map f).run ctx src = .returned (.success w rest) := by
  simp [run, Parser.map, hg, hf]

theorem run_transform_of_failure {f : Value → Except Fault Value} {e : Failure}
    (hg : g.run ctx src = .returned (.success v rest)) (hf : f v = .ok w)
    (hw : w.failure? = some e) :
    (g.transform f).run ctx src = .returned (.failure e) := by
  simp [run, Parser.transform, hg, hf, hw]

/-- Going on behind an output is a lawful bind, with the empty text and a given output as its unit,
for all parts, suitable or not, and all functions, whether they find a suitable part or not.  To
change the output is to go on with a unit, to replace it is to change it to a constant, and to
change it or reject it is to go on with a unit or a failure.  A function that only changes the
output may return a failure, which is then an output like any other. -/
theorem flatMap_is_lawful_bind (p : Part) (f g : Value → Except Fault Part)
    (h : Value → Except Fault Value) (v : Value) :
    BuiltAlike (do (← Part.unit v).flatMap f) (.ok (Part.found (f v))) ∧
    BuiltAlike (p.flatMap Part.unit) p.toGrammar ∧
    BuiltAlike (do (Part.grammar (← p.flatMap f)).flatMap g)
      (p.flatMap fun x => do return .grammar (← (← f x).flatMap g)) ∧
    BuiltAlike (p.map h) (p.flatMap fun x => do Part.unit (← h x)) ∧
    BuiltAlike (p.as v) (p.map fun _ => .ok v) ∧
    BuiltAlike (p.transform h) (p.flatMap fun x => do
      let w ← h x
      match w.failure? with
      | some e => return Part.failing e
      | none => Part.unit w) ∧
    ∀ (k : Grammar) ctx src x rest w, k.run ctx src = .returned (.success x rest) → h x = .ok w →
      (k.map h).run ctx src = .returned (.success w rest) ∧
      ∀ e, w.failure? = some e → (k.transform h).run ctx src = .returned (.failure e) := by
  refine ⟨?_, ?_, ?_, ?_, ?_, ?_, ?_⟩
  · exact .built fun ctx => Parser.unit_flatMap v _
  · have hsame : p.toGrammar = p.toGrammar >>= .ok := by cases p.toGrammar <;> rfl
    rw [hsame]
    exact builtAlike_toGrammar_bind fun k => .built (flatMap_unit_agrees k)
  · have hleft : (do (Part.grammar (← p.flatMap f)).flatMap g) = p.toGrammar >>= fun k =>
        .ok ((k.flatMap fun x => Part.found (f x)).flatMap fun y => Part.found (g y)) := by
      unfold Part.flatMap
      cases p.toGrammar <;> rfl
    rw [hleft]
    exact builtAlike_toGrammar_bind fun k => .built (flatMap_flatMap_agrees k f g)
  · exact builtAlike_toGrammar_bind fun k => .built (map_agrees_flatMap k h)
  · exact builtAlike_toGrammar_bind fun k => .built fun ctx => Parser.as_eq_map _ v
  · exact builtAlike_toGrammar_bind fun k => .built (transform_agrees_flatMap k h)
  · intro k ctx src x rest w hk hw
    exact ⟨run_map_of_value hk hw, fun e he => run_transform_of_failure hk hw he⟩

end Grammar

end Descent
