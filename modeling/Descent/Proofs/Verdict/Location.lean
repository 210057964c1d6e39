import Descent.Proofs.Grammar.Suffix

/-!
# Verdicts and the errors they amount to

The verdict on a text is decided by the reply of the parser alone: a match of the whole text is
accepted, a shorter match is a failure of the whole text, and a failure is passed on as it is.
An error is raised exactly when the verdict amounts to a failure, which an accepted output may do
as well.  Its position is inside the text, and the failure's input begins there if that input is
a suffix of the text.
-/

namespace Descent

variable {src : Text} {r : Reply}

/-- The failure of a match that leaves a rest of the text. -/
def Failure.excess (src : Text) (output : Value) (rest : Text) : Failure :=
  { input := src
    message := "excess content followed valid input"
    output
    rest := some rest }

/-! ### From replies to verdicts -/

/-- The verdict on `src` that a reply amounts to.  A complete match is accepted with its output. -/
def Reply.verdict (src : Text) : Reply → Verdict
  | .success output [] => .accepted output
  | .success output (c :: rest) => .rejected (.excess src output (c :: rest))
  | .failure f => .rejected f

theorem Parser.parse_of_returned {p : Parser} (h : p src = .returned r) :
    p.parse src = .returned (r.verdict src) := by
  rw [parse, h]
  rcases r with ⟨output, _ | ⟨c, rest⟩⟩ | f <;> rfl

theorem Reply.verdict_eq_accepted_iff {output : Value} :
    r.verdict src = .accepted output ↔ r = .success output [] := by
  rcases r with ⟨output', _ | ⟨c, rest⟩⟩ | f <;> simp [verdict]

theorem Parser.parse_eq_accepted_iff {p : Parser} {output : Value} :
    p.parse src = .returned (.accepted output) ↔ p src = .returned (.success output []) := by
  cases h : p src with
  | returned r => simp [parse_of_returned h, Reply.verdict_eq_accepted_iff]
  | _ => simp [parse, h]

theorem Parser.parse_eq_raised_iff {p : Parser} {fault : Fault} :
    p.parse src = .raised fault ↔ p src = .raised fault := by
  cases h : p src with
  | returned r => simp [parse_of_returned h]
  | _ => simp [parse, h]

theorem Parser.parse_eq_exhausted_iff {p : Parser} :
    p.parse src = .exhausted ↔ p src = .exhausted := by
  cases h : p src with
  | returned r => simp [parse_of_returned h]
  | _ => simp [parse, h]

theorem Reply.verdict_eq_rejected_iff {f : Failure} :
    r.verdict src = .rejected f ↔
      r = .failure f ∨
        ∃ output rest, r = .success output rest ∧ rest ≠ [] ∧ f = .excess src output rest := by
  rcases r with ⟨output, _ | ⟨c, rest⟩⟩ | f' <;> simp [verdict, eq_comm]

/-! ### From verdicts to errors -/

theorem Verdict.orError_eq_ok_iff {verdict : Verdict} {v : Value} :
    verdict.orError src = .ok v ↔ verdict.toValue = v ∧ v.failure? = none := by
  unfold orError failure?
  cases hfailure : verdict.toValue.failure? with
  | none =>
      simp only [Except.ok.injEq]
      constructor
      · rintro rfl
        exact ⟨rfl, hfailure⟩
      · exact And.left
  | some f =>
      simp only [reduceCtorEq, false_iff, not_and]
      rintro rfl
      simp [hfailure]

theorem Verdict.orError_of_failure {verdict : Verdict} {f : Failure}
    (h : verdict.failure? = some f) :
    verdict.orError src = .error (f.error (some src)) := by
  simp [orError, h]

theorem Failure.error_position_nonneg (f : Failure) (src : Text) :
    0 ≤ (f.error (some src)).position :=
  le_max_right _ _

theorem Failure.error_position_le (f : Failure) (src : Text) :
    (f.error (some src)).position ≤ src.length := by
  simp only [error, Option.getD_some]
  omega

/-- The error of a failure stands where the failure's input begins. -/
theorem Failure.drop_error_position {f : Failure} (h : f.input <:+ src) :
    src.drop (f.error (some src)).position.toNat = f.input := by
  obtain ⟨front, rfl⟩ := h
  have hposition : (f.error (some (front ++ f.input))).position.toNat = front.length := by
    simp only [error, Option.getD_some, List.length_append]
    omega
  rw [hposition, List.drop_left]

/-- The verdict of a parser whose outputs are no failures amounts to a failure only if the text is
refused. -/
theorem Reply.verdict_failure?_input_suffix {f : Failure}
    (hinput : ∀ e, r = .failure e → e.input <:+ src)
    (houtput : ∀ v rest, r = .success v rest → v.failure? = none)
    (h : (r.verdict src).failure? = some f) : f.input <:+ src := by
  rcases r with ⟨output, _ | ⟨c, rest⟩⟩ | e
  · have hnone := houtput output [] rfl
    simp only [verdict, Verdict.failure?, Verdict.toValue] at h
    simp [hnone] at h
  · obtain rfl : Failure.excess src output (c :: rest) = f := by
      simpa [verdict, Verdict.failure?, Verdict.toValue] using h
    exact List.suffix_refl src
  · obtain rfl : e = f := by
      simpa [verdict, Verdict.failure?, Verdict.toValue] using h
    exact hinput e rfl

namespace Part

variable {p : Part} {defs : Definitions} {limit : Nat}

theorem parse_of_returned (h : (found (.ok p)).apply defs limit src = .returned r) :
    p.parse defs limit src = .returned (r.verdict src) :=
  Parser.parse_of_returned h

theorem parseOrError_of_returned (h : (found (.ok p)).apply defs limit src = .returned r) :
    p.parseOrError defs limit src = .returned ((r.verdict src).orError src) := by
  rw [parseOrError, parse_of_returned h]
  rfl

/-- Parsing a whole text makes of the part's reply the verdict that the reply amounts to: the output
of a complete match is accepted, a shorter match becomes a failure of the text that carries the
output and the rest, and a failure of the part is passed on.  Parsing with errors returns the same
outputs, unless they are failures themselves, and else raises an error with the failure's message at
a position inside the text.  The position is where the failure's input begins, if the part points at
suffixes of the text and does not output failures. -/
theorem verdict_and_error_of_reply
    (h : (found (.ok p)).apply defs limit src = .returned r) :
    p.parse defs limit src = .returned (r.verdict src) ∧
      (∀ output, r.verdict src = .accepted output ↔ r = .success output []) ∧
      (∀ f, r.verdict src = .rejected f ↔
        r = .failure f ∨
          ∃ output rest, r = .success output rest ∧ rest ≠ [] ∧ f = .excess src output rest) ∧
      (∀ v, p.parseOrError defs limit src = .returned (.ok v) ↔
        (r.verdict src).toValue = v ∧ v.failure? = none) ∧
      (∀ f, (r.verdict src).toValue.failure? = some f →
        ∃ e, p.parseOrError defs limit src = .returned (.error e) ∧
          e.message = f.message ∧ e.source = src ∧ 0 ≤ e.position ∧ e.position ≤ src.length ∧
          ((∀ e, r = .failure e → e.input <:+ src) →
            (∀ v rest, r = .success v rest → v.failure? = none) →
              src.drop e.position.toNat = f.input)) ∧
      (defs.Throughout (Grammar.KeepsLocations defs) (found (.ok p)) →
        ∀ e, r = .failure e → e.input <:+ src) := by
  have herror := parseOrError_of_returned h
  refine ⟨parse_of_returned h, fun output => Reply.verdict_eq_accepted_iff,
    fun f => Reply.verdict_eq_rejected_iff, ?_, ?_, ?_⟩
  · intro v
    rw [herror, Outcome.returned.injEq]
    exact Verdict.orError_eq_ok_iff
  · intro f hf
    refine ⟨f.error (some src), ?_, rfl, rfl, f.error_position_nonneg src,
      f.error_position_le src, ?_⟩
    · rw [herror, Verdict.orError_of_failure hf]
    · intro hinput houtput
      exact Failure.drop_error_position (Reply.verdict_failure?_input_suffix hinput houtput hf)
  · rintro hlocations e rfl
    rw [← Grammar.confinable_true] at hlocations
    exact Grammar.confined_apply hlocations limit src _ h trivial

/-- An integer in square brackets. -/
def bracketed : Part :=
  .grammar (.sequence [.literal "[", Grammar.integerNumber, .literal "]"])

theorem keepsLocations_bracketed :
    Definitions.Throughout [] (Grammar.KeepsLocations []) (found (.ok bracketed)) := by
  have hplain : ∀ g, Grammar.Plain g → Grammar.KeepsLocations [] g := by
    intro g hg
    cases g <;> trivial
  constructor
  · exact ⟨trivial, trivial, Grammar.everywhere_plain_integerNumber.mono hplain, trivial, trivial⟩
  · exact Definitions.everywhere_found (fun _ => trivial) (by simp)

theorem verdict_and_error_of_reply_bracketed :
    (Definitions.Throughout [] (Grammar.KeepsLocations []) (found (.ok bracketed)) ∧
      ∃ e, bracketed.parseOrError [] 9 "[-7!" = .returned (.error e) ∧
        e.message = "input did not begin with \"]\"" ∧ e.source = "[-7!" ∧
        e.source.drop e.position.toNat = "!") ∧
    bracketed.parse [] 9 "[-7]]" =
      .returned (.rejected
        { input := "[-7]]"
          message := "excess content followed valid input"
          output := .list [.text "[", .int (-7), .text "]"]
          rest := some "]" }) := by
  have hfailure : (found (.ok bracketed)).apply [] 9 "[-7!" =
      .returned (.failure { input := "!", message := "input did not begin with \"]\"" }) := by
    cbv
  have hmatch : (found (.ok bracketed)).apply [] 9 "[-7]]" =
      .returned (.success (.list [.text "[", .int (-7), .text "]"]) "]") := by
    cbv
  obtain ⟨-, -, -, -, herror, hsuffix⟩ := verdict_and_error_of_reply hfailure
  obtain ⟨e, he, hmessage, hsource, -, -, hlocated⟩ := herror _ rfl
  have hdrop := hlocated (hsuffix keepsLocations_bracketed) (by simp)
  obtain ⟨hparse, -⟩ := verdict_and_error_of_reply hmatch
  refine ⟨⟨keepsLocations_bracketed, e, he, hmessage, hsource, ?_⟩, hparse⟩
  rw [hsource]
  exact hdrop

end Part

end Descent
