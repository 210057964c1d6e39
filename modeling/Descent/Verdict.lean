import Descent.Parser
import Descent.Text.Position

/-!
# Verdicts on whole texts

A parser stops wherever its match ends.  Only here is it required to consume all of a text: the
verdict is the bare output if it did, and a failure otherwise.  A failure can be turned into an
error that locates it in the text.
-/

namespace Descent

/-- A failure located in the text that was being parsed. -/
structure ParseError where
  source : Text
  position : Int
  message : Text
deriving DecidableEq

def ParseError.note (e : ParseError) : Text := describePosition e.source e.position

/-- Locates a failure in `source`.  Without a source, the failure is at the start of its own input.
An input longer than the source counts as the start, too. -/
def Failure.error (f : Failure) (source : Option Text) : ParseError :=
  let source := source.getD f.input
  { source
    position := max ((source.length : Int) - (f.input.length : Int)) 0
    message := f.message }

def Failure.report (f : Failure) (source : Text) : Text :=
  "parse failed at position " ++ Text.ofInt ((source.length : Int) - (f.input.length : Int)) ++
    ": " ++ f.message

inductive Verdict where
  | accepted (output : Value)
  | rejected (f : Failure)

namespace Verdict

def toValue : Verdict → Value
  | accepted output => output
  | rejected f => f.toValue

/-- The failure that the verdict amounts to, which may also be an output. -/
def failure? (v : Verdict) : Option Failure := v.toValue.failure?

def report? (source : Text) : Verdict → Option Text
  | accepted _ => none
  | rejected f => some (f.report source)

/-- The output, or the error if the verdict amounts to a failure. -/
def orError (source : Text) (v : Verdict) : Except ParseError Value :=
  match v.failure? with
  | some f => .error (f.error (some source))
  | none => .ok v.toValue

end Verdict

/-- Applies a parser to a text and requires it to consume all of it. -/
def Parser.parse (p : Parser) (src : Text) : Outcome Verdict := do
  match ← p src with
  | .failure f => return .rejected f
  | .success output [] => return .accepted output
  | .success output rest =>
      return .rejected
        { input := src
          message := "excess content followed valid input"
          output
          rest := some rest }

end Descent
