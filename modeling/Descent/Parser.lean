import Descent.Outcome
import Descent.Pattern.Matcher

/-!
# Parsers

A parser is given an input and replies with an output and the input that remains, or with a
failure.  It is a plain function, so it can be shared and reused.  This module holds the
primitive parsers and the combinators.  Nothing here looks at where a parser comes from: a
combinator accepts any function of the type, also one that raises, consumes nothing or leaves an
input of its own making.
-/

namespace Descent

inductive Reply where
  /-- The parser matched: its output, and what is left for the next parser. -/
  | success (output : Value) (rest : Text)
  | failure (f : Failure)

def Reply.toValue : Reply → Value
  | success output rest => .success output rest
  | failure f => f.toValue

def Reply.isSuccess : Reply → Bool
  | success _ _ => true
  | failure _ => false

abbrev Parser := Text → Outcome Reply

namespace Parser

def failWith (message : Text) : Parser := fun src => .returned (.failure { input := src, message })

/-! ### Primitive parsers -/

def any : Parser
  | [] => failWith "input was empty" []
  | c :: rest => .returned (.success (.text [c]) rest)

/-- Matches a text exactly.  The empty text always matches. -/
def literal (t : Text) : Parser := fun src =>
  match Text.strip? t src with
  | some rest => .returned (.success (.text t) rest)
  | none => failWith ("input did not begin with \"" ++ t ++ "\"") src

/-- Matches without consuming anything and has nothing to output. -/
def nothing : Parser := fun src => .returned (.success .nothing src)

def pattern (p : Pattern) : Parser := fun src =>
  match p.matchStart? src with
  | some (matched, rest) => .returned (.success (.text matched) rest)
  | none => failWith "input did not match regular expression" src

def raise (fault : Fault) : Parser := fun _ => .raised fault

def endless : Parser := fun _ => .exhausted

/-! ### Functions of the output -/

def as (p : Parser) (v : Value) : Parser := fun src => do
  match ← p src with
  | .failure f => return .failure f
  | .success _ rest => return .success v rest

/-- Applies a function to the output.  A failure that the function returns is an output like any
other. -/
def map (p : Parser) (f : Value → Outcome Value) : Parser := fun src => do
  match ← p src with
  | .failure e => return .failure e
  | .success v rest => return .success (← f v) rest

/-- Applies a function to the output.  If the function returns a failure, that is the reply. -/
def transform (p : Parser) (f : Value → Outcome Value) : Parser := fun src => do
  match ← p src with
  | .failure e => return .failure e
  | .success v rest =>
      let w ← f v
      match w.failure? with
      | some e => return .failure e
      | none => return .success w rest

def flatMap (p : Parser) (f : Value → Parser) : Parser := fun src => do
  match ← p src with
  | .failure e => return .failure e
  | .success v rest => f v rest

/-! ### Choice, sequence and repetition -/

/-- The reply of the first parser that matches, or else the failure of the last one. -/
def oneOf : List Parser → Parser
  | [], src => failWith "there are no alternatives" src
  | [p], src => p src
  | p :: ps, src => do
      match ← p src with
      | .success v rest => return .success v rest
      | .failure _ => oneOf ps src

/-- Applies parsers one after the other, up to the first failure.  The result holds the outputs and
the remaining input. -/
def collect : List Parser → Text → Outcome (Except Failure (List Value × Text))
  | [], src => return .ok ([], src)
  | p :: ps, src => do
      match ← p src with
      | .failure e => return .error e
      | .success v rest =>
          match ← collect ps rest with
          | .error e => return .error e
          | .ok (vs, last) => return .ok (v :: vs, last)

/-- All parsers must match, one after the other.  The output is the list of their outputs. -/
def sequence (ps : List Parser) : Parser := fun src => do
  match ← collect ps src with
  | .error e => return .failure e
  | .ok (vs, rest) => return .success (.list vs) rest

/-- Applies a parser again and again until it fails or has nothing to output.  The result holds the
outputs and the remaining input. -/
def gather (p : Parser) : (limit : Nat) → Text → Outcome (List Value × Text)
  | 0, _ => .exhausted
  | limit + 1, src => do
      match ← p src with
      | .failure _ => return ([], src)
      | .success .nothing rest => return ([], rest)
      | .success v rest =>
          let (vs, last) ← gather p limit rest
          return (v :: vs, last)

/-- Repeats a parser as often as it matches, fewer times than the limit.  Never fails.  Also ends
once the parser has nothing to output, so an optional parser may be repeated. -/
def many (p : Parser) (limit : Nat) : Parser := fun src => do
  let (vs, rest) ← gather p limit src
  return .success (.list vs) rest

/-! ### Exclusion and description -/

/-- The reply of `p`, unless `excluded` matches the same input. -/
def butNot (p excluded : Parser) (name : Text) : Parser := fun src => do
  match ← p src with
  | .failure e => return .failure e
  | .success v rest =>
      if (← excluded src).isSuccess then failWith ("input was unexpectedly " ++ name) src
      else return .success v rest

/-- The reply of `p`, unless `follower` matches right after it. -/
def lookaheadNot (p follower : Parser) (name : Text) : Parser := fun src => do
  match ← p src with
  | .failure e => return .failure e
  | .success v rest =>
      if (← follower rest).isSuccess then
        failWith ("input was unexpectedly followed by " ++ name) src
      else return .success v rest

/-- Describes what was expected in place of the message of a failure.  Only the input of the
failure is kept. -/
def expect (p : Parser) (description : Text) : Parser := fun src => do
  match ← p src with
  | .failure e => return .failure { input := e.input, message := "expected " ++ description }
  | .success v rest => return .success v rest

/-! ### Recursion -/

/-- The parser that `step` makes of itself, unrolled as often as the limit says. -/
def recursive (step : Parser → Parser) : (limit : Nat) → Parser
  | 0, _ => .exhausted
  | limit + 1, src => step (recursive step limit) src

end Parser

end Descent
