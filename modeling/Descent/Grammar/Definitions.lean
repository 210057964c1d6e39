import Descent.Grammar.Part

/-!
# Definitions

Named parts that may refer to each other.  The meaning of a name is a parser that unrolls
references to a depth: at depth zero a reference does not come to an end, and one deeper it
applies what the name is defined as, with the references in it being one less deep.
-/

namespace Descent

/-- Named parts, the latest definition of a name last. -/
abbrev Definitions := List (Name × Part)

namespace Definitions

def find (defs : Definitions) (name : Name) : Except Fault Part :=
  match defs.reverse.lookup name with
  | some part => .ok part
  | none => .error (.unknownName name)

/-- What a name is defined as, with references unrolled to a depth. -/
def meaning (defs : Definitions) (limit : Nat) : (depth : Nat) → Name → Parser
  | 0, _, _ => .exhausted
  | depth + 1, name, src =>
      (Part.found (defs.find name)).run { limit, resolve := meaning defs limit depth } src

def context (defs : Definitions) (limit : Nat) : Context :=
  { limit, resolve := meaning defs limit limit }

end Definitions

def Grammar.apply (g : Grammar) (defs : Definitions) (limit : Nat) : Parser :=
  g.run (defs.context limit)

/-- Parses a whole text by a part, which is turned into a grammar on application. -/
def Part.parse (p : Part) (defs : Definitions) (limit : Nat) (src : Text) : Outcome Verdict :=
  ((Part.found (.ok p)).apply defs limit).parse src

/-- Parses a whole text, or raises the error that locates the failure. -/
def Part.parseOrError (p : Part) (defs : Definitions) (limit : Nat) (src : Text) :
    Outcome (Except ParseError Value) := do
  return (← p.parse defs limit src).orError src

end Descent
