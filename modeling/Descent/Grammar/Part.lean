import Descent.Grammar

/-!
# Parts of grammars

Wherever a grammar is put together from others, a text may stand for the grammar that matches
it, and a pattern for the grammar that matches the pattern.  What stands in such a place is
called a part.  Every constructor here turns its parts into grammars first, so an unsuitable
part is found when the grammar is built.  A part that is only known when the grammar is applied
is turned into a grammar then.
-/

namespace Descent

/-- What may stand where a parser is expected.  Of the values, only texts are suitable. -/
inductive Part where
  | grammar (g : Grammar)
  | pattern (p : Pattern)
  | value (v : Value)

namespace Part

def text (t : Text) : Part := value (.text t)

def toGrammar : Part → Except Fault Grammar
  | grammar g => .ok g
  | pattern p => .ok (.pattern p)
  | value (.text t) => .ok (.literal t)
  | value v => .error (.notAParser v)

@[simp] theorem toGrammar_grammar (g : Grammar) : (grammar g).toGrammar = .ok g := rfl

@[simp] theorem toGrammar_text (t : Text) : (text t).toGrammar = .ok (.literal t) := rfl

@[simp] theorem toGrammar_pattern (p : Pattern) :
    (pattern p).toGrammar = .ok (.pattern p) := rfl

def toGrammars : List Part → Except Fault (List Grammar)
  | [] => .ok []
  | p :: ps => do
      let g ← p.toGrammar
      let gs ← toGrammars ps
      return g :: gs

/-- The grammar that stands for a part found on application: it raises what finding the part or
turning it into a grammar raises. -/
def found (p : Except Fault Part) : Grammar :=
  match p.bind toGrammar with
  | .ok g => g
  | .error fault => .raise fault

/-- The grammars that at least two parts stand for.  They are counted first. -/
def atLeastTwo (ps : List Part) : Except Fault (List Grammar) :=
  if ps.length < 2 then .error .tooFewParsers else toGrammars ps

def as (p : Part) (v : Value) : Except Fault Grammar := return (← p.toGrammar).as v

def map (p : Part) (f : Value → Except Fault Value) : Except Fault Grammar :=
  return (← p.toGrammar).map f

def transform (p : Part) (f : Value → Except Fault Value) : Except Fault Grammar :=
  return (← p.toGrammar).transform f

/-- The inner part is only needed on application. -/
def reparse (p inner : Part) : Except Fault Grammar :=
  return (← p.toGrammar).reparse (found (.ok inner))

def flatMap (p : Part) (f : Value → Except Fault Part) : Except Fault Grammar :=
  return (← p.toGrammar).flatMap fun v => found (f v)

def oneOf (ps : List Part) : Except Fault Grammar := return .oneOf (← atLeastTwo ps)

def sequence (ps : List Part) : Except Fault Grammar := return .sequence (← atLeastTwo ps)

def many (p : Part) : Except Fault Grammar := return (← p.toGrammar).many

def oneOrMore (p : Part) : Except Fault Grammar := return (← p.toGrammar).oneOrMore

def optional (p : Part) : Except Fault Grammar := return (← p.toGrammar).optional

def butNot (p excluded : Part) (name : Text) : Except Fault Grammar := do
  let g ← p.toGrammar
  let e ← excluded.toGrammar
  return g.butNot e name

def lookaheadNot (p follower : Part) (name : Text) : Except Fault Grammar := do
  let g ← p.toGrammar
  let e ← follower.toGrammar
  return g.lookaheadNot e name

def expect (p : Part) (description : Text) : Except Fault Grammar :=
  return (← p.toGrammar).expect description

end Part

end Descent
