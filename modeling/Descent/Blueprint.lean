import Descent.Grammar.Definitions
import Descent.Lexeme.Identifier

/-!
# Blueprints

A blueprint is an expression that builds a grammar, or another part, when it is carried out:
it applies constructors of grammars to parts.  The parts of a constructor are built from left
to right before the constructor is applied to them, so the first fault on that way is the one
that is raised.  A blueprint may mention definitions that have been built before it.
-/

namespace Descent

/-- An expression that builds a part. -/
inductive Blueprint where
  /-- Something that is there already. -/
  | part (p : Part)
  | built (name : Name)
  /-- A pattern that is read from its written form. -/
  | pattern (source : Text) (options : PatternOptions)
  | regularExpression (source : Text) (options : PatternOptions)
  /-- The grammar of a pattern that has been read, to which no options can be added. -/
  | regularExpressionOf (source : Text) (options : PatternOptions)
  | grammar (b : Blueprint)
  | as (b : Blueprint) (v : Value)
  | map (b : Blueprint) (f : Value → Except Fault Value)
  | transform (b : Blueprint) (f : Value → Except Fault Value)
  | reparse (b inner : Blueprint)
  /-- Goes on with a part that a function of the output finds.  The function may use further parts,
  which are built beforehand. -/
  | flatMap (b : Blueprint) (uses : List Blueprint) (f : List Part → Value → Except Fault Part)
  | oneOf (bs : List Blueprint)
  | sequence (bs : List Blueprint)
  | many (b : Blueprint)
  | oneOrMore (b : Blueprint)
  | optional (b : Blueprint)
  | butNot (b excluded : Blueprint) (name : Text)
  | lookaheadNot (b follower : Blueprint) (name : Text)
  | expect (b : Blueprint) (description : Text)
  | token (b : Blueprint)
  | charClass (characters repetition : Text)
  | keyword (word : Text)
  | identifierExcept (words : List Text)

namespace Blueprint

/-- A text in place of a list of parts stands for its code points. -/
def characters (t : Text) : List Blueprint := t.map fun c => part (Part.text [c])

def asPart (g : Except Fault Grammar) : Except Fault Part := g.map .grammar

mutual

def build (defs : Definitions) : Blueprint → Except Fault Part
  | .part p => .ok p
  | .built name => defs.find name
  | .pattern source options => (Pattern.read options source).map .pattern
  | .regularExpression source options =>
      asPart ((Pattern.read options source).map .pattern)
  | .regularExpressionOf source options => do
      let p ← Pattern.read {} source
      if options = {} then return .grammar (.pattern p) else .error .optionsOfReadPattern
  | .grammar b => do asPart (← build defs b).toGrammar
  | .as b v => do asPart ((← build defs b).as v)
  | .map b f => do asPart ((← build defs b).map f)
  | .transform b f => do asPart ((← build defs b).transform f)
  | .reparse b inner => do
      let p ← build defs b
      let q ← build defs inner
      asPart (p.reparse q)
  | .flatMap b uses f => do
      let p ← build defs b
      let ps ← buildAll defs uses
      asPart (p.flatMap (f ps))
  | .oneOf bs => do asPart (Part.oneOf (← buildAll defs bs))
  | .sequence bs => do asPart (Part.sequence (← buildAll defs bs))
  | .many b => do asPart (← build defs b).many
  | .oneOrMore b => do asPart (← build defs b).oneOrMore
  | .optional b => do asPart (← build defs b).optional
  | .butNot b excluded name => do
      let p ← build defs b
      let q ← build defs excluded
      asPart (p.butNot q name)
  | .lookaheadNot b follower name => do
      let p ← build defs b
      let q ← build defs follower
      asPart (p.lookaheadNot q name)
  | .expect b description => do asPart ((← build defs b).expect description)
  | .token b => do asPart (← build defs b).token
  | .charClass characters repetition => asPart (Grammar.charClass characters repetition)
  | .keyword word => .ok (.grammar (.keyword word))
  | .identifierExcept words => asPart (Grammar.identifierExcept words)

def buildAll (defs : Definitions) : List Blueprint → Except Fault (List Part)
  | [] => .ok []
  | b :: bs => do
      let p ← build defs b
      let ps ← buildAll defs bs
      return p :: ps

end

/-- Carries out the blueprints of definitions in order, each with those before it at hand. -/
def buildDefinitions (defs : Definitions) :
    List (Name × Blueprint) → Except Fault Definitions
  | [] => .ok defs
  | (name, b) :: rest => do
      let p ← build defs b
      buildDefinitions (defs ++ [(name, p)]) rest

end Blueprint

structure Workspace where
  definitions : Definitions
  start : Part

def Blueprint.workspace (defs : List (Name × Blueprint)) (start : Blueprint) :
    Except Fault Workspace := do
  let definitions ← buildDefinitions [] defs
  let start ← build definitions start
  return { definitions, start }

end Descent
