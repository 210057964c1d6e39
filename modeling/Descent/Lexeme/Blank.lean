import Descent.Grammar.Part
import Descent.Lexeme.Alphabet
import Descent.Pattern.Reader

/-!
# Blanks and tokens

Runs of given characters, among them the blanks between tokens, and grammars with blanks around
them.
-/

namespace Descent

namespace Grammar

/-- Matches one of `characters`.  The repetition is written behind the class and may be any text of
that kind. -/
def charClass (characters repetition : Text) : Except Fault Grammar :=
  return .pattern (← Pattern.read {} ("[" ++ Pattern.escape characters ++ "]" ++ repetition))

/-- A run of given characters, as long as possible and not empty. -/
def someOf (characters : Text) : Grammar := .pattern (.oneOrMore (.oneOf characters))

/-- A run of given characters, as long as possible and perhaps empty.  Never fails. -/
def manyOf (characters : Text) : Grammar := .pattern (.zeroOrMore (.oneOf characters))

def whitespace : Grammar := someOf Alphabet.blank

def optionalWhitespace : Grammar := manyOf Alphabet.blank

/-- A grammar with blanks around it, which the output does not show. -/
def token (g : Grammar) : Grammar := picking [optionalWhitespace, g, optionalWhitespace] 1

end Grammar

def Part.token (p : Part) : Except Fault Grammar := return (← p.toGrammar).token

end Descent
