import Descent.Lexeme.Blank

/-!
# Identifiers and reserved words

A reserved word is only recognised where it is not the beginning of a longer identifier.
-/

namespace Descent

namespace Grammar

def identifier : Grammar :=
  .pattern
    (.seq (.oneOf Alphabet.identifierStart)
      (.zeroOrMore (.oneOf Alphabet.identifierContinue)))

/-- A word, unless an identifier character follows. -/
def keyword (word : Text) : Grammar :=
  (literal word).lookaheadNot (.pattern (.oneOf Alphabet.identifierContinue))
    "an identifier character"

def reserved (words : List Text) : Grammar :=
  match words with
  | [word] => keyword word
  | words => oneOf (words.map keyword)

/-- An identifier that is none of the words, of which there must be some. -/
def identifierExcept (words : List Text) : Except Fault Grammar :=
  if words.isEmpty then .error .noWords
  else return identifier.butNot (reserved words) "a reserved word"

end Grammar

end Descent
