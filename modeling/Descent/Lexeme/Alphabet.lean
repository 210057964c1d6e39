import Descent.Text

/-!
# Alphabets

The characters that the ready-made grammars distinguish.
-/

namespace Descent.Alphabet

/-- The characters that separate tokens. -/
def blank : Text := " \t\n\r\x0c"

def binary : Text := "01"

def octal : Text := "01234567"

def decimal : Text := "0123456789"

def hexadecimal : Text := "0123456789abcdefABCDEF"

def identifierStart : Text := "abcdefghijklmnopqrstuvwxyzABCDEFGHIJKLMNOPQRSTUVWXYZ_"

def identifierContinue : Text := identifierStart ++ decimal

/-- The letters that stand for a control character when a backslash is in front, with that
character. -/
def escapes : List (Text × Text) :=
  [("b", "\x08"), ("f", "\x0c"), ("n", "\n"), ("r", "\r"), ("t", "\t")]

end Descent.Alphabet
