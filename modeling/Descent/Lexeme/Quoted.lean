import Descent.Lexeme.Blank

/-!
# Quoted strings

Strings in either kind of quotes, with backslash escapes.  A few letters behind a backslash
stand for control characters, `u` and four hexadecimal digits for a code point of that number,
and everything else for itself.
-/

namespace Descent

namespace Value

def codePoint : Value → Except Fault Value
  | .text t =>
      match (Numeral.read? 16 t).bind CodePoint.ofNat? with
      | some c => .ok (.text [c])
      | none => .error (.unsuitable (.text t))
  | v => .error (.unsuitable v)

end Value

namespace Grammar

/-- A code point by its number: what stands behind the backslash. -/
def unicodeEscape : Grammar :=
  (picking
    [ literal "u",
      (pattern (.iterate (.oneOf Alphabet.hexadecimal) 4 (some 4) .greedy)).expect
        "4 hexadecimal characters after a unicode escape" ] 1).map Value.codePoint

def controlEscapes : List Grammar :=
  Alphabet.escapes.map fun (letter, character) => (literal letter).as (.text character)

/-- Anything that stands for itself, which a malformed escape by number does not. -/
def plainEscape : Grammar := any.butNot (literal "u") "a unicode escape"

def escapeSequence : Grammar :=
  picking
    [literal "\\", oneOf (unicodeEscape :: controlEscapes ++ [plainEscape])] 1

/-- A run of code points that need no escape between given quotes. -/
def unescaped (quote : CodePoint) : Grammar :=
  .pattern (.oneOrMore (.set (CharSet.ofText [quote, '\\']).compl))

def quotedBy (quote : CodePoint) : Grammar :=
  (picking
    [ literal [quote],
      (oneOf [unescaped quote, escapeSequence]).many,
      (literal [quote]).expect ("closing quote `" ++ [quote] ++ "`") ] 1).map Value.join

def quotedString : Grammar := oneOf [quotedBy '"', quotedBy '\'']

end Grammar

end Descent
