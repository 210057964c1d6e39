import Descent.Text.Printable

/-!
# Quoted texts

A quoted text stands between single quotes, unless it holds a single quote and no double
quote, in which case it stands between double quotes.  The quote in use and the backslash are
written with a backslash in front, line breaks and tabulators by a letter, and every other
unprintable code point by its number in the shortest of three widths.
-/

namespace Descent.Text

/-- The digit of a value below sixteen, with small letters. -/
def hexDigit (n : Nat) : CodePoint := ↑(Nat.digitChar n)

/-- The last `width` hexadecimal digits of a number. -/
def hexadecimal : (width n : Nat) → Text
  | 0, _ => []
  | width + 1, n => hexadecimal width (n / 16) ++ [hexDigit (n % 16)]

def quoteOf (t : Text) : CodePoint :=
  if t.contains '\'' && !t.contains '"' then '"' else '\''

def escaped (quote c : CodePoint) : Text :=
  if c = quote ∨ c = '\\' then ['\\', c]
  else if c = '\n' then "\\n"
  else if c = '\r' then "\\r"
  else if c = '\t' then "\\t"
  else if c.isPrintable then [c]
  else if c.toNat < 0x100 then "\\x" ++ hexadecimal 2 c.toNat
  else if c.toNat < 0x10000 then "\\u" ++ hexadecimal 4 c.toNat
  else "\\U" ++ hexadecimal 8 c.toNat

def quoted (t : Text) : Text :=
  let quote := quoteOf t
  quote :: (t.flatMap (escaped quote) ++ [quote])

end Descent.Text
