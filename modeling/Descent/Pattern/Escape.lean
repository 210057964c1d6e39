import Descent.Pattern

/-!
# Escaping a text for use in a pattern

Every code point that has a meaning of its own in a written pattern, and every blank one, gets
a backslash in front.  Between brackets the result stands for exactly its code points.
-/

namespace Descent.Pattern

/-- The code points that are written with a backslash. -/
def special : Text := "()[]{}?*+-|^$\\.&~# \t\n\r\x0b\x0c"

def escape (t : Text) : Text :=
  t.flatMap fun c => if special.contains c then ['\\', c] else [c]

end Descent.Pattern
