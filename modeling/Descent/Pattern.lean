import Descent.Text

/-!
# Patterns

Regular expressions as trees.  A pattern is matched at one place of a text and may look at
what stands around it, so beside the usual operations there are anchors and the four kinds of
lookaround.  Options such as ignoring case are no part of a tree: whoever builds the tree has
already chosen the sets of code points and the anchors accordingly.

A set is any condition on code points, but the sets that have a name here are those of ASCII: no
digit, letter or blank of another script is in one of them, the word boundaries go by the word
characters of ASCII, and only its letters have another case.  Trees have no captured groups, so
nothing in a tree can refer back to what a group has matched.
-/

namespace Descent

abbrev CharSet := CodePoint → Bool

namespace CharSet

def one (c : CodePoint) : CharSet := (· == c)

def ofText (t : Text) : CharSet := t.contains

def range (lo hi : CodePoint) : CharSet :=
  fun c => lo.toNat ≤ c.toNat && c.toNat ≤ hi.toNat

def union (s t : CharSet) : CharSet := fun c => s c || t c

def compl (s : CharSet) : CharSet := fun c => !s c

/-- The ten digits of ASCII. -/
def digits : CharSet := range '0' '9'

/-- The letters of ASCII. -/
def letters : CharSet := union (range 'a' 'z') (range 'A' 'Z')

/-- The letters and digits of ASCII, and the underscore. -/
def wordCharacters : CharSet := union (union letters digits) (one '_')

/-- The blank characters of ASCII: the space, tabulators, line breaks and page breaks, and the four
separators of information. -/
def blanks : CharSet :=
  union (one ' ') (fun c => (9 ≤ c.toNat && c.toNat ≤ 13) || (28 ≤ c.toNat && c.toNat ≤ 31))

/-- The letter of ASCII in the other case, and anything else as it is. -/
def otherCase (c : CodePoint) : CodePoint :=
  if range 'a' 'z' c then (CodePoint.ofNat? (c.toNat - 32)).getD c
  else if range 'A' 'Z' c then (CodePoint.ofNat? (c.toNat + 32)).getD c
  else c

/-- The code points of which the set has one case, which differs for letters of ASCII only. -/
def ignoringCase (s : CharSet) : CharSet := fun c => s c || s (otherCase c)

end CharSet

/-- A condition on a place of a text that consumes nothing. -/
inductive Anchor where
  /-- At the start of the text. -/
  | start
  /-- At the start of the text or after a line break. -/
  | lineStart
  /-- At the end of the text or before a line break that ends it. -/
  | finish
  /-- At the end of the text or before any line break. -/
  | lineEnd
  /-- At the very end of the text. -/
  | veryEnd
  /-- Between a word character and something else. -/
  | wordBoundary
  /-- Between two word characters, or between two others. -/
  | notWordBoundary
deriving DecidableEq

/-- In which order a repetition tries its counts. -/
inductive Greed where
  /-- More iterations first. -/
  | greedy
  /-- Fewer iterations first. -/
  | frugal
  /-- As many iterations as possible, and no fewer later on. -/
  | possessive
deriving DecidableEq

inductive Pattern where
  | empty
  | set (s : CharSet)
  | seq (p q : Pattern)
  /-- Either pattern, the first one preferred. -/
  | alt (p q : Pattern)
  /-- At least `least` iterations, and at most `most` if there is a bound. -/
  | iterate (p : Pattern) (least : Nat) (most : Option Nat) (greed : Greed)
  | anchor (a : Anchor)
  /-- Whether the pattern matches from here on, as `positive` says. -/
  | ahead (positive : Bool) (p : Pattern)
  /-- Whether the pattern, which takes `width` code points, matches up to here. -/
  | behind (positive : Bool) (width : Nat) (p : Pattern)

namespace Pattern

def seqAll : List Pattern → Pattern
  | [] => empty
  | [p] => p
  | p :: ps => seq p (seqAll ps)

/-- The patterns as alternatives, the first ones preferred. -/
def altAll : List Pattern → Pattern
  | [] => empty
  | [p] => p
  | p :: ps => alt p (altAll ps)

def oneOf (characters : Text) : Pattern := set (CharSet.ofText characters)

/-- A pattern or nothing, the pattern preferred. -/
def maybe (p : Pattern) : Pattern := iterate p 0 (some 1) .greedy

/-- As many iterations as possible, and at least one. -/
def oneOrMore (p : Pattern) : Pattern := iterate p 1 none .greedy

def zeroOrMore (p : Pattern) : Pattern := iterate p 0 none .greedy

/-- The number of code points that every match of the pattern takes, if it is the same for all. -/
def width? : Pattern → Option Nat
  | empty | anchor _ | ahead _ _ | behind _ _ _ => some 0
  | set _ => some 1
  | seq p q =>
      match p.width?, q.width? with
      | some m, some n => some (m + n)
      | _, _ => none
  | alt p q =>
      match p.width?, q.width? with
      | some m, some n => if m = n then some m else none
      | _, _ => none
  | iterate p least most _ =>
      match p.width? with
      | some 0 => some 0
      | some m => if most = some least then some (m * least) else none
      | none => if most = some 0 then some 0 else none

end Pattern

end Descent
