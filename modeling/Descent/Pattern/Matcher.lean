import Descent.Pattern

/-!
# Matching a pattern

A pattern is matched by backtracking.  It is given a place of a text and a continuation that
says whether the rest of the match works out from a later place, and it offers the continuation
the places where it can end, the preferred one first, until one is accepted.  Recursion follows
the pattern.  A repetition needs no more iterations than there are code points left, because an
iteration that consumes nothing ends it.
-/

namespace Descent

/-- A place of a text. -/
structure Cursor where
  /-- What has been passed, the nearest code point first. -/
  before : Text
  /-- What comes next. -/
  after : Text
  /-- How many code points have been passed. -/
  offset : Nat
  offset_eq : offset = before.length

namespace Cursor

def start (t : Text) : Cursor := ⟨[], t, 0, rfl⟩

def advance? (s : CharSet) : Cursor → Option Cursor
  | ⟨_, [], _, _⟩ => none
  | ⟨before, c :: after, offset, h⟩ =>
      if s c then some ⟨c :: before, after, offset + 1, by simp [h]⟩ else none

/-- Goes back by a number of code points. -/
def back? : Nat → Cursor → Option Cursor
  | 0, c => some c
  | _ + 1, ⟨[], _, _, _⟩ => none
  | n + 1, ⟨c :: before, after, offset, h⟩ =>
      back? n ⟨before, c :: after, offset - 1, by simp [h]⟩

/-- Whether the text has a word character right before this place. -/
def wordBefore (c : Cursor) : Bool := c.before.head?.any CharSet.wordCharacters

def wordAfter (c : Cursor) : Bool := c.after.head?.any CharSet.wordCharacters

def ofEmptyText (c : Cursor) : Bool := c.before.isEmpty && c.after.isEmpty

end Cursor

/-- Whether an anchor's condition holds at a place.  Neither condition on word boundaries holds in
an empty text. -/
def Anchor.holds (c : Cursor) : Anchor → Bool
  | .start => c.before.isEmpty
  | .lineStart => c.before.isEmpty || c.before.head? == some ('\n' : CodePoint)
  | .finish => c.after.isEmpty || c.after == [('\n' : CodePoint)]
  | .lineEnd => c.after.isEmpty || c.after.head? == some ('\n' : CodePoint)
  | .veryEnd => c.after.isEmpty
  | .wordBoundary => c.wordBefore != c.wordAfter
  | .notWordBoundary => c.wordBefore == c.wordAfter && !c.ofEmptyText

namespace Pattern

/-- What remains to be matched from a place on, and where that ends. -/
abbrev Continuation := Cursor → Option Cursor

/-- Offers the places where a match that begins at a given place can end. -/
abbrev Offer := Cursor → Continuation → Option Cursor

/-- Exactly `n` iterations, of which any may consume nothing. -/
def exactly (body : Offer) : Nat → Offer
  | 0, c, k => k c
  | n + 1, c, k => body c fun d => exactly body n d k

/-- At most one iteration for each code point of the allowance, more first.  An iteration that
consumes nothing is the last one. -/
def upTo (body : Offer) : (allowance : Text) → Offer
  | [], c, k => k c
  | _ :: allowance, c, k =>
      match body c fun d => if c.offset < d.offset then upTo body allowance d k else k d with
      | some e => some e
      | none => k c

/-- At most one iteration for each code point of the allowance, fewer first.  An iteration that
consumes nothing is of no use, since the same place has already been offered. -/
def fromNone (body : Offer) : (allowance : Text) → Offer
  | [], c, k => k c
  | _ :: allowance, c, k =>
      match k c with
      | some e => some e
      | none =>
          body c fun d => if c.offset < d.offset then fromNone body allowance d k else none

/-- A code point for each iteration beyond the least number that is worth trying at a place.  No
more are than there are code points left, so these are taken without being counted. -/
def spare (least : Nat) (most : Option Nat) (c : Cursor) : Text :=
  match most with
  | some most => c.after.take (most - least)
  | none => c.after

def iterations (body : Offer) (least : Nat) (most : Option Nat) : Greed → Offer
  | .greedy, c, k =>
      exactly body least c fun d => upTo body (spare least most d) d k
  | .frugal, c, k =>
      exactly body least c fun d => fromNone body (spare least most d) d k
  | .possessive, c, k =>
      match exactly body least c fun d => upTo body (spare least most d) d some with
      | some d => k d
      | none => none

/-- Offers the places where the pattern can end, the preferred ones first. -/
def offer : Pattern → Offer
  | .empty, c, k => k c
  | .set s, c, k =>
      match c.advance? s with
      | some d => k d
      | none => none
  | .seq p q, c, k => offer p c fun d => offer q d k
  | .alt p q, c, k =>
      match offer p c k with
      | some e => some e
      | none => offer q c k
  | .iterate p least most greed, c, k => iterations (offer p) least most greed c k
  | .anchor a, c, k => if a.holds c then k c else none
  | .ahead positive p, c, k =>
      if (offer p c some).isSome == positive then k c else none
  | .behind positive width p, c, k =>
      if ((c.back? width).any fun d => (offer p d some).isSome) == positive then k c else none

def matchStart? (p : Pattern) (t : Text) : Option (Text × Text) :=
  (offer p (Cursor.start t) some).map fun c => (c.before.reverse, c.after)

end Pattern

end Descent
