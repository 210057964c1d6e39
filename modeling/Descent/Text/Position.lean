import Descent.Text

/-!
# Positions in a text

A position is described to a reader by its line, its column and an excerpt of the line with a
caret under the column.  Lines end at `\n` only.  A position past the end is moved back to the
end.  A negative position selects the text that a slice with that end selects, that is, it
counts from the end of the text, while the column is still measured from the position as given.
-/

namespace Descent

/-- A position of a text in terms of lines and columns, both counted from one. -/
structure Location where
  position : Int
  line : Nat
  column : Int
deriving DecidableEq

namespace Location

/-- The part of a text in front of a position.  A negative position counts from the end. -/
def before (source : Text) (position : Int) : Text :=
  if position < 0 then source.take (position + source.length).toNat
  else source.take position.toNat

def lastLine (t : Text) : Text :=
  (t.reverse.takeWhile (· ≠ ('\n' : CodePoint))).reverse

/-- The index of the last line break of a text, and `-1` if it has none. -/
def lastBreak (t : Text) : Int :=
  t.length - 1 - (lastLine t).length

def locate (source : Text) (position : Int) : Location :=
  let position := min position source.length
  let front := before source position
  { position
    line := front.count ('\n' : CodePoint) + 1
    column := position - lastBreak front }

/-- How many characters an excerpt shows in front of the column, at most. -/
def excerptLead : Nat := 20

/-- How many characters an excerpt shows, at most. -/
def excerptWidth : Nat := 40

/-- Where the excerpt of the line begins. -/
def excerptStart (l : Location) : Nat := (l.column - 1 - excerptLead).toNat

/-- The shown piece of the line, and the caret under the column.  There is none if the column is
past the line. -/
def excerpt? (source : Text) (l : Location) : Option (Text × Text) :=
  match (List.splitOn ('\n' : CodePoint) source)[l.line - 1]? with
  | none => none
  | some line =>
      if l.column - 1 ≤ line.length then
        some
          ((line.drop l.excerptStart).take excerptWidth,
            List.replicate (l.column - 1 - l.excerptStart).toNat (' ' : CodePoint) ++
              [('^' : CodePoint)])
      else none

end Location

def describePosition (source : Text) (position : Int) : Text :=
  let l := Location.locate source position
  let headline : Text :=
    "At position " ++ Text.ofInt l.position ++ " (line " ++ Text.ofNat l.line ++
      ", column " ++ Text.ofInt l.column ++ ")"
  match l.excerpt? source with
  | none => headline
  | some (piece, caret) => List.intercalate "\n" [headline, piece, caret]

end Descent
