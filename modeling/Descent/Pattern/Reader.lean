import Descent.Fault
import Descent.Pattern.Escape

/-!
# Reading a written pattern

Reading goes through two kinds of intermediate data.  Marks are code points that know whether a
backslash stands in front of them, so that everything after them need not care.  Symbols are
the parts that the syntax of patterns is made of: sets of code points, anchors, bars, brackets
and repetitions.  Symbols are then put together in one pass, with a stack of the groups that
are still open.

A brace that does not begin a well-formed repetition stands for itself, and so does a closing
bracket outside a class.

Only a part of the syntax of patterns is read, and the rest is refused like what is malformed:

* A backslash in front of a letter stands for a control character, a set or an anchor.  There are no
  escapes for a code point by its number, in base eight or sixteen, or by its name, and there are no
  references back to a group, so a backslash in front of a digit is malformed.
* A group either has no mark, or it is marked as plain or as one of the four kinds of lookaround.
  There are no names, options, conditions or comments in a group, and no atomic groups.
* The sets that a backslash stands for and the option to ignore case know the characters of ASCII
  only, as described for patterns.
-/

namespace Descent

structure PatternOptions where
  ignoreCase : Bool := false
  /-- `^` and `$` apply to every line. -/
  multiline : Bool := false
  /-- The dot matches line breaks too. -/
  dotAll : Bool := false
deriving DecidableEq

namespace Pattern

/-- A code point of a written pattern. -/
inductive Mark where
  | plain (c : CodePoint)
  /-- With a backslash in front. -/
  | escaped (c : CodePoint)
deriving DecidableEq

/-- The marks of a written pattern, unless it ends in a lone backslash. -/
def marks? : Text → Option (List Mark)
  | [] => some []
  | [c] => if c = '\\' then none else some [.plain c]
  | c :: d :: rest =>
      if c = '\\' then (marks? rest).map (.escaped d :: ·)
      else (marks? (d :: rest)).map (.plain c :: ·)

def controlEscape? (c : CodePoint) : Option CodePoint :=
  if c = 'a' then some '\x07'
  else if c = 'f' then some '\x0c'
  else if c = 'n' then some '\n'
  else if c = 'r' then some '\r'
  else if c = 't' then some '\t'
  else if c = 'v' then some '\x0b'
  else none

def classEscape? (c : CodePoint) : Option CharSet :=
  if c = 'd' then some CharSet.digits
  else if c = 'D' then some (CharSet.compl CharSet.digits)
  else if c = 's' then some CharSet.blanks
  else if c = 'S' then some (CharSet.compl CharSet.blanks)
  else if c = 'w' then some CharSet.wordCharacters
  else if c = 'W' then some (CharSet.compl CharSet.wordCharacters)
  else none

def anchorEscape? (c : CodePoint) : Option Anchor :=
  if c = 'A' then some .start
  else if c = 'Z' then some .veryEnd
  else if c = 'b' then some .wordBoundary
  else if c = 'B' then some .notWordBoundary
  else none

/-- Letters and digits, which need a meaning when they have a backslash in front. -/
def needsMeaning : CharSet := CharSet.union CharSet.letters CharSet.digits

/-! ### Classes -/

/-- One member of a class: a code point, which may bound a range, or a set. -/
inductive Member where
  | one (c : CodePoint)
  | many (s : CharSet)

def Member.toCharSet : Member → CharSet
  | .one c => CharSet.one c
  | .many s => s

def member? : Mark → Option Member
  | .plain c => some (.one c)
  | .escaped c =>
      match classEscape? c, controlEscape? c with
      | some s, _ => some (.many s)
      | none, some d => some (.one d)
      | none, none =>
          if c = 'b' then some (.one '\x08')
          else if needsMeaning c then none
          else some (.one c)

/-- The range between two members, which must be code points in ascending order. -/
def range? : Member → Member → Option CharSet
  | .one lo, .one hi => if lo.toNat ≤ hi.toNat then some (CharSet.range lo hi) else none
  | _, _ => none

/-- Reads the members of a class and the bracket that closes it.  `s` holds the members so far, and
`first` says that there are none, in which case a closing bracket is a member. -/
def members? (first : Bool) (s : CharSet) : List Mark → Option (CharSet × List Mark)
  | [] => none
  | [m] => if m = .plain ']' ∧ first = false then some (s, []) else none
  | m :: n :: rest =>
      if m = .plain ']' ∧ first = false then some (s, n :: rest)
      else
        match member? m with
        | none => none
        | some lo =>
            if n = .plain '-' then
              match rest with
              | [] => none
              | o :: rest =>
                  if o = .plain ']' then
                    some ((s.union lo.toCharSet).union (CharSet.one '-'), rest)
                  else
                    match (member? o).bind (range? lo) with
                    | none => none
                    | some r => members? false (s.union r) rest
            else members? false (s.union lo.toCharSet) (n :: rest)

def respectingCase (options : PatternOptions) (s : CharSet) : CharSet :=
  if options.ignoreCase then s.ignoringCase else s

def class? (options : PatternOptions) (ms : List Mark) : Option (CharSet × List Mark) :=
  match ms with
  | [] => none
  | m :: rest =>
      if m = .plain '^' then
        (members? true (fun _ => false) rest).map fun (s, rest) =>
          ((respectingCase options s).compl, rest)
      else
        (members? true (fun _ => false) ms).map fun (s, rest) =>
          (respectingCase options s, rest)

/-! ### Repetitions -/

structure Bounds where
  least : Nat
  most : Option Nat
deriving DecidableEq

def digitRun : List Mark → Text × List Mark
  | .plain c :: rest =>
      if CharSet.digits c then
        let (digits, rest) := digitRun rest
        (c :: digits, rest)
      else ([], .plain c :: rest)
  | ms => ([], ms)

def plain? (c : CodePoint) : List Mark → Option (List Mark)
  | m :: rest => if m = .plain c then some rest else none
  | [] => none

/-- Reads the bounds between braces, after the opening one.  A bound that is left out is no bound,
but a comma may be left out only after a digit. -/
def bounds? (ms : List Mark) : Option (Bounds × List Mark) :=
  let (low, afterLow) := digitRun ms
  let least := (Numeral.read? 10 low).getD 0
  match plain? ',' afterLow with
  | some afterComma =>
      let (high, afterHigh) := digitRun afterComma
      (plain? '}' afterHigh).map fun rest => (⟨least, Numeral.read? 10 high⟩, rest)
  | none =>
      if low.isEmpty then none
      else (plain? '}' afterLow).map fun rest => (⟨least, some least⟩, rest)

def repetition? : List Mark → Option (Bounds × List Mark)
  | .plain c :: rest =>
      if c = '*' then some (⟨0, none⟩, rest)
      else if c = '+' then some (⟨1, none⟩, rest)
      else if c = '?' then some (⟨0, some 1⟩, rest)
      else if c = '{' then bounds? rest
      else none
  | _ => none

def greed (ms : List Mark) : Greed × List Mark :=
  match plain? '?' ms, plain? '+' ms with
  | some rest, _ => (.frugal, rest)
  | none, some rest => (.possessive, rest)
  | none, none => (.greedy, ms)

/-! ### Symbols -/

inductive Group where
  | plain
  | ahead (positive : Bool)
  | behind (positive : Bool)
deriving DecidableEq

inductive Symbol where
  | set (s : CharSet)
  | anchor (a : Anchor)
  | bar
  | opening (g : Group)
  | closing
  | repetition (bounds : Bounds) (greed : Greed)

def group? (ms : List Mark) : Option (Group × List Mark) :=
  match plain? '?' ms with
  | none => some (.plain, ms)
  | some rest =>
      match plain? ':' rest, plain? '=' rest, plain? '!' rest, plain? '<' rest with
      | some rest, _, _, _ => some (.plain, rest)
      | _, some rest, _, _ => some (.ahead true, rest)
      | _, _, some rest, _ => some (.ahead false, rest)
      | _, _, _, some rest =>
          match plain? '=' rest, plain? '!' rest with
          | some rest, _ => some (.behind true, rest)
          | _, some rest => some (.behind false, rest)
          | none, none => none
      | none, none, none, none => none

def escapedSymbol? (options : PatternOptions) (c : CodePoint) : Option Symbol :=
  match anchorEscape? c, classEscape? c, controlEscape? c with
  | some a, _, _ => some (.anchor a)
  | none, some s, _ => some (.set s)
  | none, none, some d => some (.set (CharSet.one d))
  | none, none, none =>
      if needsMeaning c then none
      else some (.set (respectingCase options (CharSet.one c)))

/-- What a plain code point without a further part stands for outside a class. -/
def plainSymbol (options : PatternOptions) (c : CodePoint) : Symbol :=
  if c = '.' then
    .set (if options.dotAll then fun _ => true else (CharSet.one '\n').compl)
  else if c = '^' then .anchor (if options.multiline then .lineStart else .start)
  else if c = '$' then .anchor (if options.multiline then .lineEnd else .finish)
  else if c = '|' then .bar
  else if c = ')' then .closing
  else .set (respectingCase options (CharSet.one c))

def symbol? (options : PatternOptions) : List Mark → Option (Symbol × List Mark)
  | [] => none
  | .escaped c :: rest => (escapedSymbol? options c).map (·, rest)
  | .plain c :: rest =>
      match repetition? (.plain c :: rest) with
      | some (bounds, rest) =>
          let (greed, rest) := greed rest
          some (.repetition bounds greed, rest)
      | none =>
          if c = '[' then (class? options rest).map fun (s, rest) => (.set s, rest)
          else if c = '(' then (group? rest).map fun (g, rest) => (.opening g, rest)
          else some (plainSymbol options c, rest)

/-- Reads at most `fuel` symbols, which must be all. -/
def symbolsWithin? (options : PatternOptions) : (fuel : Nat) → List Mark → Option (List Symbol)
  | _, [] => some []
  | 0, _ :: _ => none
  | fuel + 1, ms =>
      match symbol? options ms with
      | none => none
      | some (symbol, rest) => (symbolsWithin? options fuel rest).map (symbol :: ·)

/-- The symbols of a written pattern.  Each takes at least one mark. -/
def symbols? (options : PatternOptions) (ms : List Mark) : Option (List Symbol) :=
  symbolsWithin? options ms.length ms

/-! ### Putting symbols together -/

structure Piece where
  pattern : Pattern
  /-- Whether a repetition may follow. -/
  repeatable : Bool

structure OpenGroup where
  group : Group
  /-- The finished alternatives, the last one first. -/
  alternatives : List Pattern
  /-- The parts of the current alternative, the last one first. -/
  parts : List Piece

namespace OpenGroup

def new (g : Group) : OpenGroup := ⟨g, [], []⟩

def push (g : OpenGroup) (part : Piece) : OpenGroup := { g with parts := part :: g.parts }

def endAlternative (g : OpenGroup) : OpenGroup :=
  { g with
    alternatives := seqAll (g.parts.reverse.map Piece.pattern) :: g.alternatives
    parts := [] }

def content (g : OpenGroup) : Pattern := altAll g.endAlternative.alternatives.reverse

/-- The pattern of the group.  What is looked for behind a place must have a fixed width. -/
def close? (g : OpenGroup) : Option Pattern :=
  match g.group with
  | .plain => some g.content
  | .ahead positive => some (.ahead positive g.content)
  | .behind positive => g.content.width?.map fun width => .behind positive width g.content

/-- Repeats the last part, which must be there and not be repeated already. -/
def repeatLast? (g : OpenGroup) (bounds : Bounds) (greed : Greed) : Option OpenGroup :=
  match g.parts with
  | [] => none
  | last :: parts =>
      if last.repeatable && bounds.most.all (bounds.least ≤ ·) then
        let repeated := .iterate last.pattern bounds.least bounds.most greed
        some { g with parts := ⟨repeated, false⟩ :: parts }
      else none

end OpenGroup

/-- Puts symbols together, given the innermost open group and those around it. -/
def assemble? (inner : OpenGroup) (outer : List OpenGroup) : List Symbol → Option Pattern
  | [] => if outer.isEmpty then some inner.content else none
  | .set s :: rest => assemble? (inner.push ⟨.set s, true⟩) outer rest
  | .anchor a :: rest => assemble? (inner.push ⟨.anchor a, false⟩) outer rest
  | .bar :: rest => assemble? inner.endAlternative outer rest
  | .opening g :: rest => assemble? (.new g) (inner :: outer) rest
  | .closing :: rest =>
      match inner.close?, outer with
      | some p, enclosing :: outer => assemble? (enclosing.push ⟨p, true⟩) outer rest
      | _, _ => none
  | .repetition bounds greed :: rest =>
      match inner.repeatLast? bounds greed with
      | some inner => assemble? inner outer rest
      | none => none

def read? (options : PatternOptions) (source : Text) : Option Pattern := do
  let ms ← marks? source
  let symbols ← symbols? options ms
  assemble? (.new .plain) [] symbols

def read (options : PatternOptions) (source : Text) : Except Fault Pattern :=
  match read? options source with
  | some p => .ok p
  | none => .error .invalidPattern

end Pattern

end Descent
