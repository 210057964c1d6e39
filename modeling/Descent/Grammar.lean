import Descent.Value.Operations
import Descent.Verdict

/-!
# Grammars

A grammar is a parser written down: a tree of primitives and combinators whose meaning is the
parser that the combinators make of it.  Grammars add to parsers what needs a name.  A grammar
may refer to definitions, which are looked up when the reference is applied and not before, and
it may refer to itself.
-/

namespace Descent

abbrev Name := Text

/-- A parser written down. -/
inductive Grammar where
  | any
  | literal (t : Text)
  | nothing
  | pattern (p : Pattern)
  | raise (fault : Fault)
  /-- A parser that was made elsewhere. -/
  | custom (p : Parser)
  | reference (name : Name)
  /-- The innermost grammar around that is marked as recursive. -/
  | self
  /-- A grammar that may refer to itself. -/
  | recursive (body : Grammar)
  | as (g : Grammar) (v : Value)
  | map (g : Grammar) (f : Value → Except Fault Value)
  | transform (g : Grammar) (f : Value → Except Fault Value)
  /-- Parses the text that was output, and outputs what becomes of it, be it a failure. -/
  | reparse (g inner : Grammar)
  | flatMap (g : Grammar) (f : Value → Grammar)
  | oneOf (gs : List Grammar)
  | sequence (gs : List Grammar)
  | many (g : Grammar)
  | butNot (g excluded : Grammar) (name : Text)
  | lookaheadNot (g follower : Grammar) (name : Text)
  | expect (g : Grammar) (description : Text)

structure Context where
  /-- Bounds the repetitions and the depth of references. -/
  limit : Nat
  resolve : Name → Parser
  /-- What a grammar refers to as itself. -/
  self : Parser := Parser.endless

def Parser.onOutput (p : Parser) : Value → Outcome Value
  | .text t => do return (← p.parse t).toValue
  | v => .raised (.unsuitable v)

namespace Grammar

mutual

def run : Grammar → Context → Parser
  | .any, _ => Parser.any
  | .literal t, _ => Parser.literal t
  | .nothing, _ => Parser.nothing
  | .pattern p, _ => Parser.pattern p
  | .raise fault, _ => Parser.raise fault
  | .custom p, _ => p
  | .reference name, ctx => ctx.resolve name
  | .self, ctx => ctx.self
  | .recursive body, ctx => Parser.recursive (fun p => run body { ctx with self := p }) ctx.limit
  | .as g v, ctx => (run g ctx).as v
  | .map g f, ctx => (run g ctx).map fun v => .ofExcept (f v)
  | .transform g f, ctx => (run g ctx).transform fun v => .ofExcept (f v)
  | .reparse g inner, ctx => (run g ctx).map (run inner ctx).onOutput
  | .flatMap g f, ctx => (run g ctx).flatMap fun v => run (f v) ctx
  | .oneOf gs, ctx => Parser.oneOf (runAll gs ctx)
  | .sequence gs, ctx => Parser.sequence (runAll gs ctx)
  | .many g, ctx => (run g ctx).many ctx.limit
  | .butNot g excluded name, ctx => (run g ctx).butNot (run excluded ctx) name
  | .lookaheadNot g follower name, ctx => (run g ctx).lookaheadNot (run follower ctx) name
  | .expect g description, ctx => (run g ctx).expect description

def runAll : List Grammar → Context → List Parser
  | [], _ => []
  | g :: gs, ctx => run g ctx :: runAll gs ctx

end

theorem runAll_eq_map (gs : List Grammar) (ctx : Context) :
    runAll gs ctx = gs.map (run · ctx) := by
  induction gs with
  | nil => rfl
  | cons g gs ih => simp [runAll, ih]

theorem run_oneOf (gs : List Grammar) (ctx : Context) :
    (oneOf gs).run ctx = Parser.oneOf (gs.map (run · ctx)) := by
  simp only [run, runAll_eq_map]

theorem run_sequence (gs : List Grammar) (ctx : Context) :
    (sequence gs).run ctx = Parser.sequence (gs.map (run · ctx)) := by
  simp only [run, runAll_eq_map]

/-! ### Derived grammars -/

/-- Repeats a grammar, which must match at least once. -/
def oneOrMore (g : Grammar) : Grammar := (sequence [g, many g]).map Value.cons

def optional (g : Grammar) : Grammar := oneOf [g, nothing]

def picking (gs : List Grammar) (index : Nat) : Grammar := (sequence gs).map (Value.pick index)

end Grammar

end Descent
