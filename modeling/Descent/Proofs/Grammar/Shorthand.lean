import Descent.Proofs.Grammar.SameGrammar

/-!
# Shorthands and what they stand for

A text may stand for its literal, a pattern for the grammar of the pattern, and a text in place of a
list for the literals of its code points.  To spell out such shorthands, in any number of places and
at any depth, makes no difference: the same faults are raised when everything is built, and what is
built does the same.  For every constructor it is enough that parts with the same grammar come out
where its own parts are built.
-/

namespace Descent.Blueprint

/-! ### Spelling out -/

/-- The literals of the code points of a text. -/
def literals (t : Text) : List Blueprint := t.map fun c => part (.grammar (.literal [c]))

mutual

/-- The second blueprint is the first one with some shorthands spelled out.  Both may mention
definitions, which may be different for the two. -/
inductive SpellsOut (defs defs' : Definitions) : Blueprint → Blueprint → Prop
  | part (p : Part) : SpellsOut defs defs' (part p) (part p)
  | built (name : Name) : SpellsOut defs defs' (built name) (built name)
  | pattern (source : Text) (options : PatternOptions) :
      SpellsOut defs defs' (pattern source options) (pattern source options)
  | regularExpression (source : Text) (options : PatternOptions) :
      SpellsOut defs defs' (regularExpression source options) (regularExpression source options)
  | regularExpressionOf (source : Text) (options : PatternOptions) :
      SpellsOut defs defs' (regularExpressionOf source options)
        (regularExpressionOf source options)
  | charClass (characters repetition : Text) :
      SpellsOut defs defs' (charClass characters repetition) (charClass characters repetition)
  | keyword (word : Text) : SpellsOut defs defs' (keyword word) (keyword word)
  | identifierExcept (words : List Text) :
      SpellsOut defs defs' (identifierExcept words) (identifierExcept words)
  /-- A text becomes its literal. -/
  | literal (t : Text) : SpellsOut defs defs' (part (.text t)) (part (.grammar (.literal t)))
  /-- A pattern becomes its grammar, whether it has been read or not. -/
  | ofPattern (p : Pattern) :
      SpellsOut defs defs' (part (.pattern p)) (part (.grammar (.pattern p)))
  | ofSource (source : Text) (options : PatternOptions) :
      SpellsOut defs defs' (pattern source options) (regularExpression source options)
  | ofReadPattern (source : Text) :
      SpellsOut defs defs' (pattern source {}) (regularExpressionOf source {})
  /-- What is suitable becomes the grammar it stands for. -/
  | toParser {b c : Blueprint} (hb : SpellsOut defs defs' b c)
      (hvalid : ∀ p, b.build defs = .ok p → ∃ g, p.toGrammar = .ok g) :
      SpellsOut defs defs' b (grammar c)
  /-- What is spelled out may have been built before, to be used by a function of an output. -/
  | use {b c : Blueprint} {p q : Part} (hb : SpellsOut defs defs' b c)
      (hp : b.build defs = .ok p) (hq : c.build defs' = .ok q) :
      SpellsOut defs defs' (part p) (part q)
  /-- What stands behind a delay is found when the grammar is applied. -/
  | delayed {x y : Except Fault Part} (h : SpellsOutFound defs defs' x y) :
      SpellsOut defs defs' (part (.grammar (Part.found x))) (part (.grammar (Part.found y)))
  | grammar {b c : Blueprint} (hb : SpellsOut defs defs' b c) :
      SpellsOut defs defs' (grammar b) (grammar c)
  | as {b c : Blueprint} (hb : SpellsOut defs defs' b c) (v : Value) :
      SpellsOut defs defs' (as b v) (as c v)
  | map {b c : Blueprint} (hb : SpellsOut defs defs' b c) (f : Value → Except Fault Value) :
      SpellsOut defs defs' (map b f) (map c f)
  | transform {b c : Blueprint} (hb : SpellsOut defs defs' b c) (f : Value → Except Fault Value) :
      SpellsOut defs defs' (transform b f) (transform c f)
  | reparse {b c inner inner' : Blueprint} (hb : SpellsOut defs defs' b c)
      (hinner : SpellsOut defs defs' inner inner') :
      SpellsOut defs defs' (reparse b inner) (reparse c inner')
  | flatMap {b c : Blueprint} {uses uses' : List Blueprint}
      {f f' : List Part → Value → Except Fault Part} (hb : SpellsOut defs defs' b c)
      (huses : SpellsOutAll defs defs' uses uses')
      (hf : ∀ ps qs, buildAll defs uses = .ok ps → buildAll defs' uses' = .ok qs →
        ∀ v, SpellsOutFound defs defs' (f ps v) (f' qs v)) :
      SpellsOut defs defs' (flatMap b uses f) (flatMap c uses' f')
  | oneOf {bs cs : List Blueprint} (hbs : SpellsOutAll defs defs' bs cs) :
      SpellsOut defs defs' (oneOf bs) (oneOf cs)
  | sequence {bs cs : List Blueprint} (hbs : SpellsOutAll defs defs' bs cs) :
      SpellsOut defs defs' (sequence bs) (sequence cs)
  | many {b c : Blueprint} (hb : SpellsOut defs defs' b c) : SpellsOut defs defs' (many b) (many c)
  | oneOrMore {b c : Blueprint} (hb : SpellsOut defs defs' b c) :
      SpellsOut defs defs' (oneOrMore b) (oneOrMore c)
  | optional {b c : Blueprint} (hb : SpellsOut defs defs' b c) :
      SpellsOut defs defs' (optional b) (optional c)
  | butNot {b c excluded excluded' : Blueprint} (hb : SpellsOut defs defs' b c)
      (hexcluded : SpellsOut defs defs' excluded excluded') (name : Text) :
      SpellsOut defs defs' (butNot b excluded name) (butNot c excluded' name)
  | lookaheadNot {b c follower follower' : Blueprint} (hb : SpellsOut defs defs' b c)
      (hfollower : SpellsOut defs defs' follower follower') (name : Text) :
      SpellsOut defs defs' (lookaheadNot b follower name) (lookaheadNot c follower' name)
  | expect {b c : Blueprint} (hb : SpellsOut defs defs' b c) (description : Text) :
      SpellsOut defs defs' (expect b description) (expect c description)
  | token {b c : Blueprint} (hb : SpellsOut defs defs' b c) :
      SpellsOut defs defs' (token b) (token c)

/-- The same for lists, one after the other.  A text in place of a list becomes the list of its
literals. -/
inductive SpellsOutAll (defs defs' : Definitions) : List Blueprint → List Blueprint → Prop
  | characters (t : Text) : SpellsOutAll defs defs' (characters t) (literals t)
  | nil : SpellsOutAll defs defs' [] []
  | cons {b c : Blueprint} {bs cs : List Blueprint} (hb : SpellsOut defs defs' b c)
      (hbs : SpellsOutAll defs defs' bs cs) : SpellsOutAll defs defs' (b :: bs) (c :: cs)

/-- The same for what is found when a grammar is applied: it stays as it is, or it is built by
blueprints of which one spells out the other. -/
inductive SpellsOutFound (defs defs' : Definitions) :
    Except Fault Part → Except Fault Part → Prop
  | same (x : Except Fault Part) : SpellsOutFound defs defs' x x
  | built {b c : Blueprint} (hb : SpellsOut defs defs' b c) :
      SpellsOutFound defs defs' (b.build defs) (c.build defs')

end

mutual

/-- Everything may stay as it is. -/
theorem SpellsOut.refl (defs : Definitions) : ∀ b : Blueprint, SpellsOut defs defs b b
  | .part p => .part p
  | .built name => .built name
  | .pattern source options => .pattern source options
  | .regularExpression source options => .regularExpression source options
  | .regularExpressionOf source options => .regularExpressionOf source options
  | .charClass characters repetition => .charClass characters repetition
  | .keyword word => .keyword word
  | .identifierExcept words => .identifierExcept words
  | .grammar b => .grammar (.refl defs b)
  | .as b v => .as (.refl defs b) v
  | .map b f => .map (.refl defs b) f
  | .transform b f => .transform (.refl defs b) f
  | .reparse b inner => .reparse (.refl defs b) (.refl defs inner)
  | .flatMap b uses f => .flatMap (.refl defs b) (.refl defs uses) fun ps qs hps hqs v => by
      obtain rfl : ps = qs := Except.ok.inj (hps.symm.trans hqs)
      exact .same (f ps v)
  | .oneOf bs => .oneOf (.refl defs bs)
  | .sequence bs => .sequence (.refl defs bs)
  | .many b => .many (.refl defs b)
  | .oneOrMore b => .oneOrMore (.refl defs b)
  | .optional b => .optional (.refl defs b)
  | .butNot b excluded name => .butNot (.refl defs b) (.refl defs excluded) name
  | .lookaheadNot b follower name => .lookaheadNot (.refl defs b) (.refl defs follower) name
  | .expect b description => .expect (.refl defs b) description
  | .token b => .token (.refl defs b)

theorem SpellsOutAll.refl (defs : Definitions) :
    ∀ bs : List Blueprint, SpellsOutAll defs defs bs bs
  | [] => .nil
  | b :: bs => .cons (.refl defs b) (.refl defs bs)

end

/-! ### What spelling out builds -/

variable {defs defs' : Definitions} {b c : Blueprint} {bs cs : List Blueprint}

theorem alike_ofSource (source : Text) (options : PatternOptions) :
    Alike Part.SameGrammar ((pattern source options).build defs)
      ((regularExpression source options).build defs') := by
  simp only [build]
  cases Pattern.read options source with
  | error fault => exact .refused fault
  | ok p => exact .built rfl

theorem alike_ofReadPattern (source : Text) :
    Alike Part.SameGrammar ((pattern source {}).build defs)
      ((regularExpressionOf source {}).build defs') := by
  simp only [build]
  cases Pattern.read {} source with
  | error fault => exact .refused fault
  | ok p => exact .built rfl

theorem alike_characters (t : Text) :
    Alike (List.Forall₂ Part.SameGrammar) (buildAll defs (characters t))
      (buildAll defs' (literals t)) := by
  induction t with
  | nil => exact .built .nil
  | cons c t ih =>
      apply ih.bind
      intro ps qs hpsqs
      exact .built (.cons rfl hpsqs)

-- By induction on how it is spelled out.  For most constructors it suffices to say what becomes of
-- the grammars of their parts.
mutual

theorem SpellsOut.alike (hdefs : defs.SameGrammars defs') :
    ∀ {b c : Blueprint}, SpellsOut defs defs' b c →
      Alike Part.SameGrammar (b.build defs) (c.build defs')
  | _, _, .part p => Part.alike_same (.ok p)
  | _, _, .built name => hdefs.find name
  | _, _, .pattern source options => Part.alike_same ((pattern source options).build defs)
  | _, _, .regularExpression source options =>
      Part.alike_same ((regularExpression source options).build defs)
  | _, _, .regularExpressionOf source options =>
      Part.alike_same ((regularExpressionOf source options).build defs)
  | _, _, .charClass characters repetition =>
      Part.alike_same ((charClass characters repetition).build defs)
  | _, _, .keyword word => Part.alike_same ((keyword word).build defs)
  | _, _, .identifierExcept words => Part.alike_same ((identifierExcept words).build defs)
  | _, _, .literal _ => .built rfl
  | _, _, .ofPattern _ => .built rfl
  | _, _, .ofSource source options => alike_ofSource source options
  | _, _, .ofReadPattern source => alike_ofReadPattern source
  | _, _, .toParser hb hvalid => Part.alike_toGrammar (hb.alike hdefs) hvalid
  | _, _, .use hb hp hq => by
      have hbuilt := hb.alike hdefs
      rw [hp, hq] at hbuilt
      exact hbuilt
  | _, _, .delayed h => by
      simp only [build, Part.found_eq_of_alike (h.alike hdefs)]
      exact Part.alike_same _
  | _, _, .grammar hb => Part.alike_of_grammar (hb.alike hdefs) asPart
  | _, _, .as hb v => Part.alike_of_grammar (hb.alike hdefs) fun g => asPart (return (← g).as v)
  | _, _, .map hb f => Part.alike_of_grammar (hb.alike hdefs) fun g => asPart (return (← g).map f)
  | _, _, .transform hb f =>
      Part.alike_of_grammar (hb.alike hdefs) fun g => asPart (return (← g).transform f)
  | _, _, .reparse hb hinner => Part.alike_reparse (hb.alike hdefs) (hinner.alike hdefs)
  | _, _, .flatMap hb huses hf =>
      Part.alike_flatMap (hb.alike hdefs) (huses.alike hdefs)
        fun ps qs hps hqs v => (hf ps qs hps hqs v).alike hdefs
  | _, _, .oneOf hbs =>
      Part.alike_of_atLeastTwo (hbs.alike hdefs) fun gs => asPart (return .oneOf (← gs))
  | _, _, .sequence hbs =>
      Part.alike_of_atLeastTwo (hbs.alike hdefs) fun gs => asPart (return .sequence (← gs))
  | _, _, .many hb => Part.alike_of_grammar (hb.alike hdefs) fun g => asPart (return (← g).many)
  | _, _, .oneOrMore hb =>
      Part.alike_of_grammar (hb.alike hdefs) fun g => asPart (return (← g).oneOrMore)
  | _, _, .optional hb =>
      Part.alike_of_grammar (hb.alike hdefs) fun g => asPart (return (← g).optional)
  | _, _, .butNot hb hexcluded name =>
      Part.alike_of_grammars (hb.alike hdefs) (hexcluded.alike hdefs) fun g e =>
        asPart (return (← g).butNot (← e) name)
  | _, _, .lookaheadNot hb hfollower name =>
      Part.alike_of_grammars (hb.alike hdefs) (hfollower.alike hdefs) fun g e =>
        asPart (return (← g).lookaheadNot (← e) name)
  | _, _, .expect hb description =>
      Part.alike_of_grammar (hb.alike hdefs) fun g => asPart (return (← g).expect description)
  | _, _, .token hb => Part.alike_of_grammar (hb.alike hdefs) fun g => asPart (return (← g).token)

theorem SpellsOutAll.alike (hdefs : defs.SameGrammars defs') :
    ∀ {bs cs : List Blueprint}, SpellsOutAll defs defs' bs cs →
      Alike (List.Forall₂ Part.SameGrammar) (buildAll defs bs) (buildAll defs' cs)
  | _, _, .characters t => alike_characters t
  | _, _, .nil => .built .nil
  | _, _, .cons hb hbs => Part.alike_cons (hb.alike hdefs) (hbs.alike hdefs)

theorem SpellsOutFound.alike (hdefs : defs.SameGrammars defs') :
    ∀ {x y : Except Fault Part}, SpellsOutFound defs defs' x y → Alike Part.SameGrammar x y
  | _, _, .same x => Part.alike_same x
  | _, _, .built hb => hb.alike hdefs

end

/-! ### Whole workspaces -/

/-- Definitions and a start behind them, with some shorthands spelled out in any of them.  Each is
compared under what has been built before it. -/
inductive SpellsOutWorkspace (start start' : Blueprint) :
    Definitions → Definitions → List (Name × Blueprint) → List (Name × Blueprint) → Prop
  | start {defs defs' : Definitions} (h : SpellsOut defs defs' start start') :
      SpellsOutWorkspace start start' defs defs' [] []
  | define {defs defs' : Definitions} {b c : Blueprint} {rest rest' : List (Name × Blueprint)}
      (name : Name) (hb : SpellsOut defs defs' b c)
      (hrest : ∀ p q, b.build defs = .ok p → c.build defs' = .ok q →
        SpellsOutWorkspace start start' (defs ++ [(name, p)]) (defs' ++ [(name, q)]) rest rest') :
      SpellsOutWorkspace start start' defs defs' ((name, b) :: rest) ((name, c) :: rest')

variable {start start' : Blueprint} {blueprints blueprints' : List (Name × Blueprint)}

/-- By induction on the definitions, which stay alike when one more is built. -/
theorem SpellsOutWorkspace.alike
    (h : SpellsOutWorkspace start start' defs defs' blueprints blueprints')
    (hdefs : defs.SameGrammars defs') :
    Alike Workspace.SameGrammars (do
      let definitions ← buildDefinitions defs blueprints
      let start ← build definitions start
      return { definitions, start }) (do
      let definitions ← buildDefinitions defs' blueprints'
      let start ← build definitions start'
      return { definitions, start }) := by
  induction h with
  | start hstart =>
      apply (hstart.alike hdefs).bind
      intro p q hpq
      exact .built ⟨hdefs, hpq⟩
  | define name hb _ ih =>
      simp only [buildDefinitions, bind_assoc]
      apply (hb.alike hdefs).bind_of_eq
      intro p q hp hq hpq
      exact ih p q hp hq (hdefs.append hpq name)

/-- To spell out shorthands, wherever they stand, changes neither the fault that is raised when
everything is built nor what becomes of any text, be it applied to, parsed as a whole, or parsed with
an error in place of a failure. -/
theorem spelling_out_changes_nothing
    (h : SpellsOutWorkspace start start' [] [] blueprints blueprints') :
    (∃ fault, workspace blueprints start = .error fault ∧
      workspace blueprints' start' = .error fault) ∨
    ∃ w w', workspace blueprints start = .ok w ∧ workspace blueprints' start' = .ok w' ∧
      w.start.toGrammar = w'.start.toGrammar ∧
      ∀ limit src,
        (Part.found (.ok w.start)).apply w.definitions limit src =
          (Part.found (.ok w'.start)).apply w'.definitions limit src ∧
        w.start.parse w.definitions limit src = w'.start.parse w'.definitions limit src ∧
        w.start.parseOrError w.definitions limit src =
          w'.start.parseOrError w'.definitions limit src := by
  have halike : Alike Workspace.SameGrammars (workspace blueprints start)
      (workspace blueprints' start') :=
    h.alike .nil
  generalize workspace blueprints start = first at halike ⊢
  generalize workspace blueprints' start' = second at halike ⊢
  cases halike with
  | refused fault => exact .inl ⟨fault, rfl, rfl⟩
  | @built w w' hw =>
      refine .inr ⟨w, w', rfl, rfl, hw.start, fun limit src => ?_⟩
      exact ⟨congrFun (hw.apply_eq limit) src, hw.parse_eq limit src, hw.parseOrError_eq limit src⟩

/-- A part that is suitable becomes the grammar it stands for. -/
def spelledOut (p : Part) : Part :=
  match p.toGrammar with
  | .ok g => .grammar g
  | .error _ => p

theorem spellsOut_spelledOut (p : Part) :
    SpellsOut defs defs' (part p) (part (spelledOut p)) := by
  cases p with
  | grammar g => exact .part (.grammar g)
  | pattern p => exact .ofPattern p
  | value v =>
      cases v with
      | text t => exact .literal t
      | _ => exact .part (.value _)

/-- A given part, and behind it once more what was read in front of it. -/
def echo (ps : List Part) (v : Value) : Except Fault Part :=
  asPart (Part.sequence (ps ++ [.value v]))

def spelledOutEcho (ps : List Part) (v : Value) : Except Fault Part :=
  asPart (Part.sequence (ps ++ [spelledOut (.value v)]))

theorem exists_of_buildAll_singleton {ps : List Part} (h : buildAll defs [b] = .ok ps) :
    ∃ p, b.build defs = .ok p ∧ ps = [p] := by
  cases hb : b.build defs with
  | error fault =>
      simp only [buildAll, hb] at h
      cases h
  | ok p =>
      simp only [buildAll, hb] at h
      cases h
      exact ⟨p, rfl, rfl⟩

theorem spellsOut_echo {x y : Blueprint} (h : SpellsOut defs defs' b c)
    (hxy : SpellsOut defs defs' x y) :
    SpellsOut defs defs' (flatMap x [b] echo) (flatMap y [c] spelledOutEcho) := by
  apply SpellsOut.flatMap hxy (.cons h .nil)
  intro ps qs hps hqs v
  obtain ⟨p, hp, rfl⟩ := exists_of_buildAll_singleton hps
  obtain ⟨q, hq, rfl⟩ := exists_of_buildAll_singleton hqs
  exact .built (.sequence (.cons (.use h hp hq) (.cons (spellsOut_spelledOut (.value v)) .nil)))

def echoes : List (Name × Blueprint) :=
  [ ("stop", token (part (.text "."))),
    ("letter", oneOf (characters "ab")),
    ("mark", part (.text "!")) ]

def spelledOutEchoes : List (Name × Blueprint) :=
  [ ("stop", token (part (.text "."))),
    ("letter", oneOf (literals "ab")),
    ("mark", grammar (part (.text "!"))) ]

/-- Letters with a mark and the same letter behind each, and a stop at the end. -/
def echoing : Blueprint :=
  sequence [many (flatMap (built "letter") [built "mark"] echo), built "stop"]

def spelledOutEchoing : Blueprint :=
  sequence [many (flatMap (built "letter") [built "mark"] spelledOutEcho), built "stop"]

theorem spellsOutWorkspace_echoes :
    SpellsOutWorkspace echoing spelledOutEchoing [] [] echoes spelledOutEchoes := by
  have hvalid (defs : Definitions) (p : Part) (hp : (part (.text "!")).build defs = .ok p) :
      ∃ g, p.toGrammar = .ok g := by
    cases hp
    exact ⟨_, rfl⟩
  -- the first definition keeps its shorthand
  apply SpellsOutWorkspace.define "stop" (.refl [] _)
  intro stop stop' _ _
  apply SpellsOutWorkspace.define "letter" (.oneOf (.characters "ab"))
  intro letter letter' _ _
  apply SpellsOutWorkspace.define "mark" (.toParser (.part (.text "!")) (hvalid _))
  intro mark mark' _ _
  refine .start (.sequence (.cons (.many ?_) (.cons (.built "stop") .nil)))
  exact spellsOut_echo (.built "mark") (.built "letter")

theorem spelling_out_changes_nothing_echoes :
    SpellsOutWorkspace echoing spelledOutEchoing [] [] echoes spelledOutEchoes ∧
      ∃ w w', workspace echoes echoing = .ok w ∧
        workspace spelledOutEchoes spelledOutEchoing = .ok w' ∧
        ∀ limit src,
          w.start.parse w.definitions limit src = w'.start.parse w'.definitions limit src := by
  refine ⟨spellsOutWorkspace_echoes, ?_⟩
  rcases spelling_out_changes_nothing spellsOutWorkspace_echoes with
    ⟨fault, hfault, -⟩ | ⟨w, w', hw, hw', -, hsame⟩
  · cases hfault
  · exact ⟨w, w', hw, hw', fun limit src => (hsame limit src).2.1⟩

end Descent.Blueprint
