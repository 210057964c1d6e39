import Descent.Proofs.Arithmetic.Harmless
import Descent.Proofs.Grammar.Suffix

/-!
# Parts that have been built

A part is built by applying constructors to parts that have been built before.  If every constructor
succeeded, and if the functions and the parsers that were given to them raise no fault, then no
application of the part raises a fault either, except for that of an overlong digit run.  Functions
of an output are only held to the outputs that their part has.
-/

namespace Descent

namespace Grammar

/-- The ready-made grammars that convert decimal digit runs. -/
def decimalReaders : List Grammar :=
  [ integerNumber, Arithmetic.number, Arithmetic.parenthesized, Arithmetic.factor, Arithmetic.term,
    Arithmetic.expression ]

end Grammar

namespace Part

/-- The part outputs the value on some text. -/
def Yields (defs : Definitions) (p : Part) (v : Value) : Prop :=
  ∃ limit, ((found (.ok p)).apply defs limit).Yields v

/-- A part that was put together without a fault, and that raises none by way of what its user
supplied.  If `decimals` holds, the part may contain grammars that convert decimal digit runs.  If
`located` holds, parsers that were made elsewhere have to leave suffixes. -/
inductive Built (defs : Definitions) (decimals located : Prop) : Part → Prop
  | text (t : Text) : Built defs decimals located (.text t)
  | pattern (p : Pattern) : Built defs decimals located (.pattern p)
  | any : Built defs decimals located (.grammar .any)
  | literal (t : Text) : Built defs decimals located (.grammar (.literal t))
  | nothing : Built defs decimals located (.grammar .nothing)
  | regularExpression (p : Pattern) : Built defs decimals located (.grammar (.pattern p))
  | custom {p : Parser} (hraise : ∀ src fault, p src ≠ .raised fault)
      (hsuffix : located → p.LeavesSuffix) : Built defs decimals located (.grammar (.custom p))
  | reference {name : Name} {part : Part} (hfind : defs.find name = .ok part) :
      Built defs decimals located (.grammar (.reference name))
  | readyMade {g : Grammar} (hg : g ∈ Grammar.readyMade)
      (hdecimals : g ∈ Grammar.decimalReaders → decimals) :
      Built defs decimals located (.grammar g)
  | grammar {p : Part} {g : Grammar} (hp : Built defs decimals located p)
      (hg : p.toGrammar = .ok g) : Built defs decimals located (.grammar g)
  | as {p : Part} {v : Value} {g : Grammar} (hp : Built defs decimals located p)
      (hg : p.as v = .ok g) : Built defs decimals located (.grammar g)
  | map {p : Part} {f : Value → Except Fault Value} {g : Grammar}
      (hp : Built defs decimals located p) (hf : ∀ v, p.Yields defs v → ∃ w, f v = .ok w)
      (hg : p.map f = .ok g) : Built defs decimals located (.grammar g)
  | transform {p : Part} {f : Value → Except Fault Value} {g : Grammar}
      (hp : Built defs decimals located p) (hf : ∀ v, p.Yields defs v → ∃ w, f v = .ok w)
      (hg : p.transform f = .ok g) : Built defs decimals located (.grammar g)
  | reparse {p inner : Part} {g : Grammar} (hp : Built defs decimals located p)
      (hinner : ∀ v, p.Yields defs v → ∀ limit fault,
        ((found (.ok inner)).apply defs limit).onOutput v ≠ .raised fault)
      (hg : p.reparse inner = .ok g) : Built defs decimals located (.grammar g)
  | flatMap {p : Part} {f : Value → Except Fault Part} {next : Value → Part} {g : Grammar}
      (hp : Built defs decimals located p) (hf : ∀ v, p.Yields defs v → f v = .ok (next v))
      (hnext : ∀ v, p.Yields defs v → Built defs decimals located (next v))
      (hg : p.flatMap f = .ok g) : Built defs decimals located (.grammar g)
  | oneOf {ps : List Part} {g : Grammar} (hps : ∀ p ∈ ps, Built defs decimals located p)
      (hg : Part.oneOf ps = .ok g) : Built defs decimals located (.grammar g)
  | sequence {ps : List Part} {g : Grammar} (hps : ∀ p ∈ ps, Built defs decimals located p)
      (hg : Part.sequence ps = .ok g) : Built defs decimals located (.grammar g)
  | many {p : Part} {g : Grammar} (hp : Built defs decimals located p) (hg : p.many = .ok g) :
      Built defs decimals located (.grammar g)
  | oneOrMore {p : Part} {g : Grammar} (hp : Built defs decimals located p)
      (hg : p.oneOrMore = .ok g) : Built defs decimals located (.grammar g)
  | optional {p : Part} {g : Grammar} (hp : Built defs decimals located p)
      (hg : p.optional = .ok g) : Built defs decimals located (.grammar g)
  | butNot {p excluded : Part} {name : Text} {g : Grammar} (hp : Built defs decimals located p)
      (hexcluded : Built defs decimals located excluded) (hg : p.butNot excluded name = .ok g) :
      Built defs decimals located (.grammar g)
  | lookaheadNot {p follower : Part} {name : Text} {g : Grammar}
      (hp : Built defs decimals located p) (hfollower : Built defs decimals located follower)
      (hg : p.lookaheadNot follower name = .ok g) : Built defs decimals located (.grammar g)
  | expect {p : Part} {description : Text} {g : Grammar} (hp : Built defs decimals located p)
      (hg : p.expect description = .ok g) : Built defs decimals located (.grammar g)
  | token {p : Part} {g : Grammar} (hp : Built defs decimals located p) (hg : p.token = .ok g) :
      Built defs decimals located (.grammar g)
  | charClass {characters repetition : Text} {g : Grammar}
      (hg : Grammar.charClass characters repetition = .ok g) :
      Built defs decimals located (.grammar g)
  | keyword (word : Text) : Built defs decimals located (.grammar (.keyword word))
  | identifierExcept {words : List Text} {g : Grammar}
      (hg : Grammar.identifierExcept words = .ok g) : Built defs decimals located (.grammar g)

/-! ### What a constructor that succeeded was given -/

variable {p : Part} {g : Grammar}

theorem found_of_toGrammar (h : p.toGrammar = .ok g) : found (.ok p) = g := by
  simp [found, Except.bind, h]

theorem of_toGrammar_bind {α : Type} {k : Grammar → Except Fault α} {a : α}
    (h : p.toGrammar >>= k = .ok a) : k (found (.ok p)) = .ok a := by
  cases hp : p.toGrammar with
  | error fault =>
      rw [hp] at h
      cases h
  | ok g' =>
      rw [hp] at h
      rw [found_of_toGrammar hp]
      exact h

theorem eq_map_of_toGrammars {ps : List Part} {gs : List Grammar} (h : toGrammars ps = .ok gs) :
    gs = ps.map fun p => found (.ok p) := by
  induction ps generalizing gs with
  | nil =>
      obtain rfl : [] = gs := by simpa [toGrammars] using h
      rfl
  | cons p ps ih =>
      have hfirst := of_toGrammar_bind h
      cases hps : toGrammars ps with
      | error fault =>
          rw [hps] at hfirst
          cases hfirst
      | ok gs' =>
          rw [hps] at hfirst
          obtain rfl : found (.ok p) :: gs' = gs := Except.ok.inj hfirst
          rw [ih hps, List.map_cons]

theorem of_atLeastTwo_bind {ps : List Part} {k : List Grammar → Grammar}
    (h : (do return k (← atLeastTwo ps)) = Except.ok g) :
    g = k (ps.map fun p => found (.ok p)) := by
  unfold atLeastTwo at h
  split_ifs at h
  · cases h
  · cases hps : toGrammars ps with
    | error fault =>
        rw [hps] at h
        cases h
    | ok gs =>
        rw [hps] at h
        obtain rfl : k gs = g := Except.ok.inj h
        rw [eq_map_of_toGrammars hps]

end Part

/-! ### Applying built parts -/

variable {defs : Definitions} {decimals located : Prop}

/-- A context in which names stand for what they are defined as, up to a depth. -/
structure Context.Serves (defs : Definitions) (decimals located : Prop) (ctx : Context) : Prop where
  grows : ∃ limit, ctx.GrowsTo (defs.context limit)
  resolve : ∀ name part, defs.find name = .ok part →
    (ctx.resolve name).Harmless decimals located

theorem Context.Serves.yields {ctx : Context} (h : ctx.Serves defs decimals located) {p : Part}
    {v : Value} (hv : ((Part.found (.ok p)).run ctx).Yields v) : p.Yields defs v := by
  obtain ⟨limit, hgrows⟩ := h.grows
  exact ⟨limit, hv.of_growsTo (Grammar.growsTo_run _ hgrows)⟩

namespace Grammar

theorem exists_pattern_of_charClass {characters repetition : Text} {g : Grammar}
    (h : charClass characters repetition = .ok g) : ∃ pat, g = .pattern pat := by
  unfold charClass at h
  cases hread : Pattern.read {} ("[" ++ Pattern.escape characters ++ "]" ++ repetition) with
  | error fault =>
      rw [hread] at h
      cases h
  | ok pat =>
      rw [hread] at h
      exact ⟨pat, (Except.ok.inj h).symm⟩

theorem harmless_of_mem_readyMade {g : Grammar} (hg : g ∈ readyMade)
    (hdecimals : g ∈ decimalReaders → decimals) (ctx : Context) :
    (g.run ctx).Harmless decimals located := by
  have hexpression (h : decimals) : (Arithmetic.expression.run ctx).Harmless decimals located :=
    Arithmetic.harmless_expression h
  simp only [readyMade, List.mem_cons, List.not_mem_nil, or_false] at hg
  rcases hg with rfl | rfl | rfl | rfl | rfl | rfl | rfl | rfl | rfl | rfl | rfl | rfl | rfl
  · exact harmless_pattern _
  · exact harmless_pattern _
  · exact harmless_integerNumber (hdecimals (by simp [decimalReaders]))
  · exact harmless_floatNumber
  · exact harmless_unicodeEscape
  · exact harmless_escapeSequence
  · exact harmless_quotedString
  · exact harmless_pattern _
  · exact Arithmetic.harmless_number (hdecimals (by simp [decimalReaders]))
  · exact Arithmetic.harmless_parenthesizedOf (hexpression (hdecimals (by simp [decimalReaders])))
  · have hdecimals := hdecimals (by simp [decimalReaders])
    exact Arithmetic.harmless_factorOf hdecimals (hexpression hdecimals)
  · have hdecimals := hdecimals (by simp [decimalReaders])
    exact Arithmetic.harmless_level (Arithmetic.harmless_factorOf hdecimals (hexpression hdecimals)) _
  · exact hexpression (hdecimals (by simp [decimalReaders]))

end Grammar

theorem Part.Built.harmless_run {p : Part} (hp : p.Built defs decimals located) {ctx : Context}
    (hctx : ctx.Serves defs decimals located) :
    ((found (.ok p)).run ctx).Harmless decimals located := by
  induction hp with
  | text t => exact Parser.harmless_literal t
  | pattern p => exact Parser.harmless_pattern p
  | any => exact Parser.harmless_any
  | literal t => exact Parser.harmless_literal t
  | nothing => exact Parser.harmless_nothing
  | regularExpression p => exact Parser.harmless_pattern p
  | custom hraise hsuffix =>
      constructor
      · rintro hlocated src (⟨v, rest⟩ | f) h
        · exact hsuffix hlocated src v rest h
        · exact False.elim
      · exact fun src fault h => absurd h (hraise src fault)
  | reference hfind => exact hctx.resolve _ _ hfind
  | readyMade hg hdecimals => exact Grammar.harmless_of_mem_readyMade hg hdecimals ctx
  | grammar _ hg ih => rwa [found_of_toGrammar hg] at ih
  | as _ hg ih =>
      cases of_toGrammar_bind hg
      exact ih.as _
  | map _ hf hg ih =>
      cases of_toGrammar_bind hg
      exact Grammar.harmless_map ih fun v hv => hf v (hctx.yields hv)
  | transform _ hf hg ih =>
      cases of_toGrammar_bind hg
      exact Grammar.harmless_transform ih fun v hv => hf v (hctx.yields hv)
  | @reparse p inner _ _ hinner hg ih =>
      cases of_toGrammar_bind hg
      apply ih.map
      intro v hv fault hraise
      obtain ⟨limit, hgrows⟩ := hctx.grows
      have hsame := (Grammar.growsTo_run (found (.ok inner)) hgrows).onOutput v
      exact hinner v (hctx.yields hv) limit fault (hsame.eq_raised hraise)
  | flatMap _ hf _ hg ih ihnext =>
      cases of_toGrammar_bind hg
      apply ih.flatMap
      intro v hv
      have hnext := ihnext v (hctx.yields hv)
      rwa [← hf v (hctx.yields hv)] at hnext
  | oneOf _ hg ih =>
      cases of_atLeastTwo_bind hg
      apply Grammar.harmless_oneOf
      simpa using ih
  | sequence _ hg ih =>
      cases of_atLeastTwo_bind hg
      apply Grammar.harmless_sequence
      simpa using ih
  | many _ hg ih =>
      cases of_toGrammar_bind hg
      exact ih.many _
  | oneOrMore _ hg ih =>
      cases of_toGrammar_bind hg
      exact Grammar.harmless_oneOrMore ih
  | optional _ hg ih =>
      cases of_toGrammar_bind hg
      exact Grammar.harmless_optional ih
  | butNot _ _ hg ihp ihexcluded =>
      cases of_toGrammar_bind (of_toGrammar_bind hg)
      exact ihp.butNot ihexcluded _
  | lookaheadNot _ _ hg ihp ihfollower =>
      cases of_toGrammar_bind (of_toGrammar_bind hg)
      exact ihp.lookaheadNot ihfollower _
  | expect _ hg ih =>
      cases of_toGrammar_bind hg
      exact ih.expect _
  | token _ hg ih =>
      cases of_toGrammar_bind hg
      exact Grammar.harmless_token ih
  | charClass hg =>
      obtain ⟨pat, rfl⟩ := Grammar.exists_pattern_of_charClass hg
      exact Parser.harmless_pattern pat
  | keyword word => exact Grammar.harmless_keyword word
  | identifierExcept hg =>
      unfold Grammar.identifierExcept at hg
      split_ifs at hg
      cases hg
      exact (Grammar.harmless_pattern _).butNot (Grammar.harmless_reserved _) _

theorem Definitions.harmless_meaning
    (hrun : ∀ name part, defs.find name = .ok part → ∀ ctx : Context,
      ctx.Serves defs decimals located →
        ((Part.found (.ok part)).run ctx).Harmless decimals located)
    {limit depth : Nat} (hdepth : depth ≤ limit) {name : Name} {part : Part}
    (hfind : defs.find name = .ok part) :
    (defs.meaning limit depth name).Harmless decimals located := by
  induction depth generalizing name part with
  | zero =>
      have hendless : defs.meaning limit 0 name = Parser.endless := rfl
      rw [hendless]
      exact Parser.harmless_endless
  | succ depth ih =>
      have hunfold : defs.meaning limit (depth + 1) name =
          (Part.found (.ok part)).run { limit, resolve := defs.meaning limit depth } := by
        rw [← hfind]
        rfl
      rw [hunfold]
      apply hrun name part hfind
      refine ⟨⟨limit, Nat.le_refl _, ?_, .refl _⟩, fun name part => ih (Nat.le_of_lt hdepth)⟩
      exact defs.growsTo_meaning (Nat.le_refl _) (Nat.le_of_lt hdepth)

/-- If what names are defined as is harmless wherever names are, then names are. -/
theorem Definitions.serves_context
    (hrun : ∀ name part, defs.find name = .ok part → ∀ ctx : Context,
      ctx.Serves defs decimals located →
        ((Part.found (.ok part)).run ctx).Harmless decimals located) (limit : Nat) :
    (defs.context limit).Serves defs decimals located where
  grows := ⟨limit, Nat.le_refl _, fun _ => .refl _, .refl _⟩
  resolve _ _ := harmless_meaning hrun (Nat.le_refl _)

theorem Part.Built.harmless_apply
    (hdefs : ∀ name part, defs.find name = .ok part → part.Built defs decimals located) {p : Part}
    (hp : p.Built defs decimals located) (limit : Nat) :
    ((found (.ok p)).apply defs limit).Harmless decimals located :=
  hp.harmless_run <|
    Definitions.serves_context (fun name part hfind _ => (hdefs name part hfind).harmless_run) limit

namespace Part

/-- Every application of a built part that ends has a reply, except that a decimal digit run of the
text may be too long for a numeral.  This happens only to parts that contain a grammar that converts
decimal digits.  An integer is broken off exactly if too many digits stand behind its sign, and a
number of an arithmetic expression exactly if the text begins with too many digits. -/
theorem built_replies_unless_overlong
    (hdefs : ∀ name part, defs.find name = .ok part → part.Built defs decimals located) :
    (∀ p, p.Built defs decimals located → ∀ limit src,
      (found (.ok p)).apply defs limit src ≠ .exhausted →
        (∃ r, (found (.ok p)).apply defs limit src = .returned r) ∨
        decimals ∧ ∃ count,
          (found (.ok p)).apply defs limit src = .raised (.tooManyDigits count) ∧
          Numeral.decimalLimit < count ∧
          (located → ∃ rest : Text, rest <:+ src ∧ rest.leadingDigits.length = count)) ∧
    (∀ limit src fault, Grammar.integerNumber.apply defs limit src = .raised fault ↔
      Numeral.decimalLimit < src.unsigned.leadingDigits.length ∧
        fault = .tooManyDigits src.unsigned.leadingDigits.length) ∧
    ∀ limit src fault, src.length ≤ limit →
      (Arithmetic.number.apply defs limit src = .raised fault ↔
        Numeral.decimalLimit < src.leadingDigits.length ∧
          fault = .tooManyDigits src.leadingDigits.length) := by
  refine ⟨?_, fun limit src fault => Grammar.integerNumber_raises_iff,
    fun limit src fault hlimit => Arithmetic.number_raises_iff hlimit⟩
  intro p hp limit src hends
  have hharmless := hp.harmless_apply hdefs limit
  cases hreply : (found (.ok p)).apply defs limit src with
  | returned r => exact .inl ⟨r, rfl⟩
  | raised fault =>
      obtain ⟨hdecimals, count, rfl, hcount, hrun⟩ := hharmless.overlong src fault hreply
      exact .inr ⟨hdecimals, count, rfl, hcount, hrun⟩
  | exhausted => exact absurd hreply hends

theorem built_nestedLists {part : Part} (hpart : part ∈ nestedLists.map Prod.snd) :
    part.Built nestedLists True True := by
  have hitem : Built nestedLists True True (.grammar (.reference "item")) := .reference rfl
  have hlist : Built nestedLists True True (.grammar (.reference "list")) := .reference rfl
  have hinteger : Built nestedLists True True (.grammar Grammar.integerNumber) :=
    .readyMade (by simp [Grammar.readyMade]) fun _ => trivial
  have hquoted : Built nestedLists True True (.grammar Grammar.quotedString) :=
    .readyMade (by simp [Grammar.readyMade]) fun _ => trivial
  have hletters : Built nestedLists True True (.grammar (Grammar.someOf "ab")) :=
    .regularExpression _
  have hsize : ∀ v, Part.Yields nestedLists (.grammar (Grammar.someOf "ab")) v →
      ∃ w, v.size = .ok w := by
    rintro v ⟨limit, hv⟩
    obtain ⟨src, matched, rest, -, rfl⟩ := Parser.yields_pattern hv
    exact ⟨_, rfl⟩
  simp only [nestedLists, List.map_cons, List.map_nil, List.mem_cons, List.not_mem_nil,
    or_false] at hpart
  rcases hpart with rfl | rfl
  · have hparts : ∀ p ∈ [.text "[", .grammar (.many (.reference "item")), .text "]"],
        Built nestedLists True True p := by
      simp [Built.text, Built.many hitem rfl]
    exact .sequence hparts rfl
  · have hparts : ∀ p ∈ [.grammar (.reference "list"), .grammar Grammar.integerNumber.token,
        .grammar Grammar.quotedString, .grammar ((Grammar.someOf "ab").transform Value.size)],
        Built nestedLists True True p := by
      simp [hlist, hquoted, Built.token hinteger rfl, Built.transform hletters hsize rfl]
    exact .oneOf hparts rfl

/-- A negative number of 4301 digits. -/
def overlong : Text := '-' :: List.replicate 4301 '7'

theorem length_leadingDigits_overlong : overlong.unsigned.leadingDigits.length = 4301 := by
  have hseven : CharSet.ofText Alphabet.decimal '7' = true := by decide
  rw [overlong, Text.unsigned_minus, Text.leadingDigits, List.takeWhile_replicate, if_pos hseven,
    List.length_replicate]

theorem built_replies_unless_overlong_nestedLists :
    (∀ name part, nestedLists.find name = .ok part → part.Built nestedLists True True) ∧
    ((Part.grammar (.reference "list")).Built nestedLists True True ∧
      ∃ r, (Grammar.reference "list").apply nestedLists 9 "[1['a'ab] -2]" = .returned r) ∧
    (Part.grammar Grammar.integerNumber).Built nestedLists True True ∧
      ∃ count, Grammar.integerNumber.apply nestedLists 9 overlong =
          .raised (.tooManyDigits count) ∧
        Numeral.decimalLimit < count ∧
        ∃ rest : Text, rest <:+ overlong ∧ rest.leadingDigits.length = count := by
  have hdefs : ∀ name part, nestedLists.find name = .ok part →
      part.Built nestedLists True True := by
    intro name part hfind
    exact built_nestedLists (List.mem_map_of_mem (Definitions.mem_of_find_eq_ok hfind))
  have hlist : (Part.grammar (.reference "list")).Built nestedLists True True := .reference rfl
  have hinteger : (Part.grammar Grammar.integerNumber).Built nestedLists True True :=
    .readyMade (by simp [Grammar.readyMade]) fun _ => trivial
  obtain ⟨hreply, hraises, -⟩ := built_replies_unless_overlong hdefs
  refine ⟨hdefs, ⟨hlist, ?_⟩, hinteger, ?_⟩
  · have hrun : (Grammar.reference "list").apply nestedLists 9 "[1['a'ab] -2]" =
        .returned (.success
          (.list
            [ .text "[",
              .list [.int 1, .list [.text "[", .list [.text "a", .int 2], .text "]"], .int (-2)],
              .text "]" ]) "") := by
      cbv
    rcases hreply _ hlist 9 "[1['a'ab] -2]" (hrun.trans_ne (by simp)) with h | ⟨-, count, h, -⟩
    · exact h
    · exact absurd (hrun.symm.trans h) (by simp)
  · have hlong : Numeral.decimalLimit < overlong.unsigned.leadingDigits.length := by
      rw [length_leadingDigits_overlong]
      decide
    have hraised := (hraises 9 overlong _).mpr ⟨hlong, rfl⟩
    rcases hreply _ hinteger 9 overlong (hraised.trans_ne (by simp)) with
      ⟨r, h⟩ | ⟨-, count, h, hrun⟩
    · exact absurd (hraised.symm.trans h) (by simp)
    · exact ⟨count, h, hrun.1, hrun.2 trivial⟩

end Part

end Descent
