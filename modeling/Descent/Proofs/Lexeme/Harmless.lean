import Descent.Lexeme.Identifier
import Descent.Proofs.Lexeme.Fraction
import Descent.Proofs.Lexeme.Integer
import Descent.Proofs.Lexeme.Quoted

/-!
# Conversions inside the ready-made grammars

The ready-made grammars pick items out of sequences, look bases up by their prefix, and convert the
texts that patterns match to numbers and code points.  Each of these operations is only defined for
some outputs, and a ready-made grammar only ever applies it to those.  The one exception is the
conversion of a decimal digit run, which may be too long.
-/

namespace Descent

namespace Grammar

variable {decimals located : Prop} {g : Grammar} {gs : List Grammar} {ctx : Context} {v : Value}

/-! ### Picking items -/

theorem yields_sequence (h : ((sequence gs).run ctx).Yields v) :
    ∃ vs, v = .list vs ∧ List.Forall₂ (fun g v => (g.run ctx).Yields v) gs vs := by
  rw [run_sequence] at h
  obtain ⟨vs, rfl, hvs⟩ := Parser.yields_sequence h
  exact ⟨vs, rfl, List.forall₂_map_left_iff.mp hvs⟩

theorem pick_of_forall₂ {R : Grammar → Value → Prop} {vs : List Value}
    (h : List.Forall₂ R gs vs) {index : Nat} (hg : gs[index]? = some g) :
    ∃ v, R g v ∧ Value.pick index (.list vs) = .ok v := by
  obtain ⟨hindex, rfl⟩ := List.getElem?_eq_some_iff.mp hg
  have hindex' : index < vs.length := h.length_eq ▸ hindex
  refine ⟨vs[index], List.forall₂_iff_get.mp h |>.2 index hindex hindex', ?_⟩
  simp [Value.pick, Value.items?, hindex']

theorem yields_picking {index : Nat} (hg : gs[index]? = some g)
    (h : ((picking gs index).run ctx).Yields v) : (g.run ctx).Yields v := by
  obtain ⟨u, hu, hpick⟩ := Parser.yields_map h
  obtain ⟨vs, rfl, hvs⟩ := yields_sequence hu
  obtain ⟨w, hw, hitem⟩ := pick_of_forall₂ hvs hg
  obtain rfl : w = v := by simpa [hitem] using hpick
  exact hw

theorem harmless_sequence (h : ∀ g ∈ gs, (g.run ctx).Harmless decimals located) :
    ((sequence gs).run ctx).Harmless decimals located := by
  rw [run_sequence]
  apply Parser.harmless_sequence
  intro p hp
  obtain ⟨g, hg, rfl⟩ := List.mem_map.mp hp
  exact h g hg

theorem harmless_oneOf (h : ∀ g ∈ gs, (g.run ctx).Harmless decimals located) :
    ((oneOf gs).run ctx).Harmless decimals located := by
  rw [run_oneOf]
  apply Parser.harmless_oneOf
  intro p hp
  obtain ⟨g, hg, rfl⟩ := List.mem_map.mp hp
  exact h g hg

theorem harmless_map {f : Value → Except Fault Value}
    (hg : (g.run ctx).Harmless decimals located)
    (hf : ∀ v, (g.run ctx).Yields v → ∃ w, f v = .ok w) :
    ((map g f).run ctx).Harmless decimals located := by
  apply hg.map
  intro v hv fault
  obtain ⟨w, hw⟩ := hf v hv
  simp [hw]

theorem harmless_transform {f : Value → Except Fault Value}
    (hg : (g.run ctx).Harmless decimals located)
    (hf : ∀ v, (g.run ctx).Yields v → ∃ w, f v = .ok w) :
    ((transform g f).run ctx).Harmless decimals located := by
  apply hg.transform
  intro v hv fault
  obtain ⟨w, hw⟩ := hf v hv
  simp [hw]

theorem harmless_picking {index : Nat} (hindex : index < gs.length)
    (h : ∀ g ∈ gs, (g.run ctx).Harmless decimals located) :
    ((picking gs index).run ctx).Harmless decimals located := by
  apply harmless_map (harmless_sequence h)
  intro v hv
  obtain ⟨vs, rfl, hvs⟩ := yields_sequence hv
  obtain ⟨w, -, hpick⟩ := pick_of_forall₂ hvs (List.getElem?_eq_getElem hindex)
  exact ⟨w, hpick⟩

theorem harmless_literal (t : Text) : ((literal t).run ctx).Harmless decimals located :=
  Parser.harmless_literal t

theorem harmless_pattern (p : Pattern) : ((pattern p).run ctx).Harmless decimals located :=
  Parser.harmless_pattern p

theorem harmless_optional (h : (g.run ctx).Harmless decimals located) :
    (g.optional.run ctx).Harmless decimals located := by
  apply harmless_oneOf
  simpa using ⟨h, Parser.harmless_nothing⟩

theorem harmless_oneOrMore (h : (g.run ctx).Harmless decimals located) :
    (g.oneOrMore.run ctx).Harmless decimals located := by
  apply harmless_map (harmless_sequence (by simpa using ⟨h, h.many _⟩))
  intro v hv
  obtain ⟨vs, rfl, hvs⟩ := yields_sequence hv
  rcases hvs with _ | ⟨-, _ | ⟨hmany, _ | _⟩⟩
  obtain ⟨items, rfl, -⟩ := Parser.yields_many hmany
  exact ⟨_, rfl⟩

theorem harmless_token (h : (g.run ctx).Harmless decimals located) :
    (g.token.run ctx).Harmless decimals located := by
  have hblank : (optionalWhitespace.run ctx).Harmless decimals located := harmless_pattern _
  apply harmless_picking (by simp)
  simp [h, hblank]

theorem harmless_keyword (word : Text) : ((keyword word).run ctx).Harmless decimals located :=
  (harmless_literal word).lookaheadNot (harmless_pattern _) _

theorem harmless_reserved (words : List Text) :
    ((reserved words).run ctx).Harmless decimals located := by
  unfold reserved
  split
  · exact harmless_keyword _
  · apply harmless_oneOf
    intro g hg
    obtain ⟨word, -, rfl⟩ := List.mem_map.mp hg
    exact harmless_keyword word

/-! ### Numbers -/

theorem confined_integerNumber (ctx : Context) : (integerNumber.run ctx).Confined False := by
  have hdigits (t : Text) : ((someOf t).run ctx).Confined False := Parser.confined_pattern _
  have hafter (v : Value) : ((digitsAfter v).run ctx).Confined False := by
    unfold digitsAfter
    split
    · exact (hdigits _).map _
    · split
      · exact ((hdigits _).expect _).map _
      · exact Parser.confined_raise _
    · exact Parser.confined_raise _
  have hoptional {g : Grammar} (h : (g.run ctx).Confined False) :
      (g.optional.run ctx).Confined False :=
    Parser.confined_oneOf (by simpa [runAll] using ⟨h, Parser.confined_nothing⟩)
  have hmark : ((oneOf (NumeralBase.all.map fun base => literal base.mark)).run ctx).Confined
      False := by
    apply Parser.confined_oneOf
    simp [NumeralBase.all, runAll, run, Parser.confined_literal]
  have hunsigned : (unsignedInteger.run ctx).Confined False :=
    (hoptional hmark).flatMap fun v _ => hafter v
  have hsign := hoptional (g := literal "-") (Parser.confined_literal _)
  exact (Parser.confined_sequence (by simpa [runAll] using ⟨hsign, hunsigned⟩)).map _

theorem harmless_integerNumber (hdecimals : decimals) :
    (integerNumber.run ctx).Harmless decimals located where
  confined _ := confined_integerNumber ctx
  overlong src fault h := by
    obtain ⟨hlong, rfl⟩ := integerNumber_raises_iff.mp h
    exact ⟨hdecimals, _, rfl, hlong, fun _ => ⟨src.unsigned, src.unsigned_suffix, rfl⟩⟩

theorem harmless_floatNumber : (floatNumber.run ctx).Harmless decimals located := by
  apply harmless_map (harmless_pattern _)
  intro v hv
  obtain ⟨x, hx⟩ := Value.exists_toFloat_of_yields hv
  exact ⟨_, hx⟩

/-! ### Escapes -/

theorem codePoint_of_yields (h : (fourDigits.run ctx).Yields v) :
    ∃ c, v.codePoint = .ok (.text [c]) := by
  obtain ⟨src, digits, rest, hmatch, rfl⟩ := Parser.yields_pattern (Parser.yields_expect h)
  rw [Pattern.matchStart?_iterate_oneOf] at hmatch
  split_ifs at hmatch with hfour
  obtain ⟨rfl, -⟩ : src.take 4 = digits ∧ src.drop 4 = rest := by simpa using hmatch
  have hlength : (src.take 4).length = 4 := by simpa using hfour.1
  have hdigits : ∀ d ∈ src.take 4, d ∈ Alphabet.hexadecimal := hfour.2
  have hne : src.take 4 ≠ [] := List.ne_nil_of_length_pos (by omega)
  have hread := Numeral.read?_eq_some_value hne
    fun d hd => (Alphabet.mem_hexadecimal_iff d).mp (hdigits d hd)
  have hlt := value_lt_of_hexadecimal hlength hdigits
  exact ⟨⟨_, hlt⟩, by simp [Value.codePoint, hread, CodePoint.ofNat?, hlt]⟩

theorem harmless_unicodeEscape : (unicodeEscape.run ctx).Harmless decimals located := by
  have hdigits : (fourDigits.run ctx).Harmless decimals located := (harmless_pattern _).expect _
  apply harmless_map (harmless_picking (by simp) ?_)
  · intro v hv
    obtain ⟨c, hc⟩ := codePoint_of_yields (yields_picking (g := fourDigits) rfl hv)
    exact ⟨_, hc⟩
  · simpa using ⟨harmless_literal "u", hdigits⟩

theorem harmless_escaped : (escaped.run ctx).Harmless decimals located := by
  apply harmless_oneOf
  intro g hg
  simp only [List.cons_append, List.mem_cons, List.mem_append, List.not_mem_nil, or_false] at hg
  rcases hg with rfl | hg | rfl
  · exact harmless_unicodeEscape
  · obtain ⟨⟨letter, character⟩, -, rfl⟩ := List.mem_map.mp hg
    exact (harmless_literal letter).as _
  · exact Parser.harmless_any.butNot (harmless_literal "u") _

theorem harmless_escapeSequence : (escapeSequence.run ctx).Harmless decimals located :=
  harmless_picking (by simp) (by simpa using ⟨harmless_literal "\\", harmless_escaped⟩)

theorem yields_escaped (h : (escaped.run ctx).Yields v) : ∃ t, v = .text t := by
  rw [escaped, run_oneOf] at h
  obtain ⟨p, hp, hyields⟩ := Parser.yields_oneOf h
  obtain ⟨g, hg, rfl⟩ := List.mem_map.mp hp
  simp only [List.cons_append, List.mem_cons, List.mem_append, List.not_mem_nil, or_false] at hg
  rcases hg with rfl | hg | rfl
  · obtain ⟨u, hu, hv⟩ := Parser.yields_map hyields
    obtain ⟨c, hc⟩ := codePoint_of_yields (yields_picking (g := fourDigits) rfl hu)
    exact ⟨[c], by simpa [hc] using hv.symm⟩
  · obtain ⟨⟨letter, character⟩, -, rfl⟩ := List.mem_map.mp hg
    exact ⟨character, Parser.yields_as hyields⟩
  · exact Parser.yields_any (Parser.yields_butNot hyields)

/-! ### Quoted strings -/

theorem yields_item {quote : CodePoint} (h : ((item quote).run ctx).Yields v) :
    ∃ t, v = .text t := by
  rw [item, run_oneOf] at h
  obtain ⟨p, hp, hyields⟩ := Parser.yields_oneOf h
  simp only [List.map_cons, List.map_nil, List.mem_cons, List.not_mem_nil, or_false] at hp
  rcases hp with rfl | rfl
  · obtain ⟨src, matched, rest, -, rfl⟩ := Parser.yields_pattern hyields
    exact ⟨matched, rfl⟩
  · exact yields_escaped (yields_picking (g := escaped) rfl hyields)

theorem exists_map_text {vs : List Value} (h : ∀ v ∈ vs, ∃ t, v = .text t) :
    ∃ ts : List Text, vs = ts.map .text := by
  induction vs with
  | nil => exact ⟨[], rfl⟩
  | cons v vs ih =>
      obtain ⟨t, rfl⟩ := h v (by simp)
      obtain ⟨ts, rfl⟩ := ih fun w hw => h w (List.mem_cons_of_mem _ hw)
      exact ⟨t :: ts, rfl⟩

theorem harmless_quotedBy (quote : CodePoint) :
    ((quotedBy quote).run ctx).Harmless decimals located := by
  have hitem : ((item quote).run ctx).Harmless decimals located :=
    harmless_oneOf (by simpa using ⟨harmless_pattern _, harmless_escapeSequence⟩)
  apply harmless_map (harmless_picking (by simp) ?_)
  · intro v hv
    obtain ⟨vs, rfl, hvs⟩ := Parser.yields_many (yields_picking (g := (item quote).many) rfl hv)
    obtain ⟨ts, rfl⟩ := exists_map_text fun v hv => yields_item (hvs v hv)
    exact ⟨_, Value.join_map_text ts⟩
  · simpa using ⟨harmless_literal [quote], hitem.many _, (harmless_literal [quote]).expect _⟩

theorem harmless_quotedString : (quotedString.run ctx).Harmless decimals located :=
  harmless_oneOf (by simpa using ⟨harmless_quotedBy '"', harmless_quotedBy '\''⟩)

end Grammar

end Descent
