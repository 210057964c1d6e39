import Descent.Proofs.Grammar.Limit
import Descent.Proofs.Lexeme.Blank
import Descent.Proofs.Lexeme.Escape
import Descent.Proofs.Parser.Repetition

/-!
# Reading quoted strings

The repetition between the quotes takes as many pieces as there are.  It takes a whole run of
plain pieces at a time, which makes no difference since the outputs are joined.  What is left is
either the closing quote or the place where the string breaks off.  Of the two kinds of quotes the
second one is tried last, so a string in it fails where it breaks off, and anything else fails at
its start.
-/

namespace Descent.Grammar

variable {quote : CodePoint} {src rest : Text} {ctx : Context}

/-! ### Pieces -/

def plainSet (quote : CodePoint) : CharSet := (CharSet.ofText [quote, '\\']).compl

theorem plainSet_eq_true_iff {c : CodePoint} :
    plainSet quote c = true ↔ c ≠ quote ∧ c ≠ ('\\' : CodePoint) := by
  simp [plainSet, CharSet.compl, CharSet.ofText]

theorem exists_pieces_of_plain
    {t : Text} (h : ∀ c ∈ t, plainSet quote c = true) :
    ∃ ps : List (Piece quote), writtenAll ps = t ∧ decodedAll ps = t := by
  induction t with
  | nil => exact ⟨[], rfl, rfl⟩
  | cons c t ih =>
      obtain ⟨ps, hwritten, hdecoded⟩ := ih fun d hd => h d (List.mem_cons_of_mem c hd)
      obtain ⟨hquote, hescape⟩ := plainSet_eq_true_iff.mp (h c (by simp))
      refine ⟨.plain c hquote hescape :: ps, ?_, ?_⟩
      · rw [writtenAll_cons, hwritten]
        rfl
      · rw [decodedAll_cons, hdecoded]
        rfl

theorem run_unescaped (quote : CodePoint) (ctx : Context) (src : Text) :
    (unescaped quote).run ctx src =
      if src.takeWhile (plainSet quote) = [] then
        Parser.failWith "input did not match regular expression" src
      else
        .returned (.success (.text (src.takeWhile (plainSet quote)))
          (src.dropWhile (plainSet quote))) :=
  run_pattern_oneOrMore_set (plainSet quote) ctx src

/-- A run of plain pieces, or one escape. -/
def item (quote : CodePoint) : Grammar := oneOf [unescaped quote, escapeSequence]

theorem run_item_of_plain
    (h : src.takeWhile (plainSet quote) ≠ []) (ctx : Context) :
    (item quote).run ctx src =
      .returned (.success (.text (src.takeWhile (plainSet quote)))
        (src.dropWhile (plainSet quote))) := by
  have hfirst := run_unescaped quote ctx src
  rw [if_neg h] at hfirst
  simp only [item, run, runAll]
  exact Parser.oneOf_cons_of_success hfirst

theorem run_item_of_not_plain
    (h : src.takeWhile (plainSet quote) = []) (ctx : Context) :
    (item quote).run ctx src = escapeSequence.run ctx src := by
  have hfirst := run_unescaped quote ctx src
  rw [if_pos h] at hfirst
  simp only [item, run, runAll]
  exact Parser.oneOf_cons_of_failure hfirst

theorem takeWhile_ne_nil_of_plain {c : CodePoint} (h : plainSet quote c = true) (t : Text) :
    (c :: t).takeWhile (plainSet quote) ≠ [] := by
  simp [h]

theorem run_item_of_piece (p : Piece quote) (rest : Text) (ctx : Context) :
    ∃ (ps : List (Piece quote)) (rest' : Text),
      (item quote).run ctx (p.written ++ rest) =
          .returned (.success (.text (decodedAll ps)) rest') ∧
        p.written ++ rest = writtenAll ps ++ rest' ∧
        rest'.length < (p.written ++ rest).length := by
  cases p with
  | plain c hquote hescape =>
      have hplain : plainSet quote c = true := plainSet_eq_true_iff.mpr ⟨hquote, hescape⟩
      have hne := takeWhile_ne_nil_of_plain hplain rest
      obtain ⟨ps, hwritten, hdecoded⟩ :=
        exists_pieces_of_plain fun d (hd : d ∈ (c :: rest).takeWhile (plainSet quote)) =>
          List.mem_takeWhile_imp hd
      refine ⟨ps, (c :: rest).dropWhile (plainSet quote), ?_, ?_, ?_⟩
      · rw [hdecoded]
        exact run_item_of_plain hne ctx
      · rw [hwritten]
        exact List.takeWhile_append_dropWhile.symm
      · have hle : (rest.dropWhile (plainSet quote)).length ≤ rest.length :=
          (List.dropWhile_suffix _).length_le
        simp only [List.dropWhile_cons, hplain, if_true, Piece.written, List.length_append,
          List.length_singleton]
        omega
  | escape e =>
      have hescape : plainSet quote ('\\' : CodePoint) = false := by
        rw [Bool.eq_false_iff]
        intro h
        exact (plainSet_eq_true_iff.mp h).2 rfl
      have hnone : (('\\' : CodePoint) :: (e.body ++ rest)).takeWhile (plainSet quote) = [] := by
        simp [hescape]
      refine ⟨[.escape e], rest, ?_, ?_, ?_⟩
      · have hrun := run_item_of_not_plain hnone ctx
        rw [run_escapeSequence_cons, run_escaped_append] at hrun
        exact hrun
      · simp [writtenAll]
      · simp only [Piece.written, List.cons_append, List.length_cons, List.length_append]
        omega

theorem run_item_of_exhausts (h : Exhausts quote src) (ctx : Context) :
    ∃ f, (item quote).run ctx src = .returned (.failure f) := by
  have hnone : src.takeWhile (plainSet quote) = [] := by
    cases src with
    | nil => rfl
    | cons c src =>
        by_cases hplain : plainSet quote c = true
        · obtain ⟨hquote, hescape⟩ := plainSet_eq_true_iff.mp hplain
          exact absurd rfl (h (.plain c hquote hescape) src)
        · simp [hplain]
  rw [run_item_of_not_plain hnone]
  by_cases hhead : src.head? = some ('\\' : CodePoint)
  · obtain ⟨t, rfl⟩ := List.head?_eq_some_iff.mp hhead
    rw [run_escapeSequence_cons]
    apply run_escaped_of_not_escape
    rintro e rest rfl
    exact h (.escape e) rest rfl
  · apply run_escapeSequence_of_not_backslash
    rintro c hc rfl
    exact hhead hc

/-- The repetition takes as many pieces as there are, and outputs what they stand for. -/
theorem gather_item
    (quote : CodePoint) (ctx : Context) {limit : Nat} (hlimit : src.length < limit) :
    ∃ (ps : List (Piece quote)) (chunks : List Text) (rest : Text),
      ((item quote).run ctx).gather limit src = .returned (chunks.map .text, rest) ∧
        src = writtenAll ps ++ rest ∧ Exhausts quote rest ∧ chunks.flatten = decodedAll ps := by
  induction limit generalizing src with
  | zero => omega
  | succ limit ih =>
      by_cases hpiece : ∃ (p : Piece quote) (rest : Text), src = p.written ++ rest
      · obtain ⟨p, rest, rfl⟩ := hpiece
        obtain ⟨ps, rest', hrun, hsplit, hshorter⟩ := run_item_of_piece p rest ctx
        have hlimit' : rest'.length < limit := by omega
        obtain ⟨ps', chunks, last, hgather, hsplit', hlast, hchunks⟩ := ih hlimit'
        refine ⟨ps ++ ps', decodedAll ps :: chunks, last, ?_, ?_, hlast, ?_⟩
        · rw [Parser.gather_of_success hrun (by simp), hgather]
          rfl
        · rw [hsplit, hsplit', writtenAll_append, List.append_assoc]
        · rw [List.flatten_cons, hchunks, decodedAll_append]
      · have hnone : Exhausts quote src := fun p rest h => hpiece ⟨p, rest, h⟩
        obtain ⟨f, hfail⟩ := run_item_of_exhausts hnone ctx
        exact ⟨[], [], src, Parser.gather_of_failure hfail limit, rfl, hnone, rfl⟩

/-! ### Strings -/

theorem run_quotedBy_of_not_quote
    (h : ∀ c ∈ src.head?, c ≠ quote) (ctx : Context) :
    (quotedBy quote).run ctx src =
      Parser.failWith ("input did not begin with \"" ++ [quote] ++ "\"") src := by
  have hnot : ¬ [quote] <+: src := by
    rintro ⟨rest, rfl⟩
    exact h quote rfl rfl
  have hfail := Parser.literal_of_not_prefix hnot
  simp [quotedBy, picking, run, runAll, Parser.map, Parser.sequence, Parser.collect, hfail,
    Parser.failWith]

section Body

variable {body : Text} {chunks : List Text}

theorem run_quotedBy_of_close
    (h : ((item quote).run ctx).gather ctx.limit body =
      .returned (chunks.map .text, quote :: rest)) :
    (quotedBy quote).run ctx (quote :: body) =
      .returned (.success (.text chunks.flatten) rest) := by
  have hopen := Parser.literal_singleton_cons quote body
  have hclose := Parser.literal_singleton_cons quote rest
  simp only [item, run, runAll] at h
  simp [quotedBy, picking, run, runAll, Parser.map, Parser.sequence, Parser.collect, Parser.many,
    Parser.expect, hopen, hclose, h, Value.pick, Value.items?, Value.join_map_text]

theorem run_quotedBy_of_not_close
    (h : ((item quote).run ctx).gather ctx.limit body = .returned (chunks.map .text, rest))
    (hclose : ∀ after, rest ≠ quote :: after) :
    (quotedBy quote).run ctx (quote :: body) =
      .returned (.failure
        { input := rest, message := "expected closing quote `" ++ [quote] ++ "`" }) := by
  have hopen := Parser.literal_singleton_cons quote body
  have hnot : ¬ [quote] <+: rest := by
    rintro ⟨after, rfl⟩
    exact hclose after rfl
  have hfail := Parser.literal_of_not_prefix hnot
  simp only [item, run, runAll] at h
  simp [quotedBy, picking, run, runAll, Parser.map, Parser.sequence, Parser.collect, Parser.many,
    Parser.expect, hopen, hfail, Parser.failWith, h]
  rfl

end Body

/-! ### Strings in either kind of quotes -/

def quotes : Text := ['"', '\'']

/-- A way to see a text as a quoted string and what follows it. -/
structure Quoting (src : Text) where
  quote : CodePoint
  quote_mem : quote ∈ quotes
  pieces : List (Piece quote)
  rest : Text
  eq_append : src = quote :: (writtenAll pieces ++ quote :: rest)

theorem ne_backslash_of_mem_quotes (h : quote ∈ quotes) : quote ≠ ('\\' : CodePoint) := by
  have hall : ∀ quote ∈ quotes, quote ≠ ('\\' : CodePoint) := by decide
  exact hall quote h

theorem Quoting.eq (q q' : Quoting src) : q = q' := by
  obtain ⟨quote, hquote, ps, rest, heq⟩ := q
  obtain ⟨quote', hquote', ps', rest', heq'⟩ := q'
  rw [heq] at heq'
  obtain ⟨rfl, hbody⟩ := List.cons.inj heq'
  have hne := ne_backslash_of_mem_quotes hquote
  obtain ⟨rfl, hrest⟩ :=
    writtenAll_append_inj (exhausts_quote hne rest) (exhausts_quote hne rest') hbody
  obtain ⟨-, rfl⟩ := List.cons.inj hrest
  rfl

def Quoting.text (q : Quoting src) : Text := decodedAll q.pieces

theorem run_quotedBy_of_open
    {body : Text} (hquote : quote ∈ quotes) (hlimit : body.length < ctx.limit)
    (hnone : ¬ Nonempty (Quoting (quote :: body))) :
    ∃ (ps : List (Piece quote)) (rest : Text),
      MaximalPieces body ps rest ∧ EndsInPiece rest ∧
        (quotedBy quote).run ctx (quote :: body) =
          .returned (.failure
            { input := rest, message := "expected closing quote `" ++ [quote] ++ "`" }) := by
  obtain ⟨ps, chunks, rest, hgather, rfl, hrest, -⟩ := gather_item quote ctx hlimit
  have hclose : ∀ after, rest ≠ quote :: after := by
    rintro after rfl
    exact hnone ⟨⟨quote, hquote, ps, after, rfl⟩⟩
  refine ⟨ps, rest, hrest.maximalPieces ps, ?_, run_quotedBy_of_not_close hgather hclose⟩
  rcases hrest.eq_quote_cons_or with ⟨after, heq⟩ | hends
  · exact absurd heq (hclose after)
  · exact hends

theorem run_quotedBy_of_not_quoting
    (hquote : quote ∈ quotes) (hlimit : src.length ≤ ctx.limit) (hnone : ¬ Nonempty (Quoting src)) :
    ∃ f, (quotedBy quote).run ctx src = .returned (.failure f) := by
  by_cases hhead : src.head? = some quote
  · obtain ⟨body, rfl⟩ := List.head?_eq_some_iff.mp hhead
    obtain ⟨ps, rest, -, -, hfail⟩ := run_quotedBy_of_open hquote hlimit hnone
    exact ⟨_, hfail⟩
  · refine ⟨_, run_quotedBy_of_not_quote ?_ ctx⟩
    rintro c hc rfl
    exact hhead hc

theorem run_quotedString_of_success
    {v : Value} (h : (quotedBy '"').run ctx src = .returned (.success v rest)) :
    quotedString.run ctx src = .returned (.success v rest) := by
  simp only [quotedString, run, runAll]
  exact Parser.oneOf_cons_of_success h

theorem run_quotedString_of_failure
    {f : Failure} (h : (quotedBy '"').run ctx src = .returned (.failure f)) :
    quotedString.run ctx src = (quotedBy '\'').run ctx src := by
  simp only [quotedString, run, runAll]
  exact Parser.oneOf_cons_of_failure h

theorem run_quotedString_of_head
    (h : ∀ c ∈ src.head?, c ≠ ('"' : CodePoint)) (ctx : Context) :
    quotedString.run ctx src = (quotedBy '\'').run ctx src :=
  run_quotedString_of_failure (run_quotedBy_of_not_quote h ctx)

theorem run_quotedString_of_quoting (q : Quoting src) (hlimit : src.length ≤ ctx.limit) :
    quotedString.run ctx src = .returned (.success (.text q.text) q.rest) := by
  obtain ⟨quote, hquote, ps, rest, rfl⟩ := q
  have hne := ne_backslash_of_mem_quotes hquote
  have hbody : (writtenAll ps ++ quote :: rest).length < ctx.limit := hlimit
  obtain ⟨ps', chunks, rest', hgather, hsplit, hrest', hchunks⟩ := gather_item quote ctx hbody
  obtain ⟨rfl, rfl⟩ := writtenAll_append_inj (exhausts_quote hne rest) hrest' hsplit
  have hrun := run_quotedBy_of_close hgather
  rw [hchunks] at hrun
  simp only [quotes, List.mem_cons, List.not_mem_nil, or_false] at hquote
  rcases hquote with rfl | rfl
  · exact run_quotedString_of_success hrun
  · rw [run_quotedString_of_head]
    · exact hrun
    · intro c hc
      obtain rfl : ('\'' : CodePoint) = c := by simpa using hc
      decide

/-- Why and where a text is refused that does not begin with a quoted string. -/
structure QuotingFailure (src : Text) (f : Failure) : Prop where
  of_open : ∀ body, src = ('\'' : CodePoint) :: body →
    ∃ (ps : List (Piece '\'')) (rest : Text),
      MaximalPieces body ps rest ∧ EndsInPiece rest ∧
        f = { input := rest, message := "expected closing quote `'`" }
  of_not_open : (∀ body, src ≠ ('\'' : CodePoint) :: body) →
    f = { input := src, message := "input did not begin with \"'\"" }

theorem run_quotedString_of_not_quoting
    (hlimit : src.length ≤ ctx.limit) (hnone : ¬ Nonempty (Quoting src)) :
    ∃ f, quotedString.run ctx src = .returned (.failure f) ∧ QuotingFailure src f := by
  by_cases hhead : ∃ body, src = ('\'' : CodePoint) :: body
  · obtain ⟨body, rfl⟩ := hhead
    obtain ⟨ps, rest, hpieces, hends, hfail⟩ := run_quotedBy_of_open (by decide) hlimit hnone
    refine ⟨{ input := rest, message := "expected closing quote `'`" }, ?_, ?_, ?_⟩
    · rw [run_quotedString_of_head]
      · exact hfail
      · intro c hc
        obtain rfl : ('\'' : CodePoint) = c := by simpa using hc
        decide
    · intro body' heq
      obtain rfl : body = body' := (List.cons.inj heq).2
      exact ⟨ps, rest, hpieces, hends, rfl⟩
    · intro hnot
      exact absurd rfl (hnot body)
  · have hnot : ∀ c ∈ src.head?, c ≠ ('\'' : CodePoint) := by
      rintro c hc rfl
      obtain ⟨body, hbody⟩ := List.head?_eq_some_iff.mp hc
      exact hhead ⟨body, hbody⟩
    have hquote : ('"' : CodePoint) ∈ quotes := by decide
    obtain ⟨f, hfirst⟩ := run_quotedBy_of_not_quoting hquote hlimit hnone
    refine ⟨{ input := src, message := "input did not begin with \"'\"" }, ?_, ?_, ?_⟩
    · rw [run_quotedString_of_failure hfirst, run_quotedBy_of_not_quote hnot]
      rfl
    · intro body heq
      exact absurd ⟨body, heq⟩ hhead
    · intro _
      rfl

theorem exists_apply_quotedString (defs : Definitions) (src : Text) :
    ∃ r, (∀ limit, src.length < limit → quotedString.apply defs limit src = .returned r) ∧
      (∀ v rest, r = .success v rest ↔ ∃ q : Quoting src, v = .text q.text ∧ rest = q.rest) ∧
      ∀ f, r = .failure f → QuotingFailure src f := by
  by_cases hquoting : Nonempty (Quoting src)
  · obtain ⟨q⟩ := hquoting
    refine ⟨.success (.text q.text) q.rest,
      fun limit hlimit => run_quotedString_of_quoting q (Nat.le_of_lt hlimit), ?_, ?_⟩
    · intro v rest
      constructor
      · intro h
        obtain ⟨rfl, rfl⟩ : .text q.text = v ∧ q.rest = rest := by simpa using h
        exact ⟨q, rfl, rfl⟩
      · rintro ⟨q', rfl, rfl⟩
        rw [q.eq q']
    · intro f h
      cases h
  · have hlimit : src.length ≤ (defs.context src.length).limit := Nat.le_refl _
    obtain ⟨f, hfail, hplace⟩ := run_quotedString_of_not_quoting hlimit hquoting
    refine ⟨.failure f, fun limit hlimit => apply_eq_of_le hfail (Nat.le_of_lt hlimit), ?_, ?_⟩
    · intro v rest
      constructor
      · intro h
        cases h
      · rintro ⟨q, -, -⟩
        exact absurd ⟨q⟩ hquoting
    · intro f' h
      obtain rfl : f = f' := by simpa using h
      exact hplace

theorem parse_quotedString_of_pieces
    (defs : Definitions) (hquote : quote ∈ quotes) (ps : List (Piece quote)) {limit : Nat}
    (hlimit : (quote :: (writtenAll ps ++ [quote])).length < limit) :
    (quotedString.apply defs limit).parse (quote :: (writtenAll ps ++ [quote])) =
      .returned (.accepted (.text (decodedAll ps))) := by
  let q : Quoting (quote :: (writtenAll ps ++ [quote])) := ⟨quote, hquote, ps, [], rfl⟩
  have hrun :
      quotedString.apply defs limit (quote :: (writtenAll ps ++ [quote])) =
        .returned (.success (.text q.text) q.rest) :=
    run_quotedString_of_quoting q (Nat.le_of_lt hlimit)
  simp [Parser.parse, hrun, q, Quoting.text]

/-- Reading a quoted string ends on every text.  It matches exactly the texts that begin with pieces
between two quotes of a kind, which can be seen in one way only, and outputs what the pieces stand
for.  So a text that is written in pieces between quotes is read back as a whole.  A failure is
where an opened string breaks off, or at the start if the text does not begin with a quote of the
second kind. -/
theorem quotedString_reads_pieces (defs : Definitions) (src : Text) :
    ∃ r, (∀ limit, src.length < limit → quotedString.apply defs limit src = .returned r) ∧
      (∀ v rest, r = .success v rest ↔ ∃ q : Quoting src, v = .text q.text ∧ rest = q.rest) ∧
      (∀ q q' : Quoting src, q = q') ∧
      (∀ f, r = .failure f → QuotingFailure src f) ∧
      ∀ quote ∈ quotes, ∀ (t : Text) (ps : List (Piece quote)), decodedAll ps = t →
        src = quote :: (writtenAll ps ++ [quote]) →
          ∀ limit, src.length < limit →
            (quotedString.apply defs limit).parse src = .returned (.accepted (.text t)) := by
  obtain ⟨r, hrun, hsuccess, hfailure⟩ := exists_apply_quotedString defs src
  refine ⟨r, hrun, hsuccess, Quoting.eq, hfailure, ?_⟩
  rintro quote hquote t ps rfl rfl limit hlimit
  exact parse_quotedString_of_pieces defs hquote ps hlimit

end Descent.Grammar
