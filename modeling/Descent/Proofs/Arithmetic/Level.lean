import Descent.Proofs.Arithmetic.Reading

/-!
# Reading a level of precedence

A level reads its first operand and then as many operations as it can.  An operation that fails
behind its operator is given back whole, and the operand in front of it has kept the blanks.  An
operand that an operator follows ends exactly there, since no operator can continue an operand.
Only the last operand of a chain may run on into what follows the chain.
-/

namespace Descent.Arithmetic

open Text Grammar

variable {operand : Grammar} {ctx : Context} {symbols more src rest : Text} {L : TreeLanguage}
  {n : Nat}

/-! ### Operations -/

theorem run_operation_of_notMem
    (hne : symbols ≠ []) (h : ∀ c ∈ src.dropBlanks.head?, c ∉ symbols) (operand : Grammar)
    (ctx : Context) :
    ∃ f, (operation operand symbols).run ctx src = .returned (.failure f) := by
  obtain ⟨f, hfail⟩ := run_token_of_notMem (run_characters symbols ctx) hne h
  refine ⟨f, ?_⟩
  simp [operation, run, runAll, Parser.sequence, Parser.collect, hfail]

/-- Behind an operator the operand decides. -/
theorem run_operation_of_mem
    (hskips : SkipsBlanks (operand.run ctx)) {c : CodePoint} (hc : c ∈ symbols) {body : Text}
    (hbody : src.dropBlanks = c :: body) :
    (operation operand symbols).run ctx src = (do
      match ← operand.run ctx body with
      | .failure f => return .failure f
      | .success v rest => return .success (.list [.text [c], v]) rest) := by
  have hfirst := run_token_of_mem (run_characters symbols ctx) hbody hc
  simp only [operation, run, runAll, Parser.sequence, Parser.collect, hfirst,
    Outcome.returned_bind, hskips.eq_dropBlanks]
  cases operand.run ctx body with
  | raised fault => simp
  | exhausted => simp
  | returned r => cases r <;> simp

theorem run_operation_of_failure
    (hskips : SkipsBlanks (operand.run ctx)) {c : CodePoint} (hc : c ∈ symbols) {body : Text}
    (hbody : src.dropBlanks = c :: body) {f : Failure}
    (hoperand : operand.run ctx body = .returned (.failure f)) :
    (operation operand symbols).run ctx src = .returned (.failure f) := by
  rw [run_operation_of_mem hskips hc hbody, hoperand]
  rfl

theorem run_operation_of_success
    (hskips : SkipsBlanks (operand.run ctx)) {c : CodePoint} (hc : c ∈ symbols) {body : Text}
    (hbody : src.dropBlanks = c :: body) {v : Value}
    (hoperand : operand.run ctx body = .returned (.success v rest)) :
    (operation operand symbols).run ctx src =
      .returned (.success (.list [.text [c], v]) rest) := by
  rw [run_operation_of_mem hskips hc hbody, hoperand]
  rfl

/-! ### Chains of operations -/

theorem gather_operation_cons
    (hskips : SkipsBlanks (operand.run ctx)) {c : CodePoint} (hc : c ∈ symbols) {body : Text}
    (hbody : src.dropBlanks = c :: body) {t : Tree}
    (hoperand : operand.run ctx body = .returned (.success t.toValue rest)) {limit : Nat}
    {operations : List (Text × Tree)} {last : Text}
    (hgather : ((operation operand symbols).run ctx).gather limit rest =
      .returned (Tree.operationsToValue operations, last)) :
    ((operation operand symbols).run ctx).gather (limit + 1) src =
      .returned (Tree.operationsToValue (([c], t) :: operations), last) := by
  have hstep := run_operation_of_success hskips hc hbody hoperand
  rw [Parser.gather_of_success hstep (by simp), hgather]
  rfl

/-- The repetition ends, and whatever it matches is a chain of operations. -/
theorem gather_operation_returns
    (hoperand : Reads (operand.run ctx) L more n) (hne : symbols ≠ []) {limit : Nat}
    (hlimit : src.length < limit) (hsrc : Readable n src) :
    ∃ w operations rest,
      ((operation operand symbols).run ctx).gather limit src =
          .returned (Tree.operationsToValue operations, rest) ∧
        src = w ++ rest ∧ Operations L symbols w operations := by
  induction limit generalizing src with
  | zero => omega
  | succ limit ih =>
      obtain ⟨before, hbefore, hsplit⟩ := exists_blanks_append_dropBlanks src
      by_cases hhead : ∃ c ∈ src.dropBlanks.head?, c ∈ symbols
      · obtain ⟨c, hhead, hc⟩ := hhead
        obtain ⟨body, hbody⟩ := List.head?_eq_some_iff.mp hhead
        have hlength := length_lt_of_dropBlanks_eq_cons hbody
        have hreadable : Readable n body :=
          hsrc.of_suffix ((List.suffix_cons c body).trans (hbody ▸ dropBlanks_suffix src))
        rcases hoperand.returns body hreadable with
          ⟨f, hfail⟩ | ⟨w, t, rest, hword, hw, hsuccess⟩
        · have hstop := run_operation_of_failure hoperand.skips hc hbody hfail
          exact ⟨[], [], src, Parser.gather_of_failure hstop limit, rfl, .nil⟩
        · have hrest : rest <:+ body := ⟨w, hword.symm⟩
          have hshorter : rest.length < limit := by
            have hle := hrest.length_le
            omega
          obtain ⟨w', operations, last, hgather, hsplit', hoperations⟩ :=
            ih hshorter (hreadable.of_suffix hrest)
          refine ⟨_, ([c], t) :: operations, last,
            gather_operation_cons hoperand.skips hc hbody hsuccess hgather, ?_,
            .cons hbefore hc blanks_nil hw hoperations⟩
          rw [hsplit, hbody, hword, hsplit']
          simp
      · have hnot : ∀ c ∈ src.dropBlanks.head?, c ∉ symbols :=
          fun c hc hmem => hhead ⟨c, hc, hmem⟩
        obtain ⟨f, hstop⟩ := run_operation_of_notMem hne hnot operand ctx
        exact ⟨[], [], src, Parser.gather_of_failure hstop limit, rfl, .nil⟩

/-- There are no operations in front of what an operation cannot begin with. -/
theorem Operations.eq_nil_of_beginsOutside
    {w last : Text} {operations : List (Text × Tree)} (h : Operations L symbols w operations)
    (hblank : ∀ c ∈ symbols, c ∉ Alphabet.blank) (hmore : Alphabet.blank ⊆ more)
    (hfollow : BeginsOutside (more ++ symbols) (w ++ last)) : w = [] ∧ operations = [] := by
  cases h with
  | nil => exact ⟨rfl, rfl⟩
  | @cons before _ _ _ symbol _ _ hbefore hsymbol =>
      have hdrop := dropBlanks_eq_of_beginsOutside hmore
        (hfollow.mono (List.subset_append_left more symbols))
      rw [List.append_assoc, List.cons_append, dropBlanks_append_cons hbefore (hblank _ hsymbol)]
        at hdrop
      rw [List.append_assoc, List.cons_append, ← hdrop] at hfollow
      exact absurd (List.mem_append_right more hsymbol) (beginsOutside_cons.mp hfollow)

/-- An operand and the repetition behind it do not stop inside a chain. -/
theorem operand_gather_reaches
    (hoperand : Reads (operand.run ctx) L more n) (hL : TrailsBlanks L)
    (hsymbols : ∀ c ∈ symbols, c ∉ more) (hne : symbols ≠ [])
    {w rest after : Text} {t : Tree} {operations : List (Text × Tree)} (hw : L w t)
    (hrest : Operations L symbols rest operations)
    (hreadable : Readable n (w ++ (rest ++ after))) {limit : Nat}
    (hlimit : (w ++ (rest ++ after)).length < limit) :
    ∃ t' r operations' last,
      operand.run ctx (w ++ (rest ++ after)) = .returned (.success t'.toValue r) ∧
        ((operation operand symbols).run ctx).gather limit r =
          .returned (Tree.operationsToValue operations', last) ∧
        last <:+ after ∧
        (BeginsOutside (more ++ symbols) after →
          t' = t ∧ operations' = operations ∧ last = after) := by
  have hblank : ∀ c ∈ symbols, c ∉ Alphabet.blank :=
    fun c hc hmem => hsymbols c hc (hoperand.blank_subset hmem)
  induction hrest generalizing w t limit with
  | nil =>
      obtain ⟨t', r, hsuccess, hr, hexact⟩ := hoperand.reaches w t after hw hreadable
      have hreadable' : Readable n r := hreadable.of_suffix (hr.trans (List.suffix_append w after))
      have hshorter : r.length < limit := by
        have hle := hr.length_le
        simp only [List.length_append] at hlimit
        omega
      obtain ⟨w', operations', last, hgather, hsplit, hoperations⟩ :=
        gather_operation_returns hoperand hne hshorter hreadable'
      refine ⟨t', r, operations', last, hsuccess, hgather,
        List.IsSuffix.trans ⟨w', hsplit.symm⟩ hr, fun hafter => ?_⟩
      obtain ⟨rfl, rfl⟩ := hexact (hafter.mono (List.subset_append_left _ _))
      rw [hsplit] at hafter
      obtain ⟨rfl, rfl⟩ :=
        hoperations.eq_nil_of_beginsOutside hblank hoperand.blank_subset hafter
      exact ⟨rfl, rfl, hsplit.symm⟩
  | @cons before behind w' rest symbol t'' operations hbefore hsymbol hbehind hw' hrest ih =>
      obtain ⟨limit, rfl⟩ := Nat.exists_eq_add_one_of_ne_zero (Nat.ne_zero_of_lt hlimit)
      -- the operand takes the blanks in front of the operator, and ends there
      have hreach := hoperand.reaches (w ++ before) t
        (symbol :: (behind ++ (w' ++ rest)) ++ after) (hL w t before hw hbefore)
      simp only [List.append_assoc, List.cons_append] at hreach hreadable hlimit ⊢
      obtain ⟨t', r, hsuccess, -, hexact⟩ := hreach hreadable
      obtain ⟨rfl, rfl⟩ := hexact (beginsOutside_cons.mpr (hsymbols symbol hsymbol))
      have hreadable' : Readable n (w' ++ (rest ++ after)) := by
        apply hreadable.of_suffix
        refine List.IsSuffix.trans ?_ (List.suffix_append w _)
        refine List.IsSuffix.trans ?_ (List.suffix_append before _)
        exact (List.suffix_append behind _).trans (List.suffix_cons _ _)
      have hshorter : (w' ++ (rest ++ after)).length < limit := by
        simp only [List.length_append, List.length_cons] at hlimit ⊢
        omega
      obtain ⟨t₂, r, operations', last, hsuccess', hgather, hlast, hexact'⟩ :=
        ih hw' hreadable' hshorter
      rw [← hoperand.skips behind _ hbehind] at hsuccess'
      have hdrop :=
        dropBlanks_append_cons blanks_nil (hblank _ hsymbol) (behind ++ (w' ++ (rest ++ after)))
      refine ⟨t', _, _, last, hsuccess,
        gather_operation_cons hoperand.skips hsymbol hdrop hsuccess' hgather, hlast, ?_⟩
      intro hafter
      obtain ⟨rfl, rfl, rfl⟩ := hexact' hafter
      exact ⟨rfl, rfl, rfl⟩

/-! ### Levels -/

theorem run_level (operand : Grammar) (symbols : Text) (ctx : Context) (src : Text) :
    (level operand symbols).run ctx src = (do
      match ← operand.run ctx src with
      | .failure f => return .failure f
      | .success first rest =>
          let (operations, last) ← ((operation operand symbols).run ctx).gather ctx.limit rest
          let v ← .ofExcept (chain (.list [first, .list operations]))
          return .success v last) := by
  simp only [level, run, runAll, Parser.map, Parser.sequence, Parser.collect, Parser.many]
  cases operand.run ctx src with
  | raised fault => simp
  | exhausted => simp
  | returned r =>
      cases r with
      | failure f => simp
      | success first rest =>
          cases hgather : ((operation operand symbols).run ctx).gather ctx.limit rest <;>
            simp [hgather]

theorem run_level_of_failure
    {f : Failure} (h : operand.run ctx src = .returned (.failure f)) (symbols : Text) :
    (level operand symbols).run ctx src = .returned (.failure f) := by
  rw [run_level, h]
  rfl

theorem chain_toValue (first : Tree) (operations : List (Text × Tree)) :
    chain (.list [first.toValue, .list (Tree.operationsToValue operations)]) =
      .ok (Tree.chained first operations).toValue := by
  cases operations <;> rfl

theorem run_level_of_success
    {first : Tree} {last : Text} {operations : List (Text × Tree)}
    (hoperand : operand.run ctx src = .returned (.success first.toValue rest))
    (hgather : ((operation operand symbols).run ctx).gather ctx.limit rest =
      .returned (Tree.operationsToValue operations, last)) :
    (level operand symbols).run ctx src =
      .returned (.success (Tree.chained first operations).toValue last) := by
  rw [run_level, hoperand]
  simp [hgather, chain_toValue]

theorem reads_level
    (hoperand : Reads (operand.run ctx) L more n) (hL : TrailsBlanks L)
    (hsymbols : ∀ c ∈ symbols, c ∉ more) (hne : symbols ≠ []) (hn : n ≤ ctx.limit) :
    Reads ((level operand symbols).run ctx) (ChainOf L symbols) (more ++ symbols) n where
  skips := hoperand.skips.sequence.map
  blank_subset := List.Subset.trans hoperand.blank_subset (List.subset_append_left _ _)
  returns src hsrc := by
    rcases hoperand.returns src hsrc with ⟨f, hfail⟩ | ⟨w, t, rest, hsplit, hw, hsuccess⟩
    · exact .inl ⟨f, run_level_of_failure hfail symbols⟩
    · have hreadable : Readable n rest := hsrc.of_suffix ⟨w, hsplit.symm⟩
      obtain ⟨w', operations, last, hgather, hsplit', hoperations⟩ :=
        gather_operation_returns hoperand hne (Nat.lt_of_lt_of_le hreadable.length_lt hn) hreadable
      refine .inr ⟨w ++ w', Tree.chained t operations, last, ?_,
        chainOf_iff.mpr ⟨w, w', t, operations, rfl, rfl, hw, hoperations⟩,
        run_level_of_success hsuccess hgather⟩
      rw [hsplit, hsplit', List.append_assoc]
  reaches w t after hw hsrc := by
    obtain ⟨w, rest, first, operations, rfl, rfl, hw, hrest⟩ := chainOf_iff.mp hw
    rw [List.append_assoc] at hsrc ⊢
    obtain ⟨t', r, operations', last, hsuccess, hgather, hlast, hexact⟩ :=
      operand_gather_reaches hoperand hL hsymbols hne hw hrest hsrc
        (Nat.lt_of_lt_of_le hsrc.length_lt hn)
    refine ⟨Tree.chained t' operations', last, run_level_of_success hsuccess hgather, hlast, ?_⟩
    intro hafter
    obtain ⟨rfl, rfl, rfl⟩ := hexact hafter
    exact ⟨rfl, rfl⟩

end Descent.Arithmetic
