import Descent.Proofs.Arithmetic.Reading

/-!
# Reading factors

A factor is read as a number if there is a digit behind the blanks, and else as an expression in
parentheses.  At most one of the two alternatives can match, so nothing is lost by trying them in
order.  What stands between the parentheses is read one code point further on.
-/

namespace Descent.Arithmetic

open Text Grammar

/-- What may continue a factor. -/
def factorMore : Text := Alphabet.blank ++ Alphabet.decimal

theorem notMem_decimal_of_mem_blank {c : CodePoint} (h : c ∈ Alphabet.blank) :
    c ∉ Alphabet.decimal := by
  have hdisjoint : ∀ c ∈ Alphabet.blank, c ∉ Alphabet.decimal := by decide
  exact hdisjoint c h

variable {inner : Grammar} {ctx : Context} {src rest : Text}

/-! ### Numbers -/

theorem run_token_number_of_notMem
    (h : ∀ c ∈ src.dropBlanks.head?, c ∉ Alphabet.decimal) (ctx : Context) :
    ∃ f, number.token.run ctx src = .returned (.failure f) := by
  obtain ⟨message, hfail⟩ := run_number_of_notMem h ctx
  refine ⟨{ input := src.dropBlanks, message }, ?_⟩
  rw [run_token, hfail]
  rfl

theorem run_token_number_of_mem
    {n : Nat} (hsrc : Readable n src) (hn : n ≤ ctx.limit + 1) {c : CodePoint}
    (hhead : src.dropBlanks = c :: rest) (hc : c ∈ Alphabet.decimal) :
    number.token.run ctx src =
      .returned (.success
        (.int (Numeral.value 10 (src.dropBlanks.takeWhile (CharSet.ofText Alphabet.decimal))))
        (dropBlanks (src.dropBlanks.dropWhile (CharSet.ofText Alphabet.decimal)))) := by
  have hreadable : Readable n src.dropBlanks := hsrc.of_suffix (dropBlanks_suffix src)
  have hlimit : src.dropBlanks.length ≤ ctx.limit := by
    have hlt := hreadable.length_lt
    omega
  have hshort :
      ¬ Numeral.decimalLimit <
        (src.dropBlanks.takeWhile (CharSet.ofText Alphabet.decimal)).length := by
    rw [Nat.not_lt]
    apply hreadable.shortRuns
    · exact (List.takeWhile_prefix _).isInfix
    · exact only_takeWhile Alphabet.decimal src.dropBlanks
  rw [run_token, run_number_of_mem hhead hc hlimit]
  simp only [if_neg hshort]
  rfl

/-! ### Parentheses -/

theorem run_open (ctx : Context) :
    (literal "(").run ctx = Parser.oneOf (Parser.characters [('(' : CodePoint)]) := rfl

theorem run_close (ctx : Context) :
    (literal ")").run ctx = Parser.oneOf (Parser.characters [(')' : CodePoint)]) := rfl

theorem run_parenthesizedOf_of_not_open
    (h : ∀ c ∈ src.dropBlanks.head?, c ≠ ('(' : CodePoint)) (inner : Grammar) (ctx : Context) :
    ∃ f, (parenthesizedOf inner).run ctx src = .returned (.failure f) := by
  obtain ⟨f, hfail⟩ := run_token_of_notMem (run_open ctx) (by simp)
    fun c hc => by simpa using h c hc
  refine ⟨f, ?_⟩
  simp [parenthesizedOf, picking, run, runAll, Parser.map, Parser.sequence, Parser.collect, hfail]

variable {v : Value} {body after : Text}

/-- Behind an opening parenthesis the inner grammar decides, and then the closing parenthesis. -/
theorem run_parenthesizedOf_of_open
    (hskips : SkipsBlanks (inner.run ctx)) (hopen : src.dropBlanks = ('(' : CodePoint) :: body) :
    (parenthesizedOf inner).run ctx src = (do
      match ← inner.run ctx body with
      | .failure f => return .failure f
      | .success v rest =>
          match ← (literal ")").token.run ctx rest with
          | .failure f => return .failure f
          | .success _ last => return .success v last) := by
  have hfirst := run_token_of_mem (run_open ctx) hopen (by simp)
  simp only [parenthesizedOf, picking, run, runAll, Parser.map, Parser.sequence, Parser.collect,
    hfirst, Outcome.returned_bind, hskips.eq_dropBlanks]
  cases inner.run ctx body with
  | raised fault => simp
  | exhausted => simp
  | returned r =>
      cases r with
      | failure f => simp
      | success v rest =>
          cases hclose : (literal ")").token.run ctx rest with
          | raised fault => simp [hclose]
          | exhausted => simp [hclose]
          | returned r => cases r <;> simp [hclose, Value.pick, Value.items?]

theorem run_parenthesizedOf_of_failure
    (hskips : SkipsBlanks (inner.run ctx)) (hopen : src.dropBlanks = ('(' : CodePoint) :: body)
    {f : Failure} (hinner : inner.run ctx body = .returned (.failure f)) :
    (parenthesizedOf inner).run ctx src = .returned (.failure f) := by
  rw [run_parenthesizedOf_of_open hskips hopen, hinner]
  rfl

theorem run_parenthesizedOf_of_not_close
    (hskips : SkipsBlanks (inner.run ctx)) (hopen : src.dropBlanks = ('(' : CodePoint) :: body)
    (hinner : inner.run ctx body = .returned (.success v rest))
    (hclose : ∀ c ∈ rest.dropBlanks.head?, c ≠ (')' : CodePoint)) :
    ∃ f, (parenthesizedOf inner).run ctx src = .returned (.failure f) := by
  obtain ⟨f, hfail⟩ := run_token_of_notMem (run_close ctx) (by simp)
    fun c hc => by simpa using hclose c hc
  refine ⟨f, ?_⟩
  rw [run_parenthesizedOf_of_open hskips hopen, hinner]
  simp [hfail]

theorem run_parenthesizedOf_of_success
    (hskips : SkipsBlanks (inner.run ctx)) (hopen : src.dropBlanks = ('(' : CodePoint) :: body)
    (hinner : inner.run ctx body = .returned (.success v rest))
    (hclose : rest.dropBlanks = (')' : CodePoint) :: after) :
    (parenthesizedOf inner).run ctx src = .returned (.success v after.dropBlanks) := by
  have hlast := run_token_of_mem (run_close ctx) hclose (by simp)
  rw [run_parenthesizedOf_of_open hskips hopen, hinner]
  simp [hlast]

/-! ### Factors -/

theorem run_factorOf_of_number
    {r : Text} (h : number.token.run ctx src = .returned (.success v r)) :
    (factorOf inner).run ctx src = .returned (.success v r) := by
  simp only [factorOf, run, runAll]
  exact Parser.oneOf_cons_of_success h

theorem run_factorOf_of_not_number
    (h : ∀ c ∈ src.dropBlanks.head?, c ∉ Alphabet.decimal) :
    (factorOf inner).run ctx src = (parenthesizedOf inner).run ctx src := by
  obtain ⟨f, hfail⟩ := run_token_number_of_notMem h ctx
  simp only [factorOf, run, runAll]
  exact Parser.oneOf_cons_of_failure hfail

theorem skipsBlanks_factorOf (inner : Grammar) (ctx : Context) :
    SkipsBlanks ((factorOf inner).run ctx) := by
  intro b src hb
  have hnumber := skipsBlanks_token number ctx b src hb
  have hparenthesized : SkipsBlanks ((parenthesizedOf inner).run ctx) :=
    (skipsBlanks_token (literal "(") ctx).sequence.map
  simp only [factorOf, run, runAll, Parser.oneOf, hnumber, hparenthesized b src hb]

variable {L : TreeLanguage} {more : Text} {n : Nat}

theorem exists_run_factorOf_of_mem
    (L : TreeLanguage) (hsrc : Readable n src) (hn : n ≤ ctx.limit + 1) {c : CodePoint}
    (hhead : src.dropBlanks = c :: body) (hc : c ∈ Alphabet.decimal) :
    ∃ w t rest, src = w ++ rest ∧ FactorOf L w t ∧
      (factorOf inner).run ctx src = .returned (.success t.toValue rest) := by
  have hnumber := run_token_number_of_mem hsrc hn hhead hc
  obtain ⟨before, hbefore, hsplit⟩ := exists_blanks_append_dropBlanks src
  set digits := src.dropBlanks.takeWhile (CharSet.ofText Alphabet.decimal) with hdigits
  set behind := src.dropBlanks.dropWhile (CharSet.ofText Alphabet.decimal)
  obtain ⟨after, hafter, hrest⟩ := exists_blanks_append_dropBlanks behind
  refine ⟨before ++ (digits ++ after), .number (Numeral.value 10 digits), dropBlanks behind,
    ?_, .number hbefore ?_ ?_ hafter, run_factorOf_of_number hnumber⟩
  · have hall : src.dropBlanks = digits ++ behind :=
      List.takeWhile_append_dropWhile.symm
    rw [List.append_assoc, List.append_assoc, ← hrest, ← hall, ← hsplit]
  · rw [hdigits, hhead]
    simp [CharSet.ofText, hc]
  · exact only_takeWhile Alphabet.decimal src.dropBlanks

theorem returns_parenthesizedOf
    (hinner : Reads (inner.run ctx) L more n) (hsrc : Readable (n + 1) src) :
    (∃ f, (parenthesizedOf inner).run ctx src = .returned (.failure f)) ∨
      ∃ w t rest, src = w ++ rest ∧ FactorOf L w t ∧
        (parenthesizedOf inner).run ctx src = .returned (.success t.toValue rest) := by
  by_cases hopen : src.dropBlanks.head? = some ('(' : CodePoint)
  · obtain ⟨before, hbefore, hsplit⟩ := exists_blanks_append_dropBlanks src
    obtain ⟨body, hbody⟩ := List.head?_eq_some_iff.mp hopen
    have hreadable : Readable n body :=
      hsrc.of_suffix_cons (hbody ▸ dropBlanks_suffix src)
    rcases hinner.returns body hreadable with ⟨f, hfail⟩ | ⟨w, t, rest, hword, hw, hsuccess⟩
    · exact .inl ⟨f, run_parenthesizedOf_of_failure hinner.skips hbody hfail⟩
    · by_cases hclose : rest.dropBlanks.head? = some (')' : CodePoint)
      · obtain ⟨tail, htail⟩ := List.head?_eq_some_iff.mp hclose
        obtain ⟨right, hright, hrest⟩ := exists_blanks_append_dropBlanks rest
        obtain ⟨after, hafter, hend⟩ := exists_blanks_append_dropBlanks tail
        right
        refine ⟨_, t, dropBlanks tail, ?_,
          .parenthesized hbefore blanks_nil hw hright hafter,
          run_parenthesizedOf_of_success hinner.skips hbody hsuccess htail⟩
        rw [hsplit, hbody, hword, hrest, htail]
        conv_lhs => rw [hend]
        simp
      · left
        apply run_parenthesizedOf_of_not_close hinner.skips hbody hsuccess
        rintro c hc rfl
        exact hclose hc
  · left
    apply run_parenthesizedOf_of_not_open
    rintro c hc rfl
    exact hopen hc

theorem returns_factorOf
    (hinner : Reads (inner.run ctx) L more n) (hn : n ≤ ctx.limit) (hsrc : Readable (n + 1) src) :
    (∃ f, (factorOf inner).run ctx src = .returned (.failure f)) ∨
      ∃ w t rest, src = w ++ rest ∧ FactorOf L w t ∧
        (factorOf inner).run ctx src = .returned (.success t.toValue rest) := by
  by_cases hdigit : ∃ c ∈ src.dropBlanks.head?, c ∈ Alphabet.decimal
  · obtain ⟨c, hhead, hc⟩ := hdigit
    obtain ⟨body, hbody⟩ := List.head?_eq_some_iff.mp hhead
    exact .inr (exists_run_factorOf_of_mem L hsrc (Nat.add_le_add_right hn 1) hbody hc)
  · have hnot : ∀ c ∈ src.dropBlanks.head?, c ∉ Alphabet.decimal :=
      fun c hc hmem => hdigit ⟨c, hc, hmem⟩
    rw [run_factorOf_of_not_number hnot]
    exact returns_parenthesizedOf hinner hsrc

theorem dropBlanks_dropWhile_digits
    {b : Text} (hb : Blanks b) (after : Text) :
    dropBlanks ((b ++ after).dropWhile (CharSet.ofText Alphabet.decimal)) <:+ after ∧
      (BeginsOutside factorMore after →
        (b ++ after).takeWhile (CharSet.ofText Alphabet.decimal) = [] ∧
          dropBlanks ((b ++ after).dropWhile (CharSet.ofText Alphabet.decimal)) = after) := by
  cases b with
  | nil =>
      constructor
      · exact (dropBlanks_suffix _).trans (List.dropWhile_suffix _)
      · intro hafter
        have hblanks : after.dropBlanks = after :=
          dropBlanks_eq_of_beginsOutside (List.subset_append_left _ _) hafter
        cases after with
        | nil => simp [dropBlanks]
        | cons c after =>
            have hc : c ∉ Alphabet.decimal := fun hmem =>
              hafter c rfl (List.mem_append_right _ hmem)
            simpa [CharSet.ofText, hc] using hblanks
  | cons c b =>
      have hc : c ∉ Alphabet.decimal := notMem_decimal_of_mem_blank (hb c (by simp))
      have hdrop :
          ((c :: b) ++ after).dropWhile (CharSet.ofText Alphabet.decimal) = (c :: b) ++ after := by
        simp [CharSet.ofText, hc]
      rw [hdrop, dropBlanks_append hb]
      constructor
      · exact dropBlanks_suffix after
      · intro hafter
        constructor
        · simp [CharSet.ofText, hc]
        · exact dropBlanks_eq_of_beginsOutside (List.subset_append_left _ _) hafter

theorem dropBlanks_append_digits
    {before digits : Text} (hbefore : Blanks before) (hne : digits ≠ [])
    (hdigits : ∀ d ∈ digits, d ∈ Alphabet.decimal) (t : Text) :
    dropBlanks (before ++ (digits ++ t)) = digits ++ t := by
  obtain ⟨c, tail, rfl⟩ := List.exists_cons_of_ne_nil hne
  have hc : c ∈ Alphabet.decimal := hdigits c (by simp)
  rw [List.cons_append]
  exact dropBlanks_append_cons hbefore (fun h => notMem_decimal_of_mem_blank h hc) _

theorem reaches_factorOf_of_number
    {before digits behind after : Text} (hbefore : Blanks before) (hne : digits ≠ [])
    (hdigits : ∀ d ∈ digits, d ∈ Alphabet.decimal) (hbehind : Blanks behind)
    (hsrc : Readable n (before ++ (digits ++ behind) ++ after)) (hn : n ≤ ctx.limit + 1) :
    ∃ (t : Tree) (rest : Text),
      (factorOf inner).run ctx (before ++ (digits ++ behind) ++ after) =
          .returned (.success t.toValue rest) ∧
        rest <:+ after ∧
        (BeginsOutside factorMore after →
          t = .number (Numeral.value 10 digits) ∧ rest = after) := by
  have hbody :
      dropBlanks (before ++ (digits ++ behind) ++ after) = digits ++ (behind ++ after) := by
    simp only [List.append_assoc]
    exact dropBlanks_append_digits hbefore hne hdigits _
  have hpositive : ∀ d ∈ digits, CharSet.ofText Alphabet.decimal d = true := by
    intro d hd
    simpa [CharSet.ofText] using hdigits d hd
  obtain ⟨c, tail, rfl⟩ := List.exists_cons_of_ne_nil hne
  have hnumber := run_token_number_of_mem hsrc hn hbody (hdigits c (by simp))
  rw [hbody, List.takeWhile_append_of_pos hpositive,
    List.dropWhile_append_of_pos hpositive] at hnumber
  obtain ⟨hsuffix, hexact⟩ := dropBlanks_dropWhile_digits hbehind after
  refine ⟨.number _, _, run_factorOf_of_number hnumber, hsuffix, fun hafter => ?_⟩
  obtain ⟨hnone, hrest⟩ := hexact hafter
  rw [hnone, List.append_nil]
  exact ⟨rfl, hrest⟩

section Parentheses

variable {before left w right behind after : Text}

theorem dropBlanks_parentheses
    (hbefore : Blanks before) (left w right behind after : Text) :
    dropBlanks
        (before ++ ('(' : CodePoint) ::
          (left ++ (w ++ (right ++ (')' : CodePoint) :: behind))) ++ after) =
      ('(' : CodePoint) :: (left ++ ((w ++ right) ++ (')' : CodePoint) :: (behind ++ after))) := by
  simp only [List.append_assoc, List.cons_append]
  exact dropBlanks_append_cons hbefore (by decide) _

theorem run_token_close (hbehind : Blanks behind) (ctx : Context) (after : Text) :
    (literal ")").token.run ctx ((')' : CodePoint) :: (behind ++ after)) =
      .returned (.success (.text [')']) after.dropBlanks) := by
  have hhead :
      dropBlanks ((')' : CodePoint) :: (behind ++ after)) =
        (')' : CodePoint) :: (behind ++ after) :=
    dropBlanks_append_cons blanks_nil (by decide) _
  rw [run_token_of_mem (run_close ctx) hhead (by simp), dropBlanks_append hbehind]

/-- The blanks in front of a closing parenthesis are left to the inner grammar. -/
theorem run_factorOf_parentheses
    (hskips : SkipsBlanks (inner.run ctx)) (hbefore : Blanks before) (hleft : Blanks left) :
    (factorOf inner).run ctx
        (before ++ ('(' : CodePoint) ::
          (left ++ (w ++ (right ++ (')' : CodePoint) :: behind))) ++ after) = (do
      match ← inner.run ctx ((w ++ right) ++ (')' : CodePoint) :: (behind ++ after)) with
      | .failure f => return .failure f
      | .success v rest =>
          match ← (literal ")").token.run ctx rest with
          | .failure f => return .failure f
          | .success _ last => return .success v last) := by
  have hopen := dropBlanks_parentheses hbefore left w right behind after
  rw [run_factorOf_of_not_number, run_parenthesizedOf_of_open hskips hopen, hskips left _ hleft]
  rw [hopen]
  intro c hc
  obtain rfl : ('(' : CodePoint) = c := by simpa using hc
  decide

theorem run_factorOf_of_parenthesized
    (hinner : Reads (inner.run ctx) L more n) (hL : TrailsBlanks L)
    (hclose : (')' : CodePoint) ∉ more) {t : Tree}
    (hbefore : Blanks before) (hleft : Blanks left) (hw : L w t) (hright : Blanks right)
    (hbehind : Blanks behind)
    (hsrc : Readable (n + 1)
      (before ++ ('(' : CodePoint) ::
        (left ++ (w ++ (right ++ (')' : CodePoint) :: behind))) ++ after)) :
    (factorOf inner).run ctx
        (before ++ ('(' : CodePoint) ::
          (left ++ (w ++ (right ++ (')' : CodePoint) :: behind))) ++ after) =
      .returned (.success t.toValue after.dropBlanks) := by
  have hreadable : Readable n ((w ++ right) ++ (')' : CodePoint) :: (behind ++ after)) :=
    (hsrc.of_suffix_cons
      (dropBlanks_parentheses hbefore left w right behind after ▸ dropBlanks_suffix _)).of_suffix
        (List.suffix_append left _)
  obtain ⟨t', rest, hsuccess, -, hexact⟩ :=
    hinner.reaches (w ++ right) t _ (hL w t right hw hright) hreadable
  obtain ⟨rfl, rfl⟩ := hexact (beginsOutside_cons.mpr hclose)
  rw [run_factorOf_parentheses hinner.skips hbefore hleft, hsuccess]
  simp [run_token_close hbehind]

end Parentheses

theorem reaches_factorOf
    (hinner : Reads (inner.run ctx) L more n) (hL : TrailsBlanks L)
    (hclose : (')' : CodePoint) ∉ more) (hn : n ≤ ctx.limit)
    {w after : Text} {t : Tree} (hw : FactorOf L w t) (hsrc : Readable (n + 1) (w ++ after)) :
    ∃ t' rest,
      (factorOf inner).run ctx (w ++ after) = .returned (.success t'.toValue rest) ∧
        rest <:+ after ∧ (BeginsOutside factorMore after → t' = t ∧ rest = after) := by
  cases hw with
  | number hbefore hne hdigits hbehind =>
      exact reaches_factorOf_of_number hbefore hne hdigits hbehind hsrc (Nat.add_le_add_right hn 1)
  | parenthesized hbefore hleft hw hright hbehind =>
      have hresult :=
        run_factorOf_of_parenthesized hinner hL hclose hbefore hleft hw hright hbehind hsrc
      refine ⟨t, after.dropBlanks, hresult, dropBlanks_suffix after, fun hafter => ⟨rfl, ?_⟩⟩
      exact dropBlanks_eq_of_beginsOutside (List.subset_append_left _ _) hafter

theorem reads_factorOf
    (hinner : Reads (inner.run ctx) L more n) (hL : TrailsBlanks L)
    (hclose : (')' : CodePoint) ∉ more) (hn : n ≤ ctx.limit) :
    Reads ((factorOf inner).run ctx) (FactorOf L) factorMore (n + 1) where
  skips := skipsBlanks_factorOf inner ctx
  blank_subset := List.subset_append_left _ _
  returns _ hsrc := returns_factorOf hinner hn hsrc
  reaches _ _ _ hw hsrc := reaches_factorOf hinner hL hclose hn hw hsrc

end Descent.Arithmetic
