import Descent.Proofs.Arithmetic.Ending
import Descent.Proofs.Arithmetic.Evaluation
import Descent.Proofs.Verdict.Location

/-!
# Trees that are safe to compute

The trees that the grammar of expressions outputs are safe: their leaves are no negative numbers,
and the operations of a chain have operators of one precedence.  A safe tree can only fail to compute
by a division by zero or by a number that is too large for a float.  Without a division neither
happens, and the value is exact.
-/

namespace Descent.Arithmetic

open Text Grammar

/-- The leaves are no negative numbers.  A chain has operations, and their operators are either sums
and differences or products and quotients. -/
inductive Tree.Safe : Tree → Prop
  | number (n : Nat) : Safe (.number n)
  | chain {first : Tree} {operations : List (Text × Tree)} {symbols : Text}
      (hsymbols : symbols = "+-" ∨ symbols = "*/") (hfirst : Safe first) (hne : operations ≠ [])
      (hoperators : ∀ operation ∈ operations, ∃ c ∈ symbols, operation.1 = [c])
      (hoperands : ∀ operation ∈ operations, Safe operation.2) : Safe (.chain first operations)

variable {w text : Text} {t : Tree} {operand : TreeLanguage} {symbols : Text} {fault : Fault}

/-! ### Trees of expressions -/

theorem Operations.forall_mem {operations : List (Text × Tree)}
    (h : Operations operand symbols w operations) : ∀ operation ∈ operations,
      (∃ c ∈ symbols, operation.1 = [c]) ∧
        ∃ w', w'.length ≤ w.length ∧ operand w' operation.2 := by
  induction h with
  | nil => simp
  | @cons before after w rest symbol t operations _ hsymbol _ hw _ ih =>
      intro operation hmem
      rcases List.mem_cons.mp hmem with rfl | hmem
      · exact ⟨⟨symbol, hsymbol, rfl⟩, w, by simp; omega, hw⟩
      · obtain ⟨hoperator, w', hle, hw'⟩ := ih operation hmem
        exact ⟨hoperator, w', by simp; omega, hw'⟩

theorem ChainOf.safe (hw : ChainOf operand symbols w t) (hsymbols : symbols = "+-" ∨ symbols = "*/")
    (hoperand : ∀ w' t', w'.length ≤ w.length → operand w' t' → t'.Safe) : t.Safe := by
  cases hw with
  | single hw => exact hoperand w t (Nat.le_refl _) hw
  | @chain w rest first operations hfirst hrest hne =>
      refine .chain hsymbols (hoperand w first (by simp) hfirst) hne
        (fun operation hmem => (hrest.forall_mem operation hmem).1) fun operation hmem => ?_
      obtain ⟨-, w', hle, hw'⟩ := hrest.forall_mem operation hmem
      exact hoperand w' operation.2 (by simp; omega) hw'

theorem Expression.safe (h : Expression w t) : t.Safe := by
  induction hlength : w.length using Nat.strong_induction_on generalizing w t with
  | _ n ih =>
      cases h with
      | sum hw =>
          apply hw.safe (.inl rfl)
          intro w' t' hle hw'
          apply hw'.safe (.inr rfl)
          intro w'' t'' hle' hw''
          cases hw'' with
          | number _ _ _ _ => exact .number _
          | parenthesized hbefore hleft hinner hright hafter =>
              simp only [List.length_append, List.length_cons] at hle'
              exact ih _ (by omega) hinner rfl

/-! ### Computing safe trees -/

theorem exists_operator {c : CodePoint} (hsymbols : symbols = "+-" ∨ symbols = "*/")
    (hc : c ∈ symbols) : ∃ op : Operator, [c] = op.symbol := by
  have hall : ∀ c ∈ ("+-*/" : Text), ∃ op ∈ Operator.all, [c] = op.symbol := by decide
  have hmem : c ∈ ("+-*/" : Text) := by
    rcases hsymbols with rfl | rfl
    · exact List.mem_append_left "*/" hc
    · exact List.mem_append_right "+-" hc
  obtain ⟨op, -, hop⟩ := hall c hmem
  exact ⟨op, hop⟩

theorem Tree.computeFrom_eq_error {operations : List (Text × Tree)}
    (hoperators : ∀ operation ∈ operations, ∃ op : Operator, operation.1 = op.symbol)
    (hoperands : ∀ operation ∈ operations, ∀ fault, operation.2.compute = .error fault →
      fault ∈ zeroDivisions ++ overflows) {value : Number}
    (h : computeFrom value operations = .error fault) : fault ∈ zeroDivisions ++ overflows := by
  induction operations generalizing value with
  | nil => simp [computeFrom] at h
  | cons operation operations ih =>
      obtain ⟨symbol, operand⟩ := operation
      obtain ⟨op, hop⟩ := hoperators (symbol, operand) (by simp)
      obtain rfl : symbol = op.symbol := hop
      rw [computeFrom_cons] at h
      rcases error_of_bind_eq_error h with hoperand | ⟨other, -, h⟩
      · exact hoperands (op.symbol, operand) (by simp) fault hoperand
      · rcases error_of_bind_eq_error h with happly | ⟨x, -, h⟩
        · exact Operator.apply_eq_error happly
        · exact ih (fun o ho => hoperators o (List.mem_cons_of_mem _ ho))
            (fun o ho => hoperands o (List.mem_cons_of_mem _ ho)) h

theorem Tree.Safe.compute_eq_error (h : t.Safe) (hfault : t.compute = .error fault) :
    fault ∈ zeroDivisions ++ overflows := by
  induction h generalizing fault with
  | number n => simp [compute] at hfault
  | chain hsymbols _ _ hoperators _ ihfirst ihoperands =>
      rw [compute] at hfault
      rcases error_of_bind_eq_error hfault with hfirst | ⟨value, -, hoperations⟩
      · exact ihfirst hfirst
      · refine computeFrom_eq_error (fun operation hmem => ?_) (fun o ho _ => ihoperands o ho)
          hoperations
        obtain ⟨c, hc, hsymbol⟩ := hoperators operation hmem
        obtain ⟨op, hop⟩ := exists_operator hsymbols hc
        exact ⟨op, hsymbol.trans hop⟩

/-! ### Exact values -/

/-- The exact result of an operation on integers, other than a division. -/
def Operator.exactValue? : Operator → Int → Int → Option Int
  | add, m, n => some (m + n)
  | sub, m, n => some (m - n)
  | mul, m, n => some (m * n)
  | div, _, _ => none

/-- The exact value of a formula without divisions. -/
def Formula.exactValue? : Formula → Option Int
  | .number n => some n
  | .operation op left right => do op.exactValue? (← left.exactValue?) (← right.exactValue?)

theorem Operator.apply_of_exactValue {op : Operator} {l m n : Int} (h : op.exactValue? l m = some n) :
    op.apply (.int l) (.int m) = .ok (.int n) := by
  cases op with
  | div => simp [exactValue?] at h
  | _ =>
      obtain rfl := Option.some.inj h
      rfl

theorem Formula.eval_of_exactValue {formula : Formula} {n : Int} (h : formula.exactValue? = some n) :
    formula.eval = .ok (.int n) := by
  induction formula generalizing n with
  | number m =>
      obtain rfl := Option.some.inj h
      rfl
  | operation op left right ihleft ihright =>
      obtain ⟨l, hleft, h⟩ := Option.bind_eq_some_iff.mp h
      obtain ⟨m, hright, h⟩ := Option.bind_eq_some_iff.mp h
      rw [eval, ihleft hleft, ihright hright]
      exact Operator.apply_of_exactValue h

theorem Written.exists_exactValue {precedence : Precedence} {formula : Formula}
    (h : Written precedence w formula) (hdivision : ('/' : CodePoint) ∉ w) :
    ∃ n, formula.exactValue? = some n := by
  -- whatever is not a division has an exact value if its operands have one
  have hoperation {op : Operator} {left right : Formula} (hop : op ≠ .div)
      (hleft : ∃ l, left.exactValue? = some l) (hright : ∃ m, right.exactValue? = some m) :
      ∃ n, (Formula.operation op left right).exactValue? = some n := by
    obtain ⟨l, hl⟩ := hleft
    obtain ⟨m, hm⟩ := hright
    simp only [Formula.exactValue?, hl, hm]
    cases op with
    | div => contradiction
    | _ => exact ⟨_, rfl⟩
  induction h with
  | number _ _ _ _ => exact ⟨_, rfl⟩
  | parenthesized _ _ _ _ _ ih => exact ih (by simp_all)
  | factor _ ih => exact ih hdivision
  | @multiplication w before after w' op left right _ _ _ _ _ ihleft ihright =>
      simp only [List.mem_append, not_or] at hdivision
      obtain ⟨hw, -, hsymbol, -, hw'⟩ := hdivision
      refine hoperation ?_ (ihleft hw) (ihright hw')
      rintro rfl
      exact hsymbol (by decide)
  | product _ ih => exact ih hdivision
  | @addition w before after w' op left right _ hop _ _ _ ihleft ihright =>
      simp only [List.mem_append, not_or] at hdivision
      obtain ⟨hw, -, -, -, hw'⟩ := hdivision
      refine hoperation ?_ (ihleft hw) (ihright hw')
      rintro rfl
      simp at hop

/-! ### Evaluating a text -/

theorem parse_ne_exhausted (text : Text) :
    (expression.apply [] (budget text)).parse text ≠ .exhausted := by
  have hends : (expression.apply [] (budget text)).EndsOn text :=
    endsBelow_expression _ text (by unfold budget; omega)
  exact fun h => hends (Parser.parse_eq_exhausted_iff.mp h)

/-- The fault of a run of decimal digits in the text that is too long for a numeral. -/
def OverlongRun (text : Text) (fault : Fault) : Prop :=
  ∃ digits, digits <:+: text ∧ (∀ c ∈ digits, c ∈ Alphabet.decimal) ∧
    Numeral.decimalLimit < digits.length ∧ fault = .tooManyDigits digits.length

theorem overlongRun_of_parse {limit : Nat}
    (h : (expression.apply [] limit).parse text = .raised fault) : OverlongRun text fault := by
  have hharmless : (expression.apply [] limit).Harmless True True := harmless_expression trivial
  obtain ⟨-, count, rfl, hcount, hlocated⟩ :=
    hharmless.overlong text fault (Parser.parse_eq_raised_iff.mp h)
  obtain ⟨rest, hsuffix, rfl⟩ := hlocated trivial
  have hprefix : rest.leadingDigits <+: rest := List.takeWhile_prefix _
  exact ⟨rest.leadingDigits, hprefix.isInfix.trans hsuffix.isInfix,
    fun c hc => mem_decimal_of_mem_leadingDigits hc, hcount, rfl⟩

theorem expression_of_parse {limit : Nat} {v : Value}
    (h : (expression.apply [] limit).parse text = .returned (.accepted v)) :
    ∃ t, v = t.toValue ∧ Expression text t := by
  have hreply := Parser.parse_eq_accepted_iff.mp h
  obtain ⟨w, t, hsplit, hvalue, hw⟩ := matchesIn_expression limit text v [] hreply
  obtain rfl : text = w := by simpa using hsplit
  exact ⟨t, hvalue, hw⟩

theorem evaluate_cases (text : Text) :
    (∃ fault, OverlongRun text fault ∧ evaluate text = .raised fault) ∨
      (∃ f, evaluate text = .returned (.malformed f)) ∨
      ∃ t, Expression text t ∧ evaluate text = ofComputation text t.compute := by
  cases hparse : (expression.apply [] (budget text)).parse text with
  | exhausted => exact absurd hparse (parse_ne_exhausted text)
  | raised fault =>
      refine .inl ⟨fault, overlongRun_of_parse hparse, ?_⟩
      rw [evaluate, hparse]
      rfl
  | returned verdict =>
      cases verdict with
      | rejected f => exact .inr (.inl ⟨f, evaluate_of_rejected hparse⟩)
      | accepted v =>
          obtain ⟨t, rfl, ht⟩ := expression_of_parse hparse
          exact .inr (.inr ⟨t, ht, evaluate_of_accepted hparse⟩)

/-- The limit of `evaluate` suffices for whatever another limit accepts. -/
theorem exists_expression_of_accepted {limit : Nat} {v : Value}
    (h : (expression.apply [] limit).parse text = .returned (.accepted v)) :
    ∃ t, Expression text t ∧ evaluate text = ofComputation text t.compute := by
  have hbudget := parse_eq_of_ends h (parse_ne_exhausted text)
  obtain ⟨t, rfl, ht⟩ := expression_of_parse hbudget
  exact ⟨t, ht, evaluate_of_accepted hbudget⟩

theorem ofComputation_ne_exhausted (text : Text) (computation : Except Fault Number) :
    ofComputation text computation ≠ .exhausted := by
  unfold ofComputation
  split <;> simp

theorem evaluate_ne_exhausted (text : Text) : evaluate text ≠ .exhausted := by
  rcases evaluate_cases text with ⟨fault, -, heval⟩ | ⟨f, heval⟩ | ⟨t, -, heval⟩
  · simp [heval]
  · simp [heval]
  · rw [heval]
    exact ofComputation_ne_exhausted _ _

theorem evaluate_eq_raised (h : evaluate text = .raised fault) :
    OverlongRun text fault ∨ fault ∈ overflows := by
  rcases evaluate_cases text with ⟨fault', hlong, heval⟩ | ⟨f, heval⟩ | ⟨t, ht, heval⟩
  · obtain rfl : fault' = fault := by simpa [heval] using h
    exact .inl hlong
  · simp [heval] at h
  · rw [heval] at h
    cases hcompute : t.compute with
    | ok n => simp [hcompute, ofComputation] at h
    | error fault' =>
        rw [hcompute] at h
        rcases List.mem_append.mp (ht.safe.compute_eq_error hcompute) with hzero | hlarge
        · simp [ofComputation_of_zeroDivision hzero] at h
        · obtain rfl : fault' = fault := by simpa [ofComputation_of_overflow hlarge] using h
          exact .inr hlarge

theorem Expression.exists_exactValue (h : Expression text t)
    (hdivision : ('/' : CodePoint) ∉ text) :
    ∃ formula n, Written .sum text formula ∧ formula.exactValue? = some n ∧
      ofComputation text t.compute = .returned (.value (.int n)) := by
  obtain ⟨formula, hformula, heval⟩ := h.exists_formula
  obtain ⟨n, hn⟩ := hformula.exists_exactValue hdivision
  refine ⟨formula, n, hformula, hn, ?_⟩
  rw [← heval, Formula.eval_of_exactValue hn]
  rfl

theorem evaluate_cases_of_no_division (hdivision : ('/' : CodePoint) ∉ text) :
    (∃ fault, OverlongRun text fault ∧ evaluate text = .raised fault) ∨
      (∃ f, evaluate text = .returned (.malformed f)) ∨
      ∃ n : Int, evaluate text = .returned (.value (.int n)) := by
  rcases evaluate_cases text with hlong | hmalformed | ⟨t, ht, heval⟩
  · exact .inl hlong
  · exact .inr (.inl hmalformed)
  · obtain ⟨-, n, -, -, hvalue⟩ := ht.exists_exactValue hdivision
    exact .inr (.inr ⟨n, heval.trans hvalue⟩)

/-- Every output of the grammar of expressions is a safe tree, and a safe tree only fails to compute
by a division by zero or a number that is too large.  So evaluating a text always ends, and it is
broken off only by a run of digits that is too long or by a number that is too large.  Without a
division in the text no number is too large, and an accepted text has the exact value of its
formula. -/
theorem trees_are_safe_to_compute :
    (∀ limit src v rest, expression.apply [] limit src = .returned (.success v rest) →
      ∃ t : Tree, v = t.toValue ∧ t.Safe) ∧
    (∀ t fault, Tree.Safe t → t.compute = .error fault → fault ∈ zeroDivisions ++ overflows) ∧
    ∀ text,
      evaluate text ≠ .exhausted ∧
      (∀ fault, evaluate text = .raised fault → OverlongRun text fault ∨ fault ∈ overflows) ∧
      (('/' : CodePoint) ∉ text →
        (∀ fault, evaluate text = .raised fault → OverlongRun text fault) ∧
        (∀ f, evaluate text ≠ .returned (.dividesByZero f)) ∧
        ∀ limit v, (expression.apply [] limit).parse text = .returned (.accepted v) →
          ∃ formula n, Written .sum text formula ∧ formula.exactValue? = some n ∧
            evaluate text = .returned (.value (.int n))) := by
  refine ⟨?_, fun t fault hsafe => hsafe.compute_eq_error, fun text => ?_⟩
  · intro limit src v rest happly
    obtain ⟨w, t, -, hvalue, hw⟩ := matchesIn_expression limit src v rest happly
    exact ⟨t, hvalue, hw.safe⟩
  refine ⟨evaluate_ne_exhausted text, fun _ => evaluate_eq_raised, fun hdivision => ?_⟩
  refine ⟨fun fault hraised => ?_, ?_, fun limit v haccepted => ?_⟩
  · rcases evaluate_cases_of_no_division hdivision with
      ⟨fault', hlong, heval⟩ | ⟨f, heval⟩ | ⟨n, heval⟩
    · obtain rfl : fault' = fault := by simpa [heval] using hraised
      exact hlong
    · simp [heval] at hraised
    · simp [heval] at hraised
  · rcases evaluate_cases_of_no_division hdivision with ⟨_, -, heval⟩ | ⟨_, heval⟩ | ⟨_, heval⟩ <;>
      simp [heval]
  · obtain ⟨t, ht, heval⟩ := exists_expression_of_accepted haccepted
    obtain ⟨formula, n, hformula, hn, hvalue⟩ := ht.exists_exactValue hdivision
    exact ⟨formula, n, hformula, hn, heval.trans hvalue⟩

theorem trees_are_safe_to_compute_product :
    (Tree.chain (.number 2) [("*", .chain (.number 3) [("-", .number 5)])]).Safe ∧
      ('/' : CodePoint) ∉ ("2*(3-5)" : Text) ∧
      ∃ formula, Written .sum "2*(3-5)" formula ∧ formula.exactValue? = some (-4) ∧
        evaluate "2*(3-5)" = .returned (.value (.int (-4))) := by
  set t : Tree := .chain (.number 2) [("*", .chain (.number 3) [("-", .number 5)])]
  have hrun : expression.apply [] (budget "2*(3-5)") "2*(3-5)" =
      .returned (.success t.toValue []) := by
    cbv
  have haccepted := Parser.parse_eq_accepted_iff.mpr hrun
  have hcompute : t.compute = .ok (.int (-4)) := by cbv
  have hvalue := evaluate_of_accepted haccepted
  rw [hcompute, ofComputation] at hvalue
  have hdivision : ('/' : CodePoint) ∉ ("2*(3-5)" : Text) := by decide
  obtain ⟨hsafe, -, htexts⟩ := trees_are_safe_to_compute
  obtain ⟨t', ht', hsafe'⟩ := hsafe _ _ _ _ hrun
  obtain ⟨-, -, hexact⟩ := htexts "2*(3-5)"
  obtain ⟨formula, n, hformula, hn, heval⟩ := (hexact hdivision).2.2 _ _ haccepted
  obtain rfl : t = t' := Tree.toValue_injective ht'
  obtain rfl : -4 = n := by simpa [hvalue] using heval
  exact ⟨hsafe', hdivision, formula, hformula, hn, hvalue⟩

end Descent.Arithmetic
