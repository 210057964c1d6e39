import Descent.Proofs.Arithmetic.LeftNesting

/-!
# The first fault of a computation

The operations of a chain are applied from left to right, and the first one that breaks the
computation off decides which fault it is.  An operation does so by its symbol, by its operand or by
its result, and these are looked at in this order.  That is so for any symbols and operands, and
there are only three kinds of faults.
-/

namespace Descent.Arithmetic

namespace Operator

variable {symbol : Text}

theorem symbol_of_ofSymbol? {op : Operator} (h : ofSymbol? symbol = some op) :
    op.symbol = symbol := by
  simpa using List.find?_some h

theorem ofSymbol?_eq_none_iff : ofSymbol? symbol = none ↔ ∀ op : Operator, op.symbol ≠ symbol := by
  constructor
  · intro hnone op hop
    rw [← hop, ofSymbol?_symbol] at hnone
    contradiction
  · intro h
    cases hsome : ofSymbol? symbol with
    | none => rfl
    | some op => exact absurd (symbol_of_ofSymbol? hsome) (h op)

end Operator

namespace Tree

variable {symbol : Text} {operand first : Tree} {operations : List (Text × Tree)}
  {value x : Number} {fault : Fault}

/-- An operation breaks off a computation that has come to `x`.  Behind a symbol that is no operator
the operand does not matter. -/
inductive BreaksOff (x : Number) : Text → Tree → Fault → Prop
  | symbol {symbol : Text} {operand : Tree} (h : ∀ op : Operator, op.symbol ≠ symbol) :
      BreaksOff x symbol operand (.unknownOperator symbol)
  | operand {op : Operator} {operand : Tree} {fault : Fault}
      (h : operand.compute = .error fault) : BreaksOff x op.symbol operand fault
  | result {op : Operator} {operand : Tree} {y : Number} {fault : Fault}
      (hoperand : operand.compute = .ok y) (h : op.apply x y = .error fault) :
      BreaksOff x op.symbol operand fault

/-- Some operations can be computed, and the next one breaks the computation off. -/
def StopsWith (value : Number) (operations : List (Text × Tree)) (fault : Fault) : Prop :=
  ∃ before symbol operand after x, operations = before ++ (symbol, operand) :: after ∧
    computeFrom value before = .ok x ∧ BreaksOff x symbol operand fault

theorem computeFrom_singleton_eq_error_iff :
    computeFrom x [(symbol, operand)] = .error fault ↔ BreaksOff x symbol operand fault := by
  constructor
  · intro h
    cases hsymbol : Operator.ofSymbol? symbol with
    | none =>
        obtain rfl : Fault.unknownOperator symbol = fault := by simpa [computeFrom, hsymbol] using h
        exact .symbol (Operator.ofSymbol?_eq_none_iff.mp hsymbol)
    | some op =>
        obtain rfl := Operator.symbol_of_ofSymbol? hsymbol
        rw [computeFrom_singleton] at h
        rcases error_of_bind_eq_error h with hoperand | ⟨y, hoperand, hresult⟩
        · exact .operand hoperand
        · exact .result hoperand hresult
  · intro h
    cases h with
    | symbol h => simp [computeFrom, Operator.ofSymbol?_eq_none_iff.mpr h]
    | operand h =>
        rw [computeFrom_singleton, h]
        rfl
    | result hoperand h =>
        rw [computeFrom_singleton, hoperand]
        exact h

theorem computeFrom_cons_eq_bind
    (value : Number) (operation : Text × Tree) (operations : List (Text × Tree)) :
    computeFrom value (operation :: operations) = (do
      let x ← computeFrom value [operation]
      computeFrom x operations) :=
  computeFrom_append [operation] operations value

theorem computeFrom_eq_error_iff :
    computeFrom value operations = .error fault ↔ StopsWith value operations fault := by
  constructor
  · intro h
    induction operations generalizing value with
    | nil => simp [computeFrom] at h
    | cons operation operations ih =>
        rw [computeFrom_cons_eq_bind] at h
        rcases error_of_bind_eq_error h with hstep | ⟨y, hstep, hothers⟩
        · exact ⟨[], operation.1, operation.2, operations, value, rfl, by rw [computeFrom],
            computeFrom_singleton_eq_error_iff.mp hstep⟩
        · obtain ⟨before, symbol, operand, after, x, rfl, hbefore, hbreaks⟩ := ih hothers
          refine ⟨operation :: before, symbol, operand, after, x, rfl, ?_, hbreaks⟩
          rw [computeFrom_cons_eq_bind, hstep]
          exact hbefore
  · rintro ⟨before, symbol, operand, after, x, rfl, hbefore, hbreaks⟩
    have hstep := computeFrom_singleton_eq_error_iff.mpr hbreaks
    have hlast : computeFrom x ((symbol, operand) :: after) = .error fault := by
      rw [computeFrom_cons_eq_bind, hstep]
      rfl
    rw [computeFrom_append, hbefore]
    exact hlast

theorem compute_chain_eq_error_iff :
    (chain first operations).compute = .error fault ↔
      first.compute = .error fault ∨
        ∃ value, first.compute = .ok value ∧ StopsWith value operations fault := by
  rw [compute]
  cases hfirst : first.compute with
  | error fault' => simp [bind, Except.bind]
  | ok value => simp [bind, Except.bind, computeFrom_eq_error_iff]

/-- An unknown operator, a division by zero or a number that is too large. -/
def IsFault (fault : Fault) : Prop :=
  (∃ symbol, fault = .unknownOperator symbol) ∨ fault ∈ zeroDivisions ∨ fault ∈ overflows

mutual

theorem isFault_of_compute : (t : Tree) → ∀ fault, t.compute = .error fault → IsFault fault
  | .number n, fault, h => by simp [compute] at h
  | .chain first operations, fault, h => by
      rw [compute] at h
      rcases error_of_bind_eq_error h with hfirst | ⟨value, -, hoperations⟩
      · exact isFault_of_compute first fault hfirst
      · exact isFault_of_computeFrom operations value fault hoperations

theorem isFault_of_computeFrom :
    (operations : List (Text × Tree)) → ∀ value fault,
      computeFrom value operations = .error fault → IsFault fault
  | [], value, fault, h => by simp [computeFrom] at h
  | (symbol, operand) :: operations, value, fault, h => by
      rw [computeFrom_cons_eq_bind] at h
      rcases error_of_bind_eq_error h with hstep | ⟨x, -, hothers⟩
      · cases computeFrom_singleton_eq_error_iff.mp hstep with
        | symbol _ => exact .inl ⟨symbol, rfl⟩
        | operand h => exact isFault_of_compute operand fault h
        | result _ h => exact .inr (List.mem_append.mp (Operator.apply_eq_error h))
      · exact isFault_of_computeFrom operations x fault hothers

end

end Tree

end Descent.Arithmetic
