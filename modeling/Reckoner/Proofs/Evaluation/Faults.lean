import Reckoner.Proofs.Evaluation.Operations
import Reckoner.Proofs.Number.Remainder

/-!
# When evaluation ends in a fault

The one fault of an evaluation is the remainder of an infinite dividend by a number. It happens
exactly if the evaluation reaches such a remainder; every other evaluation has a value or an error.
-/

set_option autoImplicit false

namespace Reckoner

namespace Expr

/-- Calculation comes to the remainder of an infinity by a number other than zero. -/
def DividesInfinity (tree : Expr) : Prop :=
  ∃ (token : Token) (left right : Expr) (dividend divisor : Float),
    tree.Reaches (.node token left right) ∧ token.kind = .operator .percent ∧
    right.calculate = .ok divisor ∧ (divisor == 0.0) = false ∧ divisor.isNaN = false ∧
    left.calculate = .ok dividend ∧ dividend.isInf = true

theorem combined_eq_fault_iff {op : Operator} {first second : Float} {fault : Fault}
    (arithmetic : op ≠ .equal) (accepted : op.refuses first = false) :
    combined op first second = .error (.fault fault) ↔
      fault = .undefinedRemainder ∧ op = .percent ∧ second.isInf = true ∧
        first.isNaN = false := by
  cases op with
  | equal => exact absurd rfl arithmetic
  | plus | minus | star | slash => simp [combined, divided]
  | percent =>
    have undefined := Number.remainder?_eq_none_iff (x := second) accepted
    cases found : Number.remainder? second first with
    | none =>
      obtain ⟨infinite, number⟩ := undefined.1 found
      simp only [combined, divided, found, infinite, number, Except.error.injEq,
        Failure.fault.injEq, and_true]
      exact eq_comm
    | some value =>
      have defined : ¬ (second.isInf = true ∧ first.isNaN = false) := by
        rw [← undefined, found]
        exact Option.some_ne_none value
      simp only [combined, divided, found, reduceCtorEq, false_iff]
      rintro ⟨-, -, infinite⟩
      exact defined infinite

theorem dividesInfinity_operation_iff {token : Token} {op : Operator} {left right : Expr}
    (h : Operation token op left right) :
    DividesInfinity (.node token left right) ↔
      (earlier op left right).DividesInfinity ∨
        ∃ first : Float, (earlier op left right).calculate = .ok first ∧
          op.refuses first = false ∧
          ((later op left right).DividesInfinity ∨
            ∃ second : Float, (later op left right).calculate = .ok second ∧ op = .percent ∧
              second.isInf = true ∧ first.isNaN = false) := by
  constructor
  · rintro ⟨root, first, second, dividend, divisor, reached, percent, below⟩
    rcases (reaches_operation_iff h).1 reached with
      here | inner | ⟨value, computed, accepted, inner⟩
    · cases here
      obtain ⟨known, nonzero, number, above, infinite⟩ := below
      rw [h.kind, TokenKind.operator.injEq] at percent
      subst percent
      exact .inr ⟨divisor, known, nonzero, .inr ⟨dividend, above, rfl, infinite, number⟩⟩
    · exact .inl ⟨root, first, second, dividend, divisor, inner, percent, below⟩
    · exact .inr ⟨value, computed, accepted, .inl
        ⟨root, first, second, dividend, divisor, inner, percent, below⟩⟩
  · rintro (⟨root, first, second, dividend, divisor, inner, below⟩ |
      ⟨value, computed, accepted, ⟨root, first, second, dividend, divisor, inner, below⟩ |
        ⟨dividend, above, rfl, infinite, number⟩⟩)
    · exact ⟨root, first, second, dividend, divisor, .earlier h inner, below⟩
    · exact ⟨root, first, second, dividend, divisor, .later h computed accepted inner, below⟩
    · exact ⟨token, left, right, dividend, value, .here, h.kind, computed, accepted, number, above,
        infinite⟩

theorem calculate_eq_fault_iff (tree : Expr) (fault : Fault) :
    tree.calculate = .error (.fault fault) ↔
      fault = .undefinedRemainder ∧ tree.DividesInfinity := by
  induction tree using operation_induction with
  | simple tree simple =>
    have safe : tree.calculate ≠ .error (.fault fault) := by
      rcases calculate_of_not_operation simple with ⟨value, computed⟩ | ⟨cause, computed⟩
      · simp [computed]
      · simp [computed, failAt]
    have finite : ¬ tree.DividesInfinity := by
      rintro ⟨token, left, right, dividend, divisor, reached, percent, below, _, _, above, _⟩
      have root := reached.eq_of_not_operation simple
      refine simple token .percent left right root.symm ⟨percent, by decide, ?_, ?_⟩
      · rintro rfl
        cases above
      · rintro rfl
        cases below
    simp [safe, finite]
  | operation token op left right known ihEarlier ihLater =>
    -- The cases on both sides are the same: in the first operand, in the second, or here.
    rw [calculate_operation known, bind_eq_error_iff, ihEarlier,
      dividesInfinity_operation_iff known, and_or_left]
    apply or_congr Iff.rfl
    rw [← exists_and_left]
    apply exists_congr
    intro first
    cases accepted : op.refuses first with
    | true => simp [failAt]
    | false =>
      simp only [Bool.false_eq_true, if_false, bind_eq_error_iff, ihLater,
        combined_eq_fault_iff known.arithmetic accepted, true_and]
      grind

theorem not_dividesInfinity_nil : ¬ DividesInfinity .nil := by
  rintro ⟨_, _, _, _, _, reached, _⟩
  cases reached

theorem valueOf_eq_fault_iff (pool : Pool) (tree : Expr) (fault : Fault) :
    valueOf pool tree = .error (.fault fault) ↔
      fault = .undefinedRemainder ∧ (substitute pool tree).DividesInfinity := by
  cases tree with
  | nil =>
    have absent : ¬ (substitute pool .nil).DividesInfinity := not_dividesInfinity_nil
    simp [valueOf, present, Tree.isNil, Except.mapError, bind, Except.bind, absent]
  | node root left right => exact calculate_eq_fault_iff _ _

/-- The part of a tree that evaluation calculates, if its root can be evaluated: of an assignment
the right side. -/
def evaluatedPart? : Expr → Option Expr
  | .nil => none
  | .node root left right =>
    if root.kind = .operator .equal then some right
    else if isPlain root.kind then some (.node root left right)
    else none

theorem target_ne_fault (root : Token) (tree : Expr) (fault : Fault) :
    target root tree ≠ .error (.fault fault) := by
  cases tree with
  | nil => simp [target, failAt]
  | node token left right =>
    rw [target]
    split <;> simp [failAt]

/-- An evaluation ends in a fault just if its part, with the numbers of the pool put in, comes to
divide an infinity. -/
theorem evaluate_eq_fault_iff (pool : Pool) (tree : Expr) (fault : Fault) :
    (evaluate pool tree).result = .error (.fault fault) ↔
      fault = .undefinedRemainder ∧
        ∃ part : Expr, tree.evaluatedPart? = some part ∧
          (substitute pool part).DividesInfinity := by
  cases tree with
  | nil => simp [evaluate, evaluatedPart?, failAt]
  | node root left right =>
    by_cases assigns : root.kind = .operator .equal
    · rw [evaluate_of_equal assigns, bind_eq_error_iff, valueOf_eq_fault_iff]
      simp [evaluatedPart?, assigns, target_ne_fault]
    · cases plain : isPlain root.kind with
      | true =>
        rw [evaluate_of_isPlain plain, map_eq_error_iff, valueOf_eq_fault_iff]
        simp [evaluatedPart?, assigns, plain]
      | false =>
        rw [evaluate_of_not_isPlain assigns plain]
        simp [evaluatedPart?, assigns, plain, failAt]

end Expr

end Reckoner
