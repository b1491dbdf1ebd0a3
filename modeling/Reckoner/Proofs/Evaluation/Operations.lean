import Mathlib
import Reckoner.Expression.Evaluate

/-!
# What calculation does at a node

An operation computes one operand, may refuse its value, computes the other operand and combines
both values. Which operand comes first is a matter of the operator. Any other node is a value or an
error of its own. `Expr.calculate_operation` and `Expr.calculate_of_not_operation` say so, and
`Expr.Reaches` follows a calculation down the tree.
-/

set_option autoImplicit false

namespace Reckoner

theorem bind_eq_error_iff {Error Value Value' : Type} {first : Except Error Value}
    {next : Value → Except Error Value'} {e : Error} :
    first.bind next = .error e ↔
      first = .error e ∨ ∃ value : Value, first = .ok value ∧ next value = .error e := by
  cases first <;> simp [Except.bind]

theorem bind_eq_ok_iff {Error Value Value' : Type} {first : Except Error Value}
    {next : Value → Except Error Value'} {value' : Value'} :
    first.bind next = .ok value' ↔
      ∃ value : Value, first = .ok value ∧ next value = .ok value' := by
  cases first <;> simp [Except.bind]

@[simp] theorem map_eq_error_iff {Error Value Value' : Type} {result : Except Error Value}
    {f : Value → Value'} {e : Error} : result.map f = .error e ↔ result = .error e := by
  cases result <;> simp [Except.map]

@[simp] theorem map_eq_ok_iff {Error Value Value' : Type} {result : Except Error Value}
    {f : Value → Value'} {value' : Value'} :
    result.map f = .ok value' ↔ ∃ value : Value, result = .ok value ∧ f value = value' := by
  cases result <;> simp [Except.map]

namespace Operator

/-- The operators whose right operand, the divisor, is computed before the left one. -/
def isDivision : Operator → Bool
  | slash | percent => true
  | plus | minus | star | equal => false

def refuses (op : Operator) (value : Float) : Bool := op.isDivision && value == 0.0

end Operator

namespace Expr

theorem failAt_eq_error_iff {Value : Type} {cause : EvalCause} {span : Span} {e : EvalError} :
    (failAt cause span : Except (Failure EvalError) Value) = .error (.error e) ↔
      e = ⟨cause, span⟩ := by
  simp [failAt, eq_comm]

theorem divided_ne_error {op : Operator} {dividend divisor : Float} {e : EvalError} :
    divided op dividend divisor ≠ .error (.error e) := by
  unfold divided
  split
  · split <;> simp
  · simp

theorem target_eq_ok_iff {root : Token} {left : Expr} {name : String} :
    target root left = .ok name ↔
      ∃ token : Token, token.kind = .identifier ∧ left = .leaf token ∧ token.lexeme = name := by
  cases left with
  | nil => simp [target, failAt, Tree.leaf]
  | node token below beside =>
    rw [target]
    by_cases alone : token.kind = .identifier ∧ below.isNil ∧ beside.isNil
    · rw [if_pos alone]
      obtain ⟨kind, noneBelow, noneBeside⟩ := alone
      simp [kind, Tree.isNil_iff.1 noneBelow, Tree.isNil_iff.1 noneBeside, Tree.leaf]
    · rw [if_neg alone]
      simp only [failAt, reduceCtorEq, false_iff]
      rintro ⟨other, kind, single, _⟩
      cases single
      exact alone ⟨kind, rfl, rfl⟩

def earlier (op : Operator) (left right : Expr) : Expr := if op.isDivision then right else left

def later (op : Operator) (left right : Expr) : Expr := if op.isDivision then left else right

/-- What an operator makes of both values, in the order in which they are computed. -/
def combined (op : Operator) (first second : Float) : Except (Failure EvalError) Float :=
  match op with
  | .plus => .ok (first + second)
  | .minus => .ok (first - second)
  | .star => .ok (first * second)
  | .slash | .percent | .equal => divided op second first

structure Operation (token : Token) (op : Operator) (left right : Expr) : Prop where
  kind : token.kind = .operator op
  arithmetic : op ≠ .equal
  left_ne_nil : left ≠ .nil
  right_ne_nil : right ≠ .nil

def place : Expr → Span
  | .nil => .empty
  | .node token _ _ => token.span

theorem calculate_operation {token : Token} {op : Operator} {left right : Expr}
    (h : Operation token op left right) :
    calculate (.node token left right) =
      (calculate (earlier op left right)).bind fun first =>
        if op.refuses first then failAt .dividedByZero token.span
        else (calculate (later op left right)).bind fun second => combined op first second := by
  obtain ⟨kind, arithmetic, leftHere, rightHere⟩ := h
  have present : (left.isNil || right.isNil) = false := by
    simp [Bool.eq_false_iff, leftHere, rightHere]
  rw [calculate]
  cases op with
  | equal => exact absurd rfl arithmetic
  | plus | minus | star =>
    simp only [kind, present, Bool.false_eq_true, if_false]
    rfl
  | slash | percent =>
    simp only [kind, present, Bool.false_eq_true, if_false, earlier, later, Operator.isDivision,
      if_true]
    cases calculate right with
    | error e => rfl
    | ok divisor =>
      cases zero : divisor == 0.0 <;>
        simp [Operator.refuses, Operator.isDivision, combined, zero, bind, Except.bind]

theorem calculate_of_not_operation {tree : Expr}
    (h : ∀ token op left right, tree = .node token left right → ¬ Operation token op left right) :
    (∃ value : Float, calculate tree = .ok value) ∨
      ∃ cause : EvalCause, calculate tree = failAt cause tree.place := by
  cases tree with
  | nil => exact .inr ⟨_, rfl⟩
  | node token left right =>
    rw [calculate, place]
    cases kind : token.kind with
    | number =>
      cases token.number with
      | some value => exact .inl ⟨value, rfl⟩
      | none => exact .inr ⟨_, rfl⟩
    | identifier | opening | closing => exact .inr ⟨_, rfl⟩
    | operator op =>
      by_cases assigns : op = .equal
      · subst assigns
        exact .inr ⟨_, rfl⟩
      · have missing : (left.isNil || right.isNil) = true := by
          rw [Bool.or_eq_true, Tree.isNil_iff, Tree.isNil_iff]
          refine Decidable.byContradiction fun present => ?_
          rw [not_or] at present
          exact h token op left right rfl ⟨kind, assigns, present.1, present.2⟩
        refine .inr ⟨.operandMissing token.lexeme, ?_⟩
        cases op <;> first | exact absurd rfl assigns | simp [missing]

/-- Calculating the first tree comes to calculate the second. -/
inductive Reaches : Expr → Expr → Prop where
  | here {tree : Expr} : Reaches tree tree
  | earlier {token : Token} {op : Operator} {left right inner : Expr} :
    Operation token op left right → Reaches (earlier op left right) inner →
    Reaches (.node token left right) inner
  | later {token : Token} {op : Operator} {left right inner : Expr} {value : Float} :
    Operation token op left right → calculate (Expr.earlier op left right) = .ok value →
    op.refuses value = false → Reaches (later op left right) inner →
    Reaches (.node token left right) inner

theorem reaches_operation_iff {token : Token} {op : Operator} {left right inner : Expr}
    (h : Operation token op left right) :
    Reaches (.node token left right) inner ↔
      inner = .node token left right ∨ (Expr.earlier op left right).Reaches inner ∨
        ∃ value : Float, calculate (Expr.earlier op left right) = .ok value ∧
          op.refuses value = false ∧ (Expr.later op left right).Reaches inner := by
  have same {other : Operator} (again : Operation token other left right) : other = op := by
    have := again.kind
    rw [h.kind, TokenKind.operator.injEq] at this
    exact this.symm
  constructor
  · intro reached
    cases reached with
    | here => exact .inl rfl
    | earlier again reached =>
      cases same again
      exact .inr (.inl reached)
    | later again computed accepted reached =>
      cases same again
      exact .inr (.inr ⟨_, computed, accepted, reached⟩)
  · rintro (rfl | reached | ⟨value, computed, accepted, reached⟩)
    · exact .here
    · exact .earlier h reached
    · exact .later h computed accepted reached

theorem Reaches.eq_of_not_operation {tree inner : Expr} (reached : tree.Reaches inner)
    (h : ∀ token op left right, tree = .node token left right → ¬ Operation token op left right) :
    inner = tree := by
  cases reached with
  | here => rfl
  | earlier operation | later operation => exact absurd operation (h _ _ _ _ rfl)

/-- Induction along operations, whatever the order of their operands. -/
theorem operation_induction {motive : Expr → Prop}
    (simple : ∀ tree : Expr, (∀ token op left right, tree = .node token left right →
      ¬ Operation token op left right) → motive tree)
    (operation : ∀ (token : Token) (op : Operator) (left right : Expr),
      Operation token op left right → motive (earlier op left right) →
      motive (later op left right) → motive (.node token left right))
    (tree : Expr) : motive tree := by
  induction tree with
  | nil => exact simple _ (by simp)
  | node token left right ihLeft ihRight =>
    by_cases known : ∃ op, Operation token op left right
    · obtain ⟨op, known⟩ := known
      apply operation token op left right known
      · unfold earlier
        split
        · exact ihRight
        · exact ihLeft
      · unfold later
        split
        · exact ihLeft
        · exact ihRight
    · apply simple
      rintro _ op _ _ same holds
      cases same
      exact known ⟨op, holds⟩

/-- The roots of formulas that are evaluated as a whole. -/
def isPlain : TokenKind → Bool
  | .number | .identifier => true
  | .operator op => op ≠ .equal && op ≠ .percent
  | .opening | .closing => false

theorem ne_equal_of_isPlain {kind : TokenKind} (plain : isPlain kind = true) :
    kind ≠ .operator .equal := by
  rintro rfl
  cases plain

section Evaluate

variable {pool : Pool} {root : Token} {left right : Expr}

theorem evaluate_assignment (assigns : root.kind = .operator .equal) :
    evaluate pool (.node root left right) =
      { tree := .node root left (substitute pool right)
        substituted := substitutions pool right
        result := (valueOf pool right).bind fun value =>
          (target root left).map fun name => ⟨name, value⟩ } := by
  rw [evaluate, assigns]
  rfl

theorem evaluate_whole (plain : isPlain root.kind = true) :
    evaluate pool (.node root left right) =
      { tree := substitute pool (.node root left right)
        substituted := substitutions pool (.node root left right)
        result := (valueOf pool (.node root left right)).map fun value =>
          ⟨Pool.answer, value⟩ } := by
  rw [evaluate]
  cases kind : root.kind with
  | number | identifier => rfl
  | opening | closing => rw [kind] at plain; cases plain
  | operator op =>
    rw [kind] at plain
    cases op with
    | equal | percent => cases plain
    | plus | minus | star | slash => rfl

theorem evaluate_unsupported (assigns : root.kind ≠ .operator .equal)
    (plain : isPlain root.kind = false) :
    evaluate pool (.node root left right) =
      ⟨.node root left right, [], failAt .unsupportedRoot root.span⟩ := by
  rw [evaluate]
  cases kind : root.kind with
  | number | identifier => rw [kind] at plain; cases plain
  | opening | closing => rfl
  | operator op =>
    rw [kind] at plain
    cases op with
    | equal => exact absurd kind assigns
    | percent => rfl
    | plus | minus | star | slash => cases plain

theorem evaluate_of_equal (assigns : root.kind = .operator .equal) :
    (evaluate pool (.node root left right)).result =
      (valueOf pool right).bind fun value =>
        (target root left).map fun name => ⟨name, value⟩ := by
  rw [evaluate_assignment assigns]

theorem evaluate_of_isPlain (plain : isPlain root.kind = true) :
    (evaluate pool (.node root left right)).result =
      (valueOf pool (.node root left right)).map fun value => ⟨Pool.answer, value⟩ := by
  rw [evaluate_whole plain]

theorem evaluate_of_not_isPlain (assigns : root.kind ≠ .operator .equal)
    (plain : isPlain root.kind = false) :
    (evaluate pool (.node root left right)).result = failAt .unsupportedRoot root.span := by
  rw [evaluate_unsupported assigns plain]

end Evaluate

end Expr

end Reckoner
