import Reckoner.Proofs.Calculator.Errors
import Reckoner.Proofs.Evaluation.Causes
import Reckoner.Proofs.Evaluation.Faults

/-!
# Which expressions can be evaluated

Whether an expression has a value can be told from its nodes, up to what only the numbers decide: a
divisor that is zero, and the remainder of an infinity. A calculation that succeeds has come to every
node of its tree, whatever the order of the operands, so no assignment and no unbound name is left out.
-/

set_option autoImplicit false

namespace Reckoner

namespace Expr

def IsComputable (pool : Pool) (tree : Expr) : Prop :=
  ∀ token ∈ tree.values .inorder, token.kind ≠ .operator .equal ∧
    (token.kind = .identifier → pool.contains token.lexeme = true)

/-- The root is a value or an operation other than the remainder, or an assignment to a name alone. -/
def HasAdmissibleRoot : Expr → Prop
  | .nil => False
  | .node root left _ =>
    isPlain root.kind = true ∨ root.kind = .operator .equal ∧
      ∃ name : Token, name.kind = .identifier ∧ left = .leaf name

def belowRoot : Expr → List Token
  | .nil => []
  | .node _ left right => left.values .inorder ++ right.values .inorder

structure Admissible (pool : Pool) (tree : Expr) : Prop where
  root : tree.HasAdmissibleRoot
  unnested : ∀ token ∈ tree.belowRoot, token.kind ≠ .operator .equal
  bound : ∀ part : Expr, tree.evaluatedPart? = some part → ∀ token ∈ part.values .inorder,
    token.kind = .identifier → pool.contains token.lexeme = true

variable {pool : Pool} {tree left right : Expr} {root : Token}

theorem leftFirst_eq_ok_iff {combine : Float → Float → Float}
    {first second : Except (Failure EvalError) Float} {value : Float} :
    leftFirst combine first second = .ok value ↔
      ∃ x : Float, first = .ok x ∧ ∃ y : Float, second = .ok y ∧ combine x y = value := by
  cases first <;> cases second <;> simp [leftFirst, bind, Except.bind, pure, Except.pure]

theorem divisorFirst_eq_ok {token : Token} {op : Operator}
    {dividend divisor : Except (Failure EvalError) Float} {value : Float}
    (h : divisorFirst token op dividend divisor = .ok value) :
    ∃ x : Float, dividend = .ok x ∧ ∃ y : Float, divisor = .ok y := by
  unfold divisorFirst at h
  obtain ⟨below, computed, h⟩ := bind_eq_ok_iff.1 h
  split at h
  · simp [failAt] at h
  · obtain ⟨above, computed', _⟩ := bind_eq_ok_iff.1 h
    exact ⟨above, computed', below, computed⟩

theorem operands_of_valueIn {value : Float} (isOperator : root.operator?.isSome = true)
    (h : valueIn pool (.node root left right) = .ok value) :
    root.kind ≠ .operator .equal ∧ (∃ x : Float, valueIn pool left = .ok x) ∧
      ∃ y : Float, valueIn pool right = .ok y := by
  cases kind : root.kind with
  | number | identifier | opening | closing => simp [Token.operator?, kind] at isOperator
  | operator op =>
    by_cases missing : left = .nil ∨ right = .nil
    · cases op <;> simp [valueIn, kind, missing, failAt] at h
    · cases op with
      | equal => simp [valueIn, kind, failAt] at h
      | plus | minus | star =>
        simp only [valueIn, kind, if_neg missing] at h
        obtain ⟨x, first, y, second, _⟩ := leftFirst_eq_ok_iff.1 h
        exact ⟨by simp, ⟨x, first⟩, y, second⟩
      | slash | percent =>
        simp only [valueIn, kind, if_neg missing] at h
        obtain ⟨x, dividend, y, divisor⟩ := divisorFirst_eq_ok h
        exact ⟨by simp, ⟨x, dividend⟩, y, divisor⟩

theorem isComputable_of_valueIn {value : Float} (shape : tree.WellShaped)
    (h : valueIn pool tree = .ok value) : tree.IsComputable pool := by
  induction shape generalizing value with
  | @value token kind =>
    simp only [IsComputable, Tree.leaf, Tree.values, Order.arrange, List.nil_append,
      List.append_nil, List.mem_singleton, forall_eq]
    refine ⟨by rcases kind with kind | kind <;> simp [kind], fun named => ?_⟩
    cases bound : pool.get? token.lexeme with
    | some stored => simp [Pool.contains, bound]
    | none => simp [Tree.leaf, valueIn, named, bound, failAt] at h
  | operation isOperator _ _ ihLeft ihRight =>
    obtain ⟨plain, ⟨_, first⟩, _, second⟩ := operands_of_valueIn isOperator h
    intro token inside
    simp only [Tree.values, Order.arrange, List.mem_append, List.mem_singleton] at inside
    rcases inside with (inLeft | rfl) | inRight
    · exact ihLeft first token inLeft
    · refine ⟨plain, fun named => ?_⟩
      simp [Token.operator?, named] at isOperator
    · exact ihRight second token inRight

theorem GroundsFor.eq_dividedByZero {cause : EvalCause} (h : GroundsFor pool tree cause)
    (computable : tree.IsComputable pool) : cause = .dividedByZero := by
  cases h with
  | zero => rfl
  | unbound inside named unbound =>
    have bound := (computable _ inside).2 named
    simp [Pool.contains, unbound] at bound
  | nested inside assigns => exact absurd assigns (computable _ inside).1

/-- The value of an admissible expression is that of its evaluated part, which can be computed. -/
theorem Admissible.exists_part (shape : tree.WellShaped) (h : tree.Admissible pool) :
    ∃ (part : Expr) (name : String), tree.evaluatedPart? = some part ∧ part.WellShaped ∧
      part.values .inorder ⊆ tree.values .inorder ∧ part.IsComputable pool ∧
      (evaluate pool tree).result = (valueIn pool part).map fun value => ⟨name, value⟩ := by
  obtain ⟨admitted, unnested, bound⟩ := h
  cases tree with
  | nil => exact absurd rfl shape.ne_nil
  | node root left right =>
    rcases admitted with plain | ⟨assigns, name, named, rfl⟩
    · have other := ne_equal_of_isPlain plain
      have part : evaluatedPart? (.node root left right) = some (.node root left right) := by
        simp [evaluatedPart?, other, plain]
      refine ⟨_, Pool.answer, part, shape, List.Subset.refl _, fun token inside => ?_, ?_⟩
      · refine ⟨?_, bound _ part token inside⟩
        simp only [Tree.values, Order.arrange, List.mem_append, List.mem_singleton] at inside
        rcases inside with (inLeft | rfl) | inRight
        · exact unnested token (List.mem_append_left _ inLeft)
        · exact other
        · exact unnested token (List.mem_append_right _ inRight)
      · rw [evaluate_of_isPlain plain, valueOf_eq_valueIn, if_neg shape.ne_nil]
    · have operands := shape.operands (by simp [Token.operator?, assigns])
      have part : evaluatedPart? (.node root (.leaf name) right) = some right := by
        simp [evaluatedPart?, assigns]
      refine ⟨right, name.lexeme, part, operands.2, fun token inside => ?_,
        fun token inside => ?_, ?_⟩
      · simp [Tree.values, Order.arrange, inside]
      · exact ⟨unnested token (List.mem_append_right _ inside), bound right part token inside⟩
      · rw [evaluate_of_equal assigns, valueOf_eq_valueIn, if_neg operands.2.ne_nil]
        rw [target_eq_ok_iff.2 ⟨name, named, rfl, rfl⟩]
        cases valueIn pool right <;> rfl

theorem admissible_of_evaluate {binding : Binding} (shape : tree.WellShaped)
    (h : (evaluate pool tree).result = .ok binding) : tree.Admissible pool := by
  cases tree with
  | nil => exact absurd rfl shape.ne_nil
  | node root left right =>
    by_cases assigns : root.kind = .operator .equal
    · have operands := shape.operands (by simp [Token.operator?, assigns])
      rw [evaluate_of_equal assigns, valueOf_eq_valueIn, if_neg operands.2.ne_nil,
        bind_eq_ok_iff] at h
      obtain ⟨value, computed, named⟩ := h
      obtain ⟨_, alone, _⟩ := map_eq_ok_iff.1 named
      obtain ⟨name, kind, rfl, _⟩ := target_eq_ok_iff.1 alone
      have computable := isComputable_of_valueIn operands.2 computed
      refine ⟨.inr ⟨assigns, name, kind, rfl⟩, fun token inside => ?_, fun part taken => ?_⟩
      · rcases List.mem_append.1 inside with target | inRight
        · simp only [Tree.leaf, Tree.values, Order.arrange, List.nil_append, List.append_nil,
            List.mem_singleton] at target
          simp [target, kind]
        · exact (computable token inRight).1
      · simp only [evaluatedPart?, assigns, if_true, Option.some.injEq] at taken
        subst taken
        exact fun token inside => (computable token inside).2
    · cases plain : isPlain root.kind with
      | false =>
        rw [evaluate_of_not_isPlain assigns plain] at h
        cases h
      | true =>
        rw [evaluate_of_isPlain plain, valueOf_eq_valueIn, if_neg shape.ne_nil,
          map_eq_ok_iff] at h
        obtain ⟨value, computed, _⟩ := h
        have computable := isComputable_of_valueIn shape computed
        refine ⟨.inl plain, fun token inside => (computable token ?_).1, fun part taken => ?_⟩
        · rcases List.mem_append.1 inside with inLeft | inRight
          · simp [Tree.values, Order.arrange, inLeft]
          · simp [Tree.values, Order.arrange, inRight]
        · simp only [evaluatedPart?, assigns, plain, if_false, if_true, Option.some.injEq] at taken
          subst taken
          exact fun token inside => (computable token inside).2

/-- An admissible expression of a text makes a binding, unless it divides by zero or divides an
infinity with remainder. Any other expression makes none. -/
theorem outcome_by_admissibility {text : String} (read : (ofText text).result = .ok tree)
    (pool : Pool) :
    (tree.Admissible pool →
      (∃ binding : Binding, (evaluate pool tree).result = .ok binding) ∨
      (∃ place : Span, (evaluate pool tree).result = failAt .dividedByZero place) ∨
      ((evaluate pool tree).result = .error (.fault .undefinedRemainder) ∧
        ∃ part : Expr, tree.evaluatedPart? = some part ∧ (substitute pool part).DividesInfinity)) ∧
    (¬ tree.Admissible pool →
      ∀ binding : Binding, (evaluate pool tree).result ≠ .ok binding) := by
  obtain ⟨tokens, scanned, parsed⟩ := ofText_eq_ok_iff.1 read
  have shape := wellShaped_of_parse parsed
  have proper := forall_values_of_parse parsed (Token.isProper_ofText scanned)
    fun _ _ value _ _ => Token.isProper_ofNumber value _
  constructor
  · intro admissible
    obtain ⟨part, name, _, partShape, within, computable, same⟩ := admissible.exists_part shape
    cases result : (evaluate pool tree).result with
    | ok binding => exact .inl ⟨binding, rfl⟩
    | error failure =>
      cases failure with
      | fault fault =>
        obtain ⟨rfl, divides⟩ := (evaluate_eq_fault_iff pool tree fault).1 result
        exact .inr (.inr ⟨rfl, divides⟩)
      | error e =>
        have failed : valueIn pool part = .error (.error e) := by
          rw [same, map_eq_error_iff] at result
          exact result
        have grounds := groundsFor_of_valueIn partShape
          (fun token inside => proper token (within inside)) failed
        have zero := grounds.eq_dividedByZero computable
        exact .inr (.inl ⟨e.span, by rw [failAt, ← zero]⟩)
  · intro inadmissible binding bound
    exact inadmissible (admissible_of_evaluate shape bound)

/-- The expression of `x = 6 / ans`. -/
def sixth : Expr :=
  .node equal (.leaf x) (.node slash (.leaf six) (.leaf answer))
where
  x : Token := ⟨.identifier, "x", ⟨0, 1⟩, none⟩
  equal : Token := ⟨.operator .equal, "=", ⟨2, 3⟩, none⟩
  six : Token := ⟨.number, "6", ⟨4, 5⟩, some 6.0⟩
  slash : Token := ⟨.operator .slash, "/", ⟨6, 7⟩, none⟩
  answer : Token := ⟨.identifier, "ans", ⟨8, 11⟩, none⟩

open sixth in
theorem admissible_sixth : sixth.Admissible .initial where
  root := .inr ⟨rfl, x, rfl, rfl⟩
  unnested := by decide
  bound := by
    intro part taken
    have right : part = .node slash (.leaf six) (.leaf answer) := (Option.some.inj taken).symm
    subst right
    decide

theorem outcome_sixth :
    (ofText "x = 6 / ans").result = .ok sixth ∧ sixth.Admissible .initial ∧
      (evaluate .initial sixth).result = failAt .dividedByZero ⟨6, 7⟩ ∧
      ((∃ binding : Binding, (evaluate .initial sixth).result = .ok binding) ∨
        (∃ place : Span, (evaluate .initial sixth).result = failAt .dividedByZero place) ∨
        ((evaluate .initial sixth).result = .error (.fault .undefinedRemainder) ∧
          ∃ part : Expr, sixth.evaluatedPart? = some part ∧
            (substitute .initial part).DividesInfinity)) := by
  have read : (ofText "x = 6 / ans").result = .ok sixth := by decide +kernel
  have zero : (evaluate .initial sixth).result = failAt .dividedByZero ⟨6, 7⟩ := by decide +kernel
  exact ⟨read, admissible_sixth, zero, (outcome_by_admissibility read .initial).1 admissible_sixth⟩

end Expr

end Reckoner
