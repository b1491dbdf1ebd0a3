import Reckoner.Proofs.Evaluation.Environment
import Reckoner.Proofs.Grammar.Shape
import Reckoner.Proofs.Token.Lexemes

/-!
# What can be wrong with a whole tree

Where every operator has its operands and every number has its value, evaluation can only find a
name without a value, a divisor that is zero, or an assignment that is out of place. The errors of
incomplete trees do not occur.
-/

set_option autoImplicit false

namespace Reckoner

namespace Expr

def evaluationKinds : List ErrorKind := [.undefinedVariable, .zeroDiv, .invalidFormula]

theorem leftFirst_eq_error_iff {combine : Float → Float → Float}
    {left right : Except (Failure EvalError) Float} {failure : Failure EvalError} :
    leftFirst combine left right = .error failure ↔
      left = .error failure ∨ ∃ first : Float, left = .ok first ∧ right = .error failure := by
  cases left <;> cases right <;> simp [leftFirst, bind, Except.bind, pure, Except.pure]

theorem divisorFirst_eq_error {token : Token} {op : Operator}
    {dividend divisor : Except (Failure EvalError) Float} {e : EvalError}
    (h : divisorFirst token op dividend divisor = .error (.error e)) :
    divisor = .error (.error e) ∨ dividend = .error (.error e) ∨ e.cause = .dividedByZero := by
  unfold divisorFirst at h
  cases divisor with
  | error failure => exact .inl h
  | ok below =>
    cases zero : below == 0.0 with
    | true =>
      simp only [bind, Except.bind, zero, if_true] at h
      obtain rfl := failAt_eq_error_iff.1 h
      exact .inr (.inr rfl)
    | false =>
      cases dividend with
      | error failure =>
        simp only [bind, Except.bind, zero, Bool.false_eq_true, if_false] at h
        exact .inr (.inl h)
      | ok above =>
        simp only [bind, Except.bind, zero, Bool.false_eq_true, if_false] at h
        exact absurd h divided_ne_error

variable {pool : Pool} {tree : Expr} {e : EvalError}

/-- What in a tree can cause an error once all operands and values are there. -/
inductive GroundsFor (pool : Pool) (tree : Expr) : EvalCause → Prop where
  | zero : GroundsFor pool tree .dividedByZero
  | unbound {token : Token} : token ∈ tree.values .inorder → token.kind = .identifier →
    pool.get? token.lexeme = none → GroundsFor pool tree (.undefinedVariable token.lexeme)
  | nested {token : Token} : token ∈ tree.values .inorder → token.kind = .operator .equal →
    GroundsFor pool tree .nestedAssignment

theorem GroundsFor.mono {inner : Expr} {cause : EvalCause} (h : inner.GroundsFor pool cause)
    (within : inner.values .inorder ⊆ tree.values .inorder) : tree.GroundsFor pool cause := by
  cases h with
  | zero => exact .zero
  | unbound inside named unbound => exact .unbound (within inside) named unbound
  | nested inside assigns => exact .nested (within inside) assigns

theorem GroundsFor.kind_mem {cause : EvalCause} (h : tree.GroundsFor pool cause) :
    cause.kind ∈ evaluationKinds := by
  cases h <;> simp [evaluationKinds, EvalCause.kind]

theorem groundsFor_of_valueIn (shape : tree.WellShaped)
    (proper : ∀ token ∈ tree.values .inorder, token.IsProper)
    (h : valueIn pool tree = .error (.error e)) : tree.GroundsFor pool e.cause := by
  induction shape with
  | @value token kind =>
    have here : token ∈ (Tree.leaf token).values .inorder := by
      simp [Tree.leaf, Tree.values, Order.arrange]
    rcases kind with kind | kind
    · obtain ⟨value, carried⟩ := Option.isSome_iff_exists.1 ((proper token here).isSome_number kind)
      simp [Tree.leaf, valueIn, kind, carried] at h
    · cases bound : pool.get? token.lexeme with
      | some value => simp [Tree.leaf, valueIn, kind, bound] at h
      | none =>
        simp only [Tree.leaf, valueIn, kind, bound] at h
        obtain rfl := failAt_eq_error_iff.1 h
        exact .unbound here kind bound
  | @operation token left right isOperator leftShape rightShape ihLeft ihRight =>
    have here : token ∈ (Tree.node token left right).values .inorder := by
      simp [Tree.values, Order.arrange]
    have inLeft : left.values .inorder ⊆ (Tree.node token left right).values .inorder := by
      intro other inside
      simp [Tree.values, Order.arrange, inside]
    have inRight : right.values .inorder ⊆ (Tree.node token left right).values .inorder := by
      intro other inside
      simp [Tree.values, Order.arrange, inside]
    have failsLeft (failed : valueIn pool left = .error (.error e)) :=
      (ihLeft (fun other inside => proper other (inLeft inside)) failed).mono inLeft
    have failsRight (failed : valueIn pool right = .error (.error e)) :=
      (ihRight (fun other inside => proper other (inRight inside)) failed).mono inRight
    have complete : ¬ (left = .nil ∨ right = .nil) := by
      simp [leftShape.ne_nil, rightShape.ne_nil]
    have operands (combine : Float → Float → Float)
        (h : leftFirst combine (valueIn pool left) (valueIn pool right) = .error (.error e)) :
        GroundsFor pool (.node token left right) e.cause := by
      rcases leftFirst_eq_error_iff.1 h with first | ⟨_, _, second⟩
      · exact failsLeft first
      · exact failsRight second
    have division (op : Operator)
        (h : divisorFirst token op (valueIn pool left) (valueIn pool right) =
          .error (.error e)) : GroundsFor pool (.node token left right) e.cause := by
      rcases divisorFirst_eq_error h with below | above | zero
      · exact failsRight below
      · exact failsLeft above
      · exact zero ▸ .zero
    cases kind : token.kind with
    | number | identifier | opening | closing => simp [Token.operator?, kind] at isOperator
    | operator op =>
      cases op with
      | equal =>
        simp only [valueIn, kind] at h
        obtain rfl := failAt_eq_error_iff.1 h
        exact .nested here kind
      | plus | minus | star =>
        simp only [valueIn, kind, if_neg complete] at h
        exact operands _ h
      | slash | percent =>
        simp only [valueIn, kind, if_neg complete] at h
        exact division _ h

theorem kind_of_valueOf (shape : tree.WellShaped)
    (proper : ∀ token ∈ tree.values .inorder, token.IsProper)
    (h : valueOf pool tree = .error (.error e)) : e.cause.kind ∈ evaluationKinds := by
  rw [valueOf_eq_valueIn, if_neg shape.ne_nil] at h
  exact (groundsFor_of_valueIn shape proper h).kind_mem

theorem kind_of_target {root : Token} {left : Expr} (h : target root left = .error (.error e)) :
    e.cause.kind ∈ evaluationKinds := by
  cases left with
  | nil =>
    obtain rfl := failAt_eq_error_iff.1 h
    simp [evaluationKinds, EvalCause.kind]
  | node token first second =>
    rw [target] at h
    split at h
    · cases h
    · obtain rfl := failAt_eq_error_iff.1 h
      simp [evaluationKinds, EvalCause.kind]

theorem kind_of_evaluate (shape : tree.WellShaped)
    (proper : ∀ token ∈ tree.values .inorder, token.IsProper)
    (h : (evaluate pool tree).result = .error (.error e)) :
    e.cause.kind ∈ evaluationKinds := by
  cases tree with
  | nil => exact absurd rfl shape.ne_nil
  | node root left right =>
    by_cases assigns : root.kind = .operator .equal
    · have operands := shape.operands (by simp [Token.operator?, assigns])
      rw [evaluate_of_equal assigns, bind_eq_error_iff] at h
      rcases h with value | ⟨_, _, unnamed⟩
      · apply kind_of_valueOf operands.2 _ value
        intro token inside
        exact proper token (by simp [Tree.values, Order.arrange, inside])
      · rw [map_eq_error_iff] at unnamed
        exact kind_of_target unnamed
    · cases plain : isPlain root.kind with
      | true =>
        rw [evaluate_of_isPlain plain, map_eq_error_iff] at h
        exact kind_of_valueOf shape proper h
      | false =>
        rw [evaluate_of_not_isPlain assigns plain] at h
        obtain rfl := failAt_eq_error_iff.1 h
        simp [evaluationKinds, EvalCause.kind]

end Expr

end Reckoner
