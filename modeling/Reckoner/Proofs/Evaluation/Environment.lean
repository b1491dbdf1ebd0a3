import Reckoner.Proofs.Evaluation.Operations

/-!
# Evaluation in an environment

`Expr.evaluateIn` computes a tree in a pool without changing it: a name is looked up where the
calculation comes to it. Putting the numbers of the pool into the tree beforehand, below leaves and
in operands that are never computed as well, gives the same results and the same errors.
-/

set_option autoImplicit false

namespace Reckoner

namespace Token

theorem substitute_of_not_identifier (pool : Pool) {t : Token} (h : t.kind ≠ .identifier) :
    t.substitute pool = t := by
  simp [substitute, binding?, h]

theorem substitute_of_bound {pool : Pool} {t : Token} {value : Float} (h : t.kind = .identifier)
    (bound : pool.get? t.lexeme = some value) : t.substitute pool = .ofNumber value t.span := by
  simp [substitute, binding?, h, bound]

theorem substitute_of_unbound {pool : Pool} {t : Token} (unbound : pool.get? t.lexeme = none) :
    t.substitute pool = t := by
  simp [substitute, binding?, unbound]

end Token

namespace Expr

def leftFirst (combine : Float → Float → Float) (left right : Except (Failure EvalError) Float) :
    Except (Failure EvalError) Float := do
  let first ← left
  let second ← right
  return combine first second

/-- Both operands, the divisor first, which must not be zero. -/
def divisorFirst (token : Token) (op : Operator)
    (dividend divisor : Except (Failure EvalError) Float) : Except (Failure EvalError) Float := do
  let below ← divisor
  if below == 0.0 then failAt .dividedByZero token.span
  else
    let above ← dividend
    divided op above below

/-- The value of a tree. Names have the values that the pool gives them, and an operation has one
only if both of its operands are there. -/
def valueIn (pool : Pool) : Expr → Except (Failure EvalError) Float
  | .nil => failAt .subtreeMissing .empty
  | .node token left right =>
    match token.kind with
    | .number =>
      match token.number with
      | some value => .ok value
      | none => failAt (.numberWithoutValue token.lexeme) token.span
    | .identifier =>
      match pool.get? token.lexeme with
      | some value => .ok value
      | none => failAt (.undefinedVariable token.lexeme) token.span
    | .opening | .closing => failAt (.unexpectedToken token) token.span
    | .operator .equal => failAt .nestedAssignment token.span
    | .operator op =>
      if left = .nil ∨ right = .nil then failAt (.operandMissing token.lexeme) token.span
      else
        match op with
        | .plus => leftFirst (· + ·) (valueIn pool left) (valueIn pool right)
        | .minus => leftFirst (· - ·) (valueIn pool left) (valueIn pool right)
        | .star => leftFirst (· * ·) (valueIn pool left) (valueIn pool right)
        | _ => divisorFirst token op (valueIn pool left) (valueIn pool right)

/-- The binding that a tree makes: of an assignment the right side is computed, and then the left
side has to be a name alone. -/
def evaluateIn (pool : Pool) : Expr → Except (Failure EvalError) Binding
  | .nil => failAt .noTree .empty
  | .node root left right =>
    if root.kind = .operator .equal then
      if right = .nil then failAt .nothingToEvaluate .empty
      else do
        let value ← valueIn pool right
        match left with
        | .nil => failAt .targetMissing root.span
        | .node name below beside =>
          if name.kind = .identifier ∧ below = .nil ∧ beside = .nil then
            return ⟨name.lexeme, value⟩
          else failAt .targetNotVariable name.span
    else if isPlain root.kind then do
      let value ← valueIn pool (.node root left right)
      return ⟨Pool.answer, value⟩
    else failAt .unsupportedRoot root.span

theorem substitute_node (pool : Pool) (token : Token) (left right : Expr) :
    substitute pool (.node token left right) =
      .node (token.substitute pool) (substitute pool left) (substitute pool right) := rfl

/-- Calculation comes to the same whether names are replaced before or looked up on the way. -/
theorem calculate_substitute (pool : Pool) (tree : Expr) :
    calculate (substitute pool tree) = valueIn pool tree := by
  induction tree with
  | nil => rfl
  | node token left right ihLeft ihRight =>
    rw [substitute_node]
    by_cases named : token.kind = .identifier
    · cases bound : pool.get? token.lexeme with
      | some value =>
        rw [Token.substitute_of_bound named bound]
        simp [calculate, valueIn, Token.ofNumber, named, bound]
      | none =>
        rw [Token.substitute_of_unbound bound]
        simp [calculate, valueIn, named, bound]
    · rw [Token.substitute_of_not_identifier pool named, calculate, valueIn]
      have absent : ((substitute pool left).isNil || (substitute pool right).isNil) = true ↔
          left = .nil ∨ right = .nil := by
        simp [substitute]
      cases kind : token.kind with
      | number | opening | closing => rfl
      | identifier => exact absurd kind named
      | operator op =>
        by_cases missing : left = .nil ∨ right = .nil
        · cases op <;> simp only [if_pos missing, if_pos (absent.2 missing)]
        · have complete := mt absent.1 missing
          cases op <;> simp only [if_neg missing, if_neg complete, ihLeft, ihRight] <;> rfl

theorem valueOf_eq_valueIn (pool : Pool) (tree : Expr) :
    valueOf pool tree =
      if tree = .nil then failAt .nothingToEvaluate .empty else valueIn pool tree := by
  cases tree with
  | nil => rfl
  | node root left right =>
    rw [if_neg (by simp), ← calculate_substitute]
    rfl

theorem evaluate_leaf {pool : Pool} {token : Token} (h : token.kind = .identifier) :
    (evaluate pool (.leaf token)).result =
      match pool.get? token.lexeme with
      | some value => .ok ⟨Pool.answer, value⟩
      | none => failAt (.undefinedVariable token.lexeme) token.span := by
  have plain : isPlain token.kind = true := by
    rw [h]
    rfl
  rw [Tree.leaf, evaluate_of_isPlain plain, valueOf_eq_valueIn, if_neg (by simp), valueIn, h]
  cases pool.get? token.lexeme <;> rfl

/-- Evaluation, which puts the numbers of the pool into the tree and calculates then, has the
binding or the error of the direct evaluation in that pool, for whole trees and for others. -/
theorem evaluate_eq_evaluateIn (pool : Pool) (tree : Expr) :
    (evaluate pool tree).result = evaluateIn pool tree := by
  cases tree with
  | nil => rfl
  | node root left right =>
    rw [evaluateIn]
    by_cases assigns : root.kind = .operator .equal
    · rw [if_pos assigns, evaluate_of_equal assigns, valueOf_eq_valueIn]
      by_cases missing : right = .nil
      · rw [if_pos missing, if_pos missing]
        rfl
      · rw [if_neg missing, if_neg missing]
        cases valueIn pool right with
        | error failure => rfl
        | ok value =>
          cases left with
          | nil => rfl
          | node name below beside =>
            by_cases alone : name.kind = .identifier ∧ below = .nil ∧ beside = .nil
            · simp [Except.bind, bind, target, alone, Except.map, pure, Except.pure]
            · simp [Except.bind, bind, target, alone, Except.map, failAt]
    · rw [if_neg assigns]
      cases plain : isPlain root.kind with
      | true =>
        rw [if_pos rfl, evaluate_of_isPlain plain, valueOf_eq_valueIn, if_neg (by simp)]
        cases valueIn pool (.node root left right) <;> rfl
      | false => exact evaluate_of_not_isPlain assigns plain

end Expr

end Reckoner
