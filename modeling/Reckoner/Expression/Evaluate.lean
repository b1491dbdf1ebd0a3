import Reckoner.Expression.Parse
import Reckoner.Number.Remainder
import Reckoner.Pool

/-!
Evaluation against a pool, in two steps: `Expr.substitute` puts numbers in place of the bound
names, and `Expr.calculate` computes what remains. The outcome keeps the tree after substitution
and the substitutions in the order of the nodes. Of an assignment only the right side takes part.
-/

set_option autoImplicit false

namespace Reckoner

namespace Token

def binding? (pool : Pool) (t : Token) : Option Binding :=
  if t.kind = .identifier then (pool.get? t.lexeme).map (⟨t.lexeme, ·⟩) else none

def substitute (pool : Pool) (t : Token) : Token :=
  match t.binding? pool with
  | some b => .ofNumber b.value t.span
  | none => t

end Token

namespace Expr

def substitute (pool : Pool) (tree : Expr) : Expr := tree.map (Token.substitute pool)

def substitutions (pool : Pool) (tree : Expr) : List Binding :=
  (tree.values .preorder).filterMap (Token.binding? pool)

def failAt {Value : Type} (cause : EvalCause) (span : Span) :
    Except (Failure EvalError) Value :=
  .error (.error ⟨cause, span⟩)

/-- The quotient or remainder by a divisor that is not zero. -/
def divided (op : Operator) (dividend divisor : Float) : Except (Failure EvalError) Float :=
  match op with
  | .percent =>
    match Number.remainder? dividend divisor with
    | some value => .ok value
    | none => .error (.fault .undefinedRemainder)
  | _ => .ok (dividend / divisor)

/-- A divisor is computed, and refused if it is zero, before its dividend. -/
def calculate : Expr → Except (Failure EvalError) Float
  | .nil => failAt .subtreeMissing .empty
  | .node token left right =>
    match token.kind with
    | .number =>
      match token.number with
      | some value => .ok value
      | none => failAt (.numberWithoutValue token.lexeme) token.span
    | .identifier => failAt (.undefinedVariable token.lexeme) token.span
    | .operator .equal => failAt .nestedAssignment token.span
    | .operator op =>
      if left.isNil || right.isNil then failAt (.operandMissing token.lexeme) token.span
      else
        match op with
        | .plus => return (← calculate left) + (← calculate right)
        | .minus => return (← calculate left) - (← calculate right)
        | .star => return (← calculate left) * (← calculate right)
        | _ => do
          let divisor ← calculate right
          if divisor == 0.0 then failAt .dividedByZero token.span
          else divided op (← calculate left) divisor
    | .opening | .closing => failAt (.unexpectedToken token) token.span

def target (root : Token) : Expr → Except (Failure EvalError) String
  | .nil => failAt .targetMissing root.span
  | .node token left right =>
    if token.kind = .identifier ∧ left.isNil ∧ right.isNil then .ok token.lexeme
    else failAt .targetNotVariable token.span

structure Evaluation where
  tree : Expr
  substituted : List Binding
  result : Except (Failure EvalError) Binding

/-- Only a tree that is there can be worked on. -/
def present (tree : Expr) : Except EvalError Expr :=
  if tree.isNil then .error ⟨.nothingToEvaluate, .empty⟩ else .ok tree

/-- The value of a tree that is evaluated as a whole or as the right side of an assignment. -/
def valueOf (pool : Pool) (tree : Expr) : Except (Failure EvalError) Float := do
  let tree ← (present tree).mapError .error
  calculate (substitute pool tree)

def evaluate (pool : Pool) (tree : Expr) : Evaluation :=
  match tree with
  | .nil => ⟨tree, [], failAt .noTree .empty⟩
  | .node root left right =>
    match root.kind with
    | .operator .equal =>
      { tree := .node root left (substitute pool right)
        substituted := substitutions pool right
        result := do
          let value ← valueOf pool right
          return ⟨← target root left, value⟩ }
    | .number | .identifier | .operator .plus | .operator .minus | .operator .star
    | .operator .slash =>
      { tree := substitute pool tree
        substituted := substitutions pool tree
        result := do return ⟨Pool.answer, ← valueOf pool tree⟩ }
    | .operator .percent | .opening | .closing =>
      ⟨tree, [], failAt .unsupportedRoot root.span⟩

end Expr

end Reckoner
