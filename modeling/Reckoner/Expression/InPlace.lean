import Reckoner.Expression.Evaluate
import Reckoner.Forest.Copy

/-!
Evaluation of a tree in its store. The numbers are written over the bound names, so the tree is good
for one evaluation only.
-/

set_option autoImplicit false

namespace Reckoner.Forest

/-- The tree below a node is rewritten in its store, node by node in the order of a walk. -/
def substitute (f : Forest Token) (pool : Pool) (n : NodeId) : Forest Token :=
  f.sweep .preorder n (Token.substitute pool)

def valueOf (f : Forest Token) (pool : Pool) (slot : Option NodeId) :
    Except (Failure EvalError) Float × Forest Token :=
  match slot with
  | none => (Expr.failAt .nothingToEvaluate .empty, f)
  | some n =>
    let g := f.substitute pool n
    (Expr.calculate (g.tree n), g)

/-- The target of an assignment is looked at when its right side has been rewritten. -/
def evaluate (f : Forest Token) (pool : Pool) (slot : Option NodeId) :
    Except (Failure EvalError) Binding × Forest Token :=
  match slot with
  | none => (Expr.failAt .noTree .empty, f)
  | some n =>
    match f.value? n with
    | none => (Expr.failAt .noTree .empty, f)
    | some root =>
      match root.kind with
      | .operator .equal =>
        let (value, g) := f.valueOf pool (f.child? .right n)
        (value.bind fun value =>
          (Expr.target root (g.treeIn (g.child? .left n))).map (⟨·, value⟩), g)
      | .number | .identifier | .operator .plus | .operator .minus | .operator .star
      | .operator .slash =>
        let (value, g) := f.valueOf pool (some n)
        (value.map (⟨Pool.answer, ·⟩), g)
      | .operator .percent | .opening | .closing => (Expr.failAt .unsupportedRoot root.span, f)

end Reckoner.Forest
