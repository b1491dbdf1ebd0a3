/-!
The three orders in which the nodes of a binary tree are visited.
-/

set_option autoImplicit false

namespace Reckoner

inductive Order where
  | preorder
  | inorder
  | postorder
  deriving DecidableEq, Repr

/-- Puts what belongs to a node among what belongs to its left and its right subtree. -/
def Order.arrange {α : Type} (order : Order) (here left right : List α) : List α :=
  match order with
  | .preorder => here ++ left ++ right
  | .inorder => left ++ here ++ right
  | .postorder => left ++ right ++ here

end Reckoner
