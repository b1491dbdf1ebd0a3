import Reckoner.Expression.Parse

/-!
Expressions as text, with brackets around every operation. A missing operand leaves its place
empty.
-/

set_option autoImplicit false

namespace Reckoner.Expr

def bracketed : Expr → String
  | .nil => ""
  | .node token left right =>
    if left.isNil && right.isNil then token.lexeme
    else s!"({bracketed left} {token.lexeme} {bracketed right})"

end Reckoner.Expr
