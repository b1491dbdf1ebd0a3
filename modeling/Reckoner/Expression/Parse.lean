import Reckoner.Expression.Cut
import Reckoner.Traced
import Reckoner.Tree.Basic

/-!
Parsing: from tokens to an expression tree. A list without enclosing brackets is a value if it is
one token, a signed number if it is two, and is cut at an operator if it is longer; both parts are
parsed the same way. Because the last operator of a level is cut first, operators of one level
group to the left. Every cut is noted, from the outside in and left before right.
-/

set_option autoImplicit false

namespace Reckoner

/-- An expression: operators at the inner nodes, numbers and names at the leaves. Nothing in the
type forbids other trees; evaluation reports them. -/
abbrev Expr := Tree Token

namespace Expr

def ofValue (token : Token) : Except ParseError Expr :=
  match token.kind with
  | .number | .identifier => .ok (.leaf token)
  | _ => .error ⟨.valueExpected token.kind, token.span⟩

/-- A minus makes a number token of its own, which covers the sign as well. -/
def ofSigned (sign operand : Token) : Except ParseError Expr :=
  match sign.kind with
  | .operator .plus => (magnitude operand).map fun _ => .leaf operand
  | .operator .minus =>
    (magnitude operand).map fun value =>
      .leaf (.ofNumber (-value) (sign.span.merge operand.span))
  | _ => .error ⟨.signExpected sign.kind, sign.span⟩
where
  magnitude (operand : Token) : Except ParseError Float :=
    match operand.kind, operand.number with
    | .number, some value => .ok value
    | _, _ => .error ⟨.signedNumberExpected operand.kind, operand.span⟩

/-- The expression of a token list, with the cuts that were made to find it. -/
def ofTokens (tokens : List Token) : Traced Cut ParseError Expr :=
  match _strip : stripped tokens with
  | .error e => .fail e
  | .ok [] => .fail ⟨.noTokens, .empty⟩
  | .ok [token] => .ofExcept (ofValue token)
  | .ok [sign, operand] => .ofExcept (ofSigned sign operand)
  | .ok (first :: second :: third :: rest) =>
    match _select : Cut.select (first :: second :: third :: rest) with
    | .error e => .fail e
    | .ok cut => do
      Traced.note cut
      if cut.before.isEmpty then Traced.fail ⟨.leftOperandExpected, cut.operator.span⟩
      else if cut.after.isEmpty then Traced.fail ⟨.rightOperandExpected, cut.operator.span⟩
      else
        let left ← ofTokens cut.before
        let right ← ofTokens cut.after
        return .node cut.operator left right
termination_by tokens.length
decreasing_by
  all_goals
    have := length_stripped ‹_›
    have := Cut.length_of_select ‹_›
    omega

def parse (tokens : List Token) : Except ParseError Expr := (ofTokens tokens).result

end Expr

end Reckoner
