/-!
Sets of characters given by their code points, as inclusive ranges in ascending order.
-/

set_option autoImplicit false

namespace Reckoner.Text

abbrev CodeRanges := List (Nat × Nat)

namespace CodeRanges

/-- The search ends at the first range that starts beyond the character. -/
def containsCode : CodeRanges → Nat → Bool
  | [], _ => false
  | (first, last) :: rest, code =>
    if code < first then false
    else if code ≤ last then true
    else containsCode rest code

def contains (ranges : CodeRanges) (c : Char) : Bool := ranges.containsCode c.toNat

end CodeRanges

end Reckoner.Text
