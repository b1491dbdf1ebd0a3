import Reckoner.Error

/-!
Brackets of a token list. Each closing bracket is matched with the nearest opening one before it
that is not matched yet; `Unmatched.ofTokens` finds what stays over, and `properly nested` means
that nothing does. `stripped` takes off the pairs that enclose a whole list.
-/

set_option autoImplicit false

namespace Reckoner

/-- The brackets without a partner, the latest first. -/
structure Unmatched where
  openings : List Token
  closings : List Token
  deriving DecidableEq, Repr

namespace Unmatched

def none : Unmatched := ⟨[], []⟩

def next (u : Unmatched) (token : Token) : Unmatched :=
  match token.kind with
  | .opening => { u with openings := token :: u.openings }
  | .closing =>
    match u.openings with
    | [] => { u with closings := token :: u.closings }
    | _ :: outer => { u with openings := outer }
  | _ => u

def ofTokens (tokens : List Token) : Unmatched := tokens.foldl next none

/-- Too many openings are reported at the first, too many closings at the last, and equally many
of both at the first closing. -/
def error? (u : Unmatched) : Option ParseError :=
  if u.closings.length < u.openings.length then
    u.openings.getLast?.map fun token => ⟨.unclosedBracket, token.span⟩
  else if u.openings.length < u.closings.length then
    u.closings.head?.map fun token => ⟨.extraClosingBracket, token.span⟩
  else
    u.closings.getLast?.map fun token => ⟨.closingBeforeOpening, token.span⟩

end Unmatched

def properlyNested (tokens : List Token) : Bool := Unmatched.ofTokens tokens == .none

/-- What stands between the first token and the last, if these are a pair of brackets that match
each other. -/
def enclosed? : List Token → Option (List Token)
  | [] => none
  | first :: rest =>
    match rest.getLast? with
    | some last =>
      if first.kind = .opening ∧ last.kind = .closing ∧ properlyNested rest.dropLast then
        some rest.dropLast
      else none
    | none => none

theorem length_enclosed? {tokens inner : List Token} (h : enclosed? tokens = some inner) :
    inner.length < tokens.length := by
  unfold enclosed? at h
  split at h
  · cases h
  · split at h
    · split at h
      · cases h
        simp only [List.length_dropLast, List.length_cons]
        omega
      · cases h
    · cases h

def spanOf (tokens : List Token) : Span :=
  match tokens.head?, tokens.getLast? with
  | some first, some last => first.span.merge last.span
  | _, _ => .empty

/-- The tokens without the brackets around all of them; a list whose brackets are not properly
nested, or hold nothing, is an error. -/
def stripped (tokens : List Token) : Except ParseError (List Token) :=
  match (Unmatched.ofTokens tokens).error? with
  | some e => .error e
  | none =>
    match _inner : enclosed? tokens with
    | none => .ok tokens
    | some [] => .error ⟨.emptyBrackets, spanOf tokens⟩
    | some (token :: inner) => stripped (token :: inner)
termination_by tokens.length
decreasing_by exact length_enclosed? ‹_›

theorem length_stripped {tokens inner : List Token} (h : stripped tokens = .ok inner) :
    inner.length ≤ tokens.length := by
  fun_induction stripped tokens with
  | case1 => cases h
  | case2 => cases h; exact Nat.le_refl _
  | case3 => cases h
  | case4 tokens _ token rest enclosed ih =>
    exact Nat.le_trans (ih h) (Nat.le_of_lt (length_enclosed? enclosed))

end Reckoner
