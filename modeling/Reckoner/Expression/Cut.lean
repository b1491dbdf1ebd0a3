import Reckoner.Expression.Brackets

/-!
Where a token list is cut in two: at the last of its loosest operators outside of brackets, the
first token aside. If the cut falls on a sign, that is, on a plus or minus directly after an
arithmetic operator, it moves to that operator. Cutting loses nothing: `slice_of_select`.
-/

set_option autoImplicit false

namespace Reckoner

namespace Token

def level (t : Token) : Nat :=
  match t.operator? with
  | some op => op.level
  | none => 0

def isSign (t : Token) : Bool := t.operator?.any Operator.isSign

def isArithmetic (t : Token) : Bool := t.operator?.any Operator.isArithmetic

/-- Whether a list may be cut at the token when so many brackets are open before it. -/
def isCuttable (t : Token) (depth : Int) : Bool := depth == 0 && t.operator?.isSome

/-- The number of open brackets after the token, from the number before it. -/
def depthAfter (t : Token) (depth : Int) : Int :=
  match t.kind with
  | .opening => depth + 1
  | .closing => depth - 1
  | _ => depth

end Token

structure Cut where
  before : List Token
  operator : Token
  after : List Token
  deriving DecidableEq, Repr

namespace Cut

def slice (cut : Cut) : List Token := cut.before ++ cut.operator :: cut.after

def index (cut : Cut) : Nat := cut.before.length

def cons (token : Token) (cut : Cut) : Cut := { cut with before := token :: cut.before }

/-- Of two cuts at operators of one level the later one is taken. -/
def loosest (depth : Int) : List Token → Option Cut
  | [] => none
  | token :: rest =>
    match loosest (token.depthAfter depth) rest with
    | none => if token.isCuttable depth then some ⟨[], token, rest⟩ else none
    | some cut =>
      if token.isCuttable depth ∧ cut.operator.level < token.level then some ⟨[], token, rest⟩
      else some (cut.cons token)

def settled (cut : Cut) : Except ParseError Cut :=
  match cut.before.getLast? with
  | none => .ok cut
  | some previous =>
    if previous.isArithmetic then
      if cut.operator.isSign then
        .ok ⟨cut.before.dropLast, previous, cut.operator :: cut.after⟩
      else .error ⟨.adjacentOperators, cut.operator.span⟩
    else .ok cut

def candidate? : List Token → Option Cut
  | [] => none
  | first :: rest => (loosest (first.depthAfter 0) rest).map (cons first)

def select (tokens : List Token) : Except ParseError Cut :=
  match candidate? tokens with
  | none => .error ⟨.operatorExpected, spanOf tokens⟩
  | some cut => cut.settled

@[simp] theorem slice_cons (token : Token) (cut : Cut) :
    (cut.cons token).slice = token :: cut.slice := rfl

theorem getElem?_index (cut : Cut) : cut.slice[cut.index]? = some cut.operator := by
  rw [slice, index, List.getElem?_append_right (Nat.le_refl _), Nat.sub_self]
  rfl

theorem slice_of_loosest {depth : Int} {tokens : List Token} {cut : Cut}
    (h : loosest depth tokens = some cut) : cut.slice = tokens := by
  induction tokens generalizing depth cut with
  | nil => cases h
  | cons token rest ih =>
    rw [loosest] at h
    split at h
    · split at h <;> cases h
      rfl
    · rename_i later found
      split at h <;> cases h
      · rfl
      · rw [slice_cons, ih found]

theorem slice_of_candidate? {tokens : List Token} {cut : Cut}
    (h : candidate? tokens = some cut) : cut.slice = tokens := by
  cases tokens with
  | nil => cases h
  | cons first rest =>
    obtain ⟨later, found, rfl⟩ := Option.map_eq_some_iff.1 h
    rw [slice_cons, slice_of_loosest found]

theorem slice_of_settled {cut settled : Cut} (h : cut.settled = .ok settled) :
    settled.slice = cut.slice := by
  unfold Cut.settled at h
  split at h
  · cases h; rfl
  · rename_i previous last
    split at h
    · split at h
      · cases h
        obtain ⟨earlier, split⟩ := List.getLast?_eq_some_iff.1 last
        simp [slice, split]
      · cases h
    · cases h; rfl

theorem slice_of_select {tokens : List Token} {cut : Cut} (h : select tokens = .ok cut) :
    cut.slice = tokens := by
  unfold select at h
  split at h
  · cases h
  · rename_i candidate found
    rw [slice_of_settled h, slice_of_candidate? found]

theorem length_of_select {tokens : List Token} {cut : Cut} (h : select tokens = .ok cut) :
    cut.before.length + cut.after.length + 1 = tokens.length := by
  rw [← slice_of_select h, slice, List.length_append, List.length_cons]
  omega

end Cut

end Reckoner
