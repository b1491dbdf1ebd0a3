import Reckoner.Proofs.Grammar.Balance
import Reckoner.Token.Scan

/-!
# Brackets keep apart what they enclose

A list is parsed the same between brackets as without them, to an expression or to an error. Two lists
in brackets with an operator between them are cut at that operator, whichever operators they hold and
whatever is wrong with them, because it is the only one that stands outside of brackets.
-/

set_option autoImplicit false

namespace Reckoner

structure BracketPair where
  opening : Token
  closing : Token
  opens : opening.kind = .opening
  closes : closing.kind = .closing

namespace BracketPair

def around (pair : BracketPair) (tokens : List Token) : List Token :=
  pair.opening :: (tokens ++ [pair.closing])

/-- The first pair stands outermost. -/
def allAround (pairs : List BracketPair) (tokens : List Token) : List Token :=
  pairs.foldr around tokens

variable {tokens rest : List Token}

@[simp] theorem around_ne_nil (pair : BracketPair) (tokens : List Token) :
    pair.around tokens ≠ [] := List.cons_ne_nil _ _

@[simp] theorem getLast?_around (pair : BracketPair) (tokens : List Token) :
    (pair.around tokens).getLast? = some pair.closing := by
  simp [around, List.getLast?_cons]

@[simp] theorem depthAfter_opening (pair : BracketPair) (depth : Int) :
    pair.opening.depthAfter depth = depth + 1 := by
  simp [Token.depthAfter, pair.opens]

theorem around_append (pair : BracketPair) (tokens rest : List Token) :
    pair.around tokens ++ rest = pair.opening :: (tokens ++ pair.closing :: rest) := by
  simp [around]

theorem nested_around_append (pair : BracketPair) (h : Nested tokens) (later : Nested rest) :
    Nested (pair.around tokens ++ rest) := by
  rw [around_append]
  exact .group pair.opens pair.closes h later

theorem nested_around (pair : BracketPair) (h : Nested tokens) : Nested (pair.around tokens) := by
  simpa using nested_around_append pair h .nil

theorem allAround_ne_nil (pairs : List BracketPair) (present : tokens ≠ []) :
    allAround pairs tokens ≠ [] := by
  cases pairs with
  | nil => exact present
  | cons pair pairs => exact around_ne_nil pair _

theorem nested_allAround (pairs : List BracketPair) (h : Nested tokens) :
    Nested (allAround pairs tokens) := by
  induction pairs with
  | nil => exact h
  | cons pair pairs ih => exact nested_around pair ih

end BracketPair

theorem Token.depthAfter_of_other {token : Token} (opens : token.kind ≠ .opening)
    (closes : token.kind ≠ .closing) (depth : Int) : token.depthAfter depth = depth := by
  unfold depthAfter
  split
  · exact absurd ‹_› opens
  · exact absurd ‹_› closes
  · rfl

namespace Nested

variable {tokens : List Token}

theorem depthAfterAll (h : Nested tokens) (depth : Int) :
    Token.depthAfterAll depth tokens = depth := by
  induction h generalizing depth with
  | nil => rfl
  | other opens closes _ ih => simp [Token.depthAfter_of_other opens closes, ih]
  | group opens closes _ _ ihInner ihRest =>
    simp [Token.depthAfter, opens, closes, ihInner, ihRest]

theorem loosest_of_pos (h : Nested tokens) {depth : Int} (inside : 0 < depth) :
    Cut.loosest depth tokens = none := by
  induction h generalizing depth with
  | nil => rfl
  | other opens closes _ ih =>
    simp [Cut.loosest_cons, Token.isCuttable_of_pos inside,
      Token.depthAfter_of_other opens closes, ih inside]
  | @group opening closing inner rest opens closes nested _ ihInner ihRest =>
    have opened : opening.depthAfter depth = depth + 1 := by simp [Token.depthAfter, opens]
    have closed : closing.depthAfter (depth + 1) = depth := by simp [Token.depthAfter, closes]
    have deeper : 0 < depth + 1 := by omega
    simp [Cut.loosest_cons, Cut.loosest_append, Token.isCuttable_of_pos inside,
      Token.isCuttable_of_pos deeper, opened, closed, ihInner deeper, nested.depthAfterAll,
      ihRest inside]

end Nested

section Between

variable {tokens before after : List Token} {operator : Token}

theorem BracketPair.loosest_around (pair : BracketPair) (h : Nested tokens) :
    Cut.loosest 0 (pair.around tokens) = none := by
  have bracket : pair.opening.isCuttable 0 = false := by
    simp [Token.isCuttable, Token.operator?, pair.opens]
  simp [around, Cut.loosest_cons, Cut.loosest_append, bracket, h.loosest_of_pos,
    h.depthAfterAll, Token.isCuttable_of_pos, Cut.loosest]

theorem BracketPair.candidate?_around (pair : BracketPair) (h : Nested tokens) :
    Cut.candidate? (pair.around tokens) = none := by
  simp [around, Cut.candidate?, Cut.loosest_append, h.loosest_of_pos, h.depthAfterAll,
    Token.isCuttable_of_pos, Cut.loosest]

theorem Cut.select_between (left right : BracketPair) (h : Nested before) (h' : Nested after)
    (isOperator : operator.operator?.isSome = true) :
    Cut.select (left.around before ++ operator :: right.around after) =
      .ok ⟨left.around before, operator, right.around after⟩ := by
  have atOperator : Cut.loosest 0 (operator :: right.around after) =
      some ⟨[], operator, right.around after⟩ := by
    rw [Cut.loosest_cons, Token.depthAfter_of_operator isOperator, right.loosest_around h']
    simp [Token.isCuttable_of_operator isOperator]
  have found : Cut.candidate? (left.around before ++ operator :: right.around after) =
      some ⟨left.around before, operator, right.around after⟩ := by
    rw [Cut.candidate?_append (left.around_ne_nil before), left.candidate?_around h,
      (left.nested_around h).depthAfterAll, atOperator]
    simp [Cut.within]
  -- The operator follows a bracket, so it is no sign.
  have complete : left.closing.isArithmetic = false := by
    simp [Token.isArithmetic, Token.operator?, left.closes]
  simp [Cut.select, found, Cut.settled, complete]

theorem nested_between (left right : BracketPair) (h : Nested before) (h' : Nested after)
    (isOperator : operator.operator?.isSome = true) :
    Nested (left.around before ++ operator :: right.around after) := by
  apply left.nested_around_append h
  apply Nested.other
  · intro kind
    simp [Token.operator?, kind] at isOperator
  · intro kind
    simp [Token.operator?, kind] at isOperator
  · exact right.nested_around h'

end Between

namespace Expr

open BracketPair

variable {tokens before after : List Token} {operator : Token}

theorem parse_around (pair : BracketPair) (h : Nested tokens) (present : tokens ≠ []) :
    parse (pair.around tokens) = parse tokens := by
  have enclosed : enclosed? (pair.around tokens) = some tokens :=
    enclosed?_eq_some_iff.2
      ⟨pair.opening, pair.closing, pair.opens, pair.closes, properlyNested_iff.2 h, rfl⟩
  have nested := properlyNested_iff.2 (nested_around pair h)
  rw [parse_eq, parse_eq, stripped_of_enclosed? nested enclosed present]

theorem parse_allAround (pairs : List BracketPair) (h : Nested tokens) (present : tokens ≠ []) :
    parse (allAround pairs tokens) = parse tokens := by
  induction pairs with
  | nil => rfl
  | cons pair pairs ih =>
    calc parse (pair.around (allAround pairs tokens))
      _ = parse (allAround pairs tokens) :=
        parse_around pair (nested_allAround pairs h) (allAround_ne_nil pairs present)
      _ = parse tokens := ih

theorem parse_between (left right : BracketPair) (h : Nested before) (present : before ≠ [])
    (h' : Nested after) (present' : after ≠ []) (isOperator : operator.operator?.isSome = true) :
    parse (left.around before ++ operator :: right.around after) = do
      let first ← parse before
      let second ← parse after
      return .node operator first second := by
  have nested := properlyNested_iff.2 (nested_between left right h h' isOperator)
  have bare : enclosed? (left.around before ++ operator :: right.around after) = none := by
    rw [around_append]
    exact enclosed?_eq_none_of_closed (properlyNested_iff.2 h) left.closes (List.cons_ne_nil _ _)
  have long : 2 < (left.around before ++ operator :: right.around after).length := by
    simp [around]
    omega
  calc parse (left.around before ++ operator :: right.around after)
    _ = (Cut.select (left.around before ++ operator :: right.around after)).bind ofCut :=
      parse_of_select (stripped_of_not_enclosed nested bare) long
    _ = ofCut ⟨left.around before, operator, right.around after⟩ := by
      rw [Cut.select_between left right h h' isOperator]
      rfl
    _ = do
        let first ← parse before
        let second ← parse after
        return .node operator first second := by
      simp [ofCut, parse_around left h present, parse_around right h' present']

/-- Brackets override all operators and keep the errors of two operands apart: the first operand that
cannot be parsed by itself gives the error, else the operator joins what both are parsed to. Any number
of brackets around a list changes nothing. -/
theorem brackets_isolate (left right : BracketPair) (nested : Nested before) (present : before ≠ [])
    (nested' : Nested after) (present' : after ≠ []) (isOperator : operator.operator?.isSome = true) :
    (parse (left.around before ++ operator :: right.around after) = do
      let first ← parse before
      let second ← parse after
      return .node operator first second) ∧
      ∀ pairs : List BracketPair, parse (allAround pairs before) = parse before :=
  ⟨parse_between left right nested present nested' present' isOperator,
    fun pairs => parse_allAround pairs nested present⟩

/-- The tokens of `(x = 1) * (2 +)`: an assignment and a sum that lacks an operand. -/
def unfinishedProduct : List Token :=
  left.around [name, equal, one] ++ star :: right.around [two, plus]
where
  left : BracketPair := ⟨⟨.opening, "(", ⟨0, 1⟩, none⟩, ⟨.closing, ")", ⟨6, 7⟩, none⟩, rfl, rfl⟩
  name : Token := ⟨.identifier, "x", ⟨1, 2⟩, none⟩
  equal : Token := ⟨.operator .equal, "=", ⟨3, 4⟩, none⟩
  one : Token := ⟨.number, "1", ⟨5, 6⟩, some 1.0⟩
  star : Token := ⟨.operator .star, "*", ⟨8, 9⟩, none⟩
  right : BracketPair :=
    ⟨⟨.opening, "(", ⟨10, 11⟩, none⟩, ⟨.closing, ")", ⟨14, 15⟩, none⟩, rfl, rfl⟩
  two : Token := ⟨.number, "2", ⟨11, 12⟩, some 2.0⟩
  plus : Token := ⟨.operator .plus, "+", ⟨13, 14⟩, none⟩

open unfinishedProduct

/-- The assignment is one factor of the product, and the error is the one of the sum alone. -/
theorem brackets_isolate_unfinishedProduct :
    Token.ofText "(x = 1) * (2 +)" = .ok unfinishedProduct ∧
      Nested [name, equal, one] ∧ Nested [two, plus] ∧
      parse [name, equal, one] = .ok (.node equal (.leaf name) (.leaf one)) ∧
      parse [two, plus] = .error ⟨.signExpected .number, ⟨11, 12⟩⟩ ∧
      parse unfinishedProduct = .error ⟨.signExpected .number, ⟨11, 12⟩⟩ ∧
      parse (allAround [left, right] [name, equal, one]) =
        .ok (.node equal (.leaf name) (.leaf one)) := by
  have nested : Nested [name, equal, one] := properlyNested_iff.1 (by decide)
  have nested' : Nested [two, plus] := properlyNested_iff.1 (by decide)
  have assignment : parse [name, equal, one] = .ok (.node equal (.leaf name) (.leaf one)) := by
    decide +kernel
  have unfinished : parse [two, plus] = .error ⟨.signExpected .number, ⟨11, 12⟩⟩ := by
    decide +kernel
  have isOperator : star.operator?.isSome = true := rfl
  obtain ⟨product, alone⟩ := brackets_isolate left right nested (by simp) nested' (by simp) isOperator
  refine ⟨by decide +kernel, nested, nested', assignment, unfinished, ?_, ?_⟩
  · rw [unfinishedProduct, product, assignment, unfinished]
    rfl
  · rw [alone, assignment]

end Expr

end Reckoner
