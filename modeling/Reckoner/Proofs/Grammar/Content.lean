import Reckoner.Proofs.Calculator.Errors

/-!
# What a parsed expression holds

Read from left to right, a parsed expression is the token list itself, once the brackets are left out
and every unary sign is fused with the number after it. Nothing is lost, doubled or moved, so the
tokens of a text keep their order and do not overlap.
-/

set_option autoImplicit false

namespace Reckoner

namespace Token

def isBracket (t : Token) : Bool :=
  match t.kind with
  | .opening | .closing => true
  | .number | .identifier | .operator _ => false

def awaitsOperand (t : Token) : Bool :=
  match t.kind with
  | .opening | .operator _ => true
  | .number | .identifier | .closing => false

/-- A plus leaves the number as it is; a minus makes a number of the opposite value, which covers the
sign as well. -/
def withSign (sign number : Token) : Token :=
  match sign.kind, number.number with
  | .operator .minus, some value => .ofNumber (-value) (sign.span.merge number.span)
  | _, _ => number

/-- The tokens without the brackets, each unary sign fused with the token after it. A sign is unary
where an operand has to come: at the beginning, and directly after an opening bracket or an
operator. -/
def contents (operandNext : Bool) : List Token → List Token
  | [] => []
  | [token] => if token.isBracket then [] else [token]
  | token :: next :: rest =>
    if operandNext && token.isSign then token.withSign next :: contents false rest
    else if token.isBracket then contents token.awaitsOperand (next :: rest)
    else token :: contents token.awaitsOperand (next :: rest)

theorem contents_bracket {token : Token} (h : token.isBracket = true) (operandNext : Bool)
    (rest : List Token) :
    contents operandNext (token :: rest) = contents token.awaitsOperand rest := by
  have unsigned : token.isSign = false := by
    cases kind : token.kind <;> simp [isBracket, kind] at h <;> simp [isSign, operator?, kind]
  cases rest with
  | nil => simp [contents, h]
  | cons next rest => simp [contents, h, unsigned]

theorem contents_of_not_bracket {token : Token} (h : token.isBracket = false)
    {operandNext : Bool} (binary : (operandNext && token.isSign) = false) (rest : List Token) :
    contents operandNext (token :: rest) = token :: contents token.awaitsOperand rest := by
  cases rest with
  | nil => simp [contents, h]
  | cons next rest => simp [contents, h, binary]

theorem contents_sign {sign : Token} (h : sign.isSign = true) (next : Token) (rest : List Token) :
    contents true (sign :: next :: rest) = sign.withSign next :: contents false rest := by
  simp [contents, h]

theorem signedToken_eq_withSign {sign number : Token} (h : number.number.isSome = true) :
    Phrase.signedToken sign number = sign.withSign number := by
  obtain ⟨value, carried⟩ := Option.isSome_iff_exists.1 h
  unfold Phrase.signedToken withSign
  by_cases minus : sign.kind = .operator .minus
  · simp [minus, carried]
  · rw [if_neg minus]
    split
    · rename_i negative _
      exact absurd negative minus
    · rfl

theorem placed_cons_iff {low high : Int} {token : Token} {rest : List Token} :
    Placed low high (.ok (token :: rest)) ↔
      token.span.Inside low high ∧ Placed token.span.stop high (.ok rest) := by
  constructor
  · rintro ⟨all, ordered⟩
    rw [List.pairwise_cons] at ordered
    refine ⟨all token List.mem_cons_self, ?_, ordered.2⟩
    intro other inside
    have here := all other (List.mem_cons_of_mem token inside)
    exact ⟨ordered.1 other inside, here.start_lt, here.stop_le⟩
  · rintro ⟨here, later⟩
    exact later.cons (Int.le_trans here.low_le (Int.le_of_lt here.start_lt)) here (Int.le_refl _)

theorem inside_withSign {low high : Int} {sign number : Token} (first : sign.span.Inside low high)
    (second : number.span.Inside sign.span.stop high) :
    (sign.withSign number).span.Inside low high ∧
      (sign.withSign number).span.stop = number.span.stop := by
  have apart := second.low_le
  have low_le := first.low_le
  have nonempty := first.start_lt
  have nonempty' := second.start_lt
  unfold withSign
  split
  · refine ⟨⟨?_, ?_, ?_⟩, ?_⟩
    · show low ≤ min sign.span.start number.span.start
      omega
    · show min sign.span.start number.span.start < max sign.span.stop number.span.stop
      omega
    · show max sign.span.stop number.span.stop ≤ high
      have := second.stop_le
      omega
    · show max sign.span.stop number.span.stop = number.span.stop
      omega
  · exact ⟨second.mono (by omega) (Int.le_refl _), rfl⟩

/-- Leaving out brackets and fusing signs keeps tokens in their order and apart. -/
theorem placed_contents {low high : Int} {tokens : List Token} (operandNext : Bool)
    (h : Placed low high (.ok tokens)) :
    Placed low high (.ok (contents operandNext tokens)) := by
  fun_induction contents operandNext tokens generalizing low with
  | case1 => exact h
  | case2 => exact ⟨by simp [AllAt], List.Pairwise.nil⟩
  | case3 => exact h
  | case4 operandNext token next rest unary ih =>
    obtain ⟨first, later⟩ := placed_cons_iff.1 h
    obtain ⟨second, others⟩ := placed_cons_iff.1 later
    obtain ⟨inside, ends⟩ := inside_withSign first second
    exact placed_cons_iff.2 ⟨inside, ends ▸ ih others⟩
  | case5 operandNext token next rest binary bracket ih =>
    obtain ⟨first, later⟩ := placed_cons_iff.1 h
    exact (ih later).mono (Int.le_trans first.low_le (Int.le_of_lt first.start_lt))
  | case6 operandNext token next rest binary plain ih =>
    obtain ⟨first, later⟩ := placed_cons_iff.1 h
    exact placed_cons_iff.2 ⟨first, ih later⟩

end Token

namespace Phrase

open Token (contents)

theorem contents_tokens_append {p : Phrase} (h : p.WellFormed) (rest : List Token) :
    contents true (p.tokens ++ rest) = p.content ++ contents false rest := by
  induction p generalizing rest with
  | value token =>
    have plain : token.isBracket = false ∧ token.awaitsOperand = false := by
      rcases h with kind | kind <;> simp [Token.isBracket, Token.awaitsOperand, kind]
    have unsigned := Token.isSign_of_value h
    simp [tokens, content, Token.contents_of_not_bracket plain.1, unsigned, plain.2]
  | signed sign number =>
    obtain ⟨isSign, _, valued⟩ := h
    simp [tokens, content, Token.contents_sign isSign, Token.signedToken_eq_withSign valued]
  | group opening inner closing ih =>
    obtain ⟨opens, wf, closes⟩ := h
    have left : opening.isBracket = true ∧ opening.awaitsOperand = true := by
      simp [Token.isBracket, Token.awaitsOperand, opens]
    have right : closing.isBracket = true ∧ closing.awaitsOperand = false := by
      simp [Token.isBracket, Token.awaitsOperand, closes]
    calc contents true ((group opening inner closing).tokens ++ rest)
        = contents true (inner.tokens ++ closing :: rest) := by
          simp [tokens, Token.contents_bracket left.1, left.2]
      _ = inner.content ++ contents false (closing :: rest) := ih wf _
      _ = inner.content ++ contents false rest := by
          rw [Token.contents_bracket right.1, right.2]
  | chain before operator operand ihBefore ihOperand =>
    obtain ⟨wfBefore, isOperator, wfOperand, _⟩ := h
    have binary : operator.isBracket = false ∧ operator.awaitsOperand = true := by
      cases kind : operator.kind <;> simp [Token.operator?, kind] at isOperator
      simp [Token.isBracket, Token.awaitsOperand, kind]
    calc contents true ((chain before operator operand).tokens ++ rest)
        = contents true (before.tokens ++ operator :: (operand.tokens ++ rest)) := by
          simp [tokens]
      _ = before.content ++ contents false (operator :: (operand.tokens ++ rest)) :=
          ihBefore wfBefore _
      _ = before.content ++ operator :: contents true (operand.tokens ++ rest) := by
          rw [Token.contents_of_not_bracket binary.1 rfl, binary.2]
      _ = (chain before operator operand).content ++ contents false rest := by
          simp [content, ihOperand wfOperand]

theorem contents_tokens {p : Phrase} (h : p.WellFormed) :
    contents true p.tokens = p.content := by
  have whole := contents_tokens_append h []
  simpa [contents] using whole

end Phrase

namespace Expr

variable {tokens : List Token} {tree : Expr}

theorem values_inorder_of_parse (h : parse tokens = .ok tree) :
    tree.values .inorder = Token.contents true tokens := by
  obtain ⟨p, wf, rfl⟩ := Phrase.exists_of_parse h
  rw [Phrase.contents_tokens wf]
  exact ((parse_tokens_eq_ok_iff wf).1 h).values_inorder

/-- A parsed expression has two operands at every operator and numbers or names at its leaves. From
left to right it holds the tokens without brackets and with their signs fused; those of a text stand
in it one after the other. -/
theorem holds_of_parse (h : parse tokens = .ok tree) :
    tree.WellShaped ∧ tree.values .inorder = Token.contents true tokens ∧
      ∀ text : String, Token.ofText text = .ok tokens →
        (∀ token ∈ tree.values .inorder, token.span.start < token.span.stop) ∧
        (tree.values .inorder).Pairwise Token.Before := by
  refine ⟨wellShaped_of_parse h, values_inorder_of_parse h, ?_⟩
  intro text scanned
  have placed : Token.Placed 0 text.length (.ok tokens) :=
    ⟨Token.allAt_ofText scanned, Token.pairwise_ofText scanned⟩
  obtain ⟨inside, ordered⟩ := Token.placed_contents true placed
  rw [values_inorder_of_parse h]
  exact ⟨fun token member => (inside token member).start_lt, ordered⟩

/-- The tokens of `(1 + 2) * -3`. -/
def negatedFactor : List Token :=
  [opening, one, plus, two, closing, star, minus, three]
where
  opening : Token := ⟨.opening, "(", ⟨0, 1⟩, none⟩
  one : Token := ⟨.number, "1", ⟨1, 2⟩, some 1.0⟩
  plus : Token := ⟨.operator .plus, "+", ⟨3, 4⟩, none⟩
  two : Token := ⟨.number, "2", ⟨5, 6⟩, some 2.0⟩
  closing : Token := ⟨.closing, ")", ⟨6, 7⟩, none⟩
  star : Token := ⟨.operator .star, "*", ⟨8, 9⟩, none⟩
  minus : Token := ⟨.operator .minus, "-", ⟨10, 11⟩, none⟩
  three : Token := ⟨.number, "3", ⟨11, 12⟩, some 3.0⟩

open negatedFactor in
def negatedFactorTree : Expr :=
  .node star (.node plus (.leaf one) (.leaf two)) (.leaf (.ofNumber (-3.0) ⟨10, 12⟩))

open negatedFactor in
/-- Brackets are gone, and the minus is part of the number. -/
theorem holds_negatedFactor :
    Token.ofText "(1 + 2) * -3" = .ok negatedFactor ∧
      parse negatedFactor = .ok negatedFactorTree ∧ negatedFactorTree.WellShaped ∧
      negatedFactorTree.values .inorder = Token.contents true negatedFactor ∧
      Token.contents true negatedFactor = [one, plus, two, star, .ofNumber (-3.0) ⟨10, 12⟩] ∧
      (negatedFactorTree.values .inorder).Pairwise Token.Before := by
  have scanned : Token.ofText "(1 + 2) * -3" = .ok negatedFactor := by decide +kernel
  have parsed : parse negatedFactor = .ok negatedFactorTree := by decide +kernel
  obtain ⟨shape, held, apart⟩ := holds_of_parse parsed
  exact ⟨scanned, parsed, shape, held, rfl, (apart _ scanned).2⟩

end Expr

end Reckoner
