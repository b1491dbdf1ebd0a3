import Reckoner.Proofs.Grammar.Shape

/-!
# The slices of a list

Every node of a parsed expression stands for a slice of the list: the tokens of the phrase below it,
without brackets around them. Parsing notes a cut before it parses either side of it, while the tree is
put together from below. So the notes are the operators of the tree with their slices, in preorder.
-/

set_option autoImplicit false

namespace Reckoner

namespace Phrase

/-- The tree of a phrase, with the slice of the list for each of its nodes. -/
inductive Sliced : Phrase → Tree (Token × List Token) → Prop where
  | value {token : Token} : Sliced (.value token) (.leaf (token, [token]))
  | signed {sign number : Token} :
    Sliced (.signed sign number) (.leaf (signedToken sign number, [sign, number]))
  | group {opening closing : Token} {inner : Phrase} {slices : Tree (Token × List Token)} :
    Sliced inner slices → Sliced (.group opening inner closing) slices
  | operation {before after : Phrase} {operator : Token}
    {left right : Tree (Token × List Token)} : Sliced before left → Sliced after right →
    Sliced (before.join operator after)
      (.node (operator, (before.join operator after).tokens) left right)

section Sliced

variable {p inner : Phrase} {token sign number opening closing : Token}
  {slices first second : Tree (Token × List Token)}

theorem Sliced.values_inorder (h : p.Sliced slices) :
    (slices.map Prod.fst).values .inorder = p.content := by
  induction h with
  | value => rfl
  | signed => rfl
  | group _ ih => exact ih
  | operation _ _ ihLeft ihRight =>
    simp [Tree.map, Tree.values, Order.arrange, ihLeft, ihRight]

theorem eq_of_sliced_value (h : (value token).Sliced slices) : slices = .leaf (token, [token]) := by
  generalize same : Phrase.value token = p at h
  cases h with
  | value => cases same; rfl
  | signed | group => cases same
  | operation => exact absurd same (join_ne_of_isOperand rfl _ _ _)

theorem eq_of_sliced_signed (h : (signed sign number).Sliced slices) :
    slices = .leaf (signedToken sign number, [sign, number]) := by
  generalize same : Phrase.signed sign number = p at h
  cases h with
  | signed => cases same; rfl
  | value | group => cases same
  | operation => exact absurd same (join_ne_of_isOperand rfl _ _ _)

theorem sliced_of_group (h : (group opening inner closing).Sliced slices) :
    inner.Sliced slices := by
  generalize same : Phrase.group opening inner closing = p at h
  cases h with
  | value | signed => cases same
  | group below => cases same; exact below
  | operation => exact absurd same (join_ne_of_isOperand rfl _ _ _)

theorem Sliced.exists_division (h : p.Sliced slices) (chained : p.isOperand = false) :
    ∃ (before : Phrase) (operator : Token) (after : Phrase)
      (left right : Tree (Token × List Token)),
      p = before.join operator after ∧ slices = .node (operator, p.tokens) left right ∧
        before.Sliced left ∧ after.Sliced right := by
  cases h with
  | value | signed | group => cases chained
  | operation slicedLeft slicedRight => exact ⟨_, _, _, _, _, rfl, rfl, slicedLeft, slicedRight⟩

theorem Sliced.unique (hFirst : p.Sliced first) (hSecond : p.Sliced second)
    (same : first.map Prod.fst = second.map Prod.fst) : first = second := by
  induction hFirst generalizing second with
  | value => exact (eq_of_sliced_value hSecond).symm
  | signed => exact (eq_of_sliced_signed hSecond).symm
  | group _ ih => exact ih (sliced_of_group hSecond) same
  | @operation before after operator _ _ slicedLeft _ ihLeft ihRight =>
    obtain ⟨before', operator', after', left, right, divided, rfl, slicedLeft', slicedRight'⟩ :=
      hSecond.exists_division (isOperand_join _ _ _)
    simp only [Tree.map, Tree.node.injEq] at same
    obtain ⟨rfl, sameLeft, sameRight⟩ := same
    have sameContent : before.content = before'.content := by
      rw [← slicedLeft.values_inorder, sameLeft, slicedLeft'.values_inorder]
    obtain ⟨rfl, -, rfl⟩ := division_unique_of_content sameContent divided
    rw [ihLeft slicedLeft' sameLeft, ihRight slicedRight' sameRight]

end Sliced

end Phrase

namespace Expr

def tracedCut (cut : Cut) : Traced Cut ParseError Expr := do
  Traced.note cut
  if cut.before.isEmpty then Traced.fail ⟨.leftOperandExpected, cut.operator.span⟩
  else if cut.after.isEmpty then Traced.fail ⟨.rightOperandExpected, cut.operator.span⟩
  else
    let left ← ofTokens cut.before
    let right ← ofTokens cut.after
    return .node cut.operator left right

theorem ofTokens_eq (tokens : List Token) :
    ofTokens tokens = match stripped tokens with
      | .error e => .fail e
      | .ok [] => .fail ⟨.noTokens, .empty⟩
      | .ok [token] => .ofExcept (ofValue token)
      | .ok [sign, operand] => .ofExcept (ofSigned sign operand)
      | .ok (first :: second :: third :: rest) =>
        match Cut.select (first :: second :: third :: rest) with
        | .error e => .fail e
        | .ok cut => tracedCut cut := by
  rw [ofTokens]
  split <;> rename_i found <;> rw [found]
  dsimp only
  split <;> rename_i selected <;> rw [selected]
  rfl

theorem ofTokens_congr {tokens tokens' : List Token} (same : stripped tokens = stripped tokens') :
    ofTokens tokens = ofTokens tokens' := by
  rw [ofTokens_eq, ofTokens_eq, same]

theorem ofTokens_of_select {tokens : List Token} {cut : Cut} (bare : stripped tokens = .ok tokens)
    (long : 2 < tokens.length) (selected : Cut.select tokens = .ok cut) :
    ofTokens tokens = tracedCut cut := by
  rw [ofTokens_eq, bare]
  match tokens, long with
  | _ :: _ :: _ :: _, _ =>
    dsimp only
    rw [selected]

theorem tracedCut_of_ok {cut : Cut} {left right : Expr} (before : cut.before ≠ [])
    (after : cut.after ≠ []) (first : (ofTokens cut.before).result = .ok left)
    (second : (ofTokens cut.after).result = .ok right) :
    tracedCut cut = ⟨cut :: ((ofTokens cut.before).trace ++ (ofTokens cut.after).trace),
      .ok (.node cut.operator left right)⟩ := by
  rw [tracedCut, Traced.bind_of_ok _ (Traced.result_note _), if_neg (by simpa using before),
    if_neg (by simpa using after), Traced.bind_of_ok _ first, Traced.bind_of_ok _ second]
  simp

end Expr

namespace Phrase

open Reckoner.Expr

def operations (slices : Tree (Token × List Token)) : List (Token × List Token) :=
  (slices.values .preorder).filter fun node => node.1.operator?.isSome

theorem operations_leaf {node : Token × List Token} (h : node.1.operator? = none) :
    operations (.leaf node) = [] := by
  simp [operations, Tree.leaf, Tree.values, Order.arrange, h]

theorem operations_node {node : Token × List Token} (h : node.1.operator?.isSome = true)
    (left right : Tree (Token × List Token)) :
    operations (.node node left right) = node :: (operations left ++ operations right) := by
  simp [operations, Tree.values, Order.arrange, h]

/-- Parsing notes the operators with their slices in preorder, although each operator becomes a node
only after its operands. -/
theorem exists_slices {p : Phrase} (h : p.WellFormed) :
    ∃ slices : Tree (Token × List Token), p.Sliced slices ∧
      (ofTokens p.tokens).result = .ok (slices.map Prod.fst) ∧
      (ofTokens p.tokens).trace.map (fun cut => (cut.operator, cut.slice)) =
        operations slices := by
  apply division_induction Link.signedLevel _ _ _ _ h
  · intro token wf
    have operand : token.operator? = none := by
      rcases wf with kind | kind <;> simp [Token.operator?, kind]
    refine ⟨_, .value, ?_⟩
    rw [tokens, ofTokens_eq, stripped_value wf, operations_leaf operand]
    rcases wf with kind | kind <;> simp [ofValue, kind]
  · intro sign number wf
    have operand : (signedToken sign number).operator? = none := by
      simp [Token.operator?, kind_signedToken wf.2.1]
    refine ⟨_, .signed, ?_⟩
    rw [tokens, ofTokens_eq, stripped_signed wf, operations_leaf operand]
    simp [ofSigned_eq_ok wf]
  · intro opening inner closing wf ih
    obtain ⟨slices, sliced, below⟩ := ih
    refine ⟨slices, .group sliced, ?_⟩
    rwa [ofTokens_congr (stripped_group wf)]
  · intro before operator after wf found ihBefore ihAfter
    have chained := isOperand_join before operator after
    obtain ⟨_, _, _, found', selected⟩ := exists_select wf chained
    rw [found, Option.some.injEq, Prod.mk.injEq, Prod.mk.injEq] at found'
    obtain ⟨rfl, rfl, rfl⟩ := found'
    obtain ⟨left, slicedLeft, parsedLeft, notedLeft⟩ := ihBefore
    obtain ⟨right, slicedRight, parsedRight, notedRight⟩ := ihAfter
    have isOperator := (wellFormed_join.1 wf).2.1
    have noted : tracedCut ⟨before.tokens, operator, after.tokens⟩ = _ :=
      tracedCut_of_ok before.tokens_ne_nil after.tokens_ne_nil parsedLeft parsedRight
    refine ⟨_, .operation slicedLeft slicedRight, ?_⟩
    rw [ofTokens_of_select (stripped_chain wf chained) (two_lt_length_of_chain chained) selected,
      noted, operations_node isOperator]
    refine ⟨rfl, ?_⟩
    rw [List.map_cons, List.map_append, notedLeft, notedRight, tokens_join]
    rfl

end Phrase

end Reckoner
