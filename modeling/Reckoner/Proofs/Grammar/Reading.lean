import Reckoner.Proofs.Grammar.Acceptance

/-!
# What a phrase reads as

Whatever the levels of its operators, a phrase reads as exactly one expression, whose nodes in
order are the content of the phrase. A phrase is parsed to what it reads as by signed levels.
-/

set_option autoImplicit false

namespace Reckoner

namespace Phrase

variable {level : Link → Nat}

theorem Reads.values_inorder {p : Phrase} {tree : Expr} (h : p.Reads level tree) :
    tree.values .inorder = p.content := by
  induction h with
  | value => rfl
  | signed => rfl
  | group _ ih => exact ih
  | operation _ _ _ _ ihLeft ihRight =>
    simp [Tree.values, Order.arrange, ihLeft, ihRight]

theorem join_ne_of_isOperand {p : Phrase} (single : p.isOperand = true)
    (before : Phrase) (operator : Token) (after : Phrase) :
    p ≠ before.join operator after := by
  rintro rfl
  rw [isOperand_join] at single
  cases single

@[simp] theorem reads_value_iff {token : Token} {tree : Expr} :
    (value token).Reads level tree ↔ tree = .leaf token := by
  refine ⟨?_, by rintro rfl; exact .value⟩
  intro h
  generalize same : Phrase.value token = p at h
  cases h with
  | value => cases same; rfl
  | signed | group => cases same
  | operation => exact absurd same (join_ne_of_isOperand rfl _ _ _)

@[simp] theorem reads_signed_iff {sign number : Token} {tree : Expr} :
    (signed sign number).Reads level tree ↔ tree = .leaf (signedToken sign number) := by
  refine ⟨?_, by rintro rfl; exact .signed⟩
  intro h
  generalize same : Phrase.signed sign number = p at h
  cases h with
  | signed => cases same; rfl
  | value | group => cases same
  | operation => exact absurd same (join_ne_of_isOperand rfl _ _ _)

@[simp] theorem reads_group_iff {opening closing : Token} {inner : Phrase} {tree : Expr} :
    (group opening inner closing).Reads level tree ↔ inner.Reads level tree := by
  refine ⟨?_, .group⟩
  intro h
  generalize same : Phrase.group opening inner closing = p at h
  cases h with
  | value | signed => cases same
  | group reads => cases same; exact reads
  | operation => exact absurd same (join_ne_of_isOperand rfl _ _ _)

theorem Reads.exists_division {p : Phrase} {tree : Expr} (h : p.Reads level tree)
    (chained : p.isOperand = false) :
    ∃ (before : Phrase) (operator : Token) (after : Phrase) (left right : Expr),
      p = before.join operator after ∧ tree = .node operator left right ∧
      before.Reads level left ∧ after.Reads level right ∧
      (∀ link ∈ before.links, level link ≤ level ⟨operator, after.tokens.head?⟩) ∧
      (∀ link ∈ after.links, level link < level ⟨operator, after.tokens.head?⟩) := by
  cases h with
  | value | signed | group => cases chained
  | operation readsLeft readsRight loosest tighter =>
    exact ⟨_, _, _, _, _, rfl, rfl, readsLeft, readsRight, loosest, tighter⟩

theorem head?_tokens_join (before : Phrase) (operator : Token) (after : Phrase) :
    (before.join operator after).tokens.head? = before.tokens.head? := by
  rw [tokens_join, head?_tokens_append]

theorem Reads.unique {p : Phrase} {first second : Expr} (hFirst : p.Reads level first)
    (hSecond : p.Reads level second) : first = second := by
  induction hFirst generalizing second with
  | value => exact (reads_value_iff.1 hSecond).symm
  | signed => exact (reads_signed_iff.1 hSecond).symm
  | group _ ih => exact ih (reads_group_iff.1 hSecond)
  | @operation before after operator _ _ _ _ loosest tighter ihLeft ihRight =>
    obtain ⟨before', operator', after', left, right, same, rfl, readsLeft, readsRight,
      loosest', tighter'⟩ := hSecond.exists_division (isOperand_join _ _ _)
    -- Of two places of division, each operator would have to be looser than the other.
    rcases join_eq_join same with ⟨rfl, rfl, rfl⟩ | ⟨between, rfl, rfl⟩ | ⟨between, rfl, rfl⟩
    · rw [ihLeft readsLeft, ihRight readsRight]
    · have below := loosest' ⟨operator, between.tokens.head?⟩ (by simp)
      have above := tighter ⟨operator', after'.tokens.head?⟩ (by simp)
      rw [head?_tokens_join] at above
      omega
    · have below := loosest ⟨operator', between.tokens.head?⟩ (by simp)
      have above := tighter' ⟨operator, after.tokens.head?⟩ (by simp)
      rw [head?_tokens_join] at above
      omega

theorem exists_reads (level : Link → Nat) {p : Phrase} (h : p.WellFormed) :
    ∃ tree : Expr, p.Reads level tree := by
  apply division_induction level _ _ _ _ h
  · intro token _
    exact ⟨_, .value⟩
  · intro sign number _
    exact ⟨_, .signed⟩
  · intro opening inner closing _ ih
    obtain ⟨tree, reads⟩ := ih
    exact ⟨tree, .group reads⟩
  · intro before operator after wf found ihBefore ihAfter
    obtain ⟨_, loosest, tighter⟩ := split?_spec wf found
    obtain ⟨left, readsLeft⟩ := ihBefore
    obtain ⟨right, readsRight⟩ := ihAfter
    exact ⟨_, .operation readsLeft readsRight loosest tighter⟩

theorem length_content_join (before : Phrase) (operator : Token) (after : Phrase) :
    before.content.length < (before.join operator after).content.length := by
  rw [content_join, List.length_append, List.length_cons]
  omega

/-- What is held before a division tells where it is. -/
theorem division_unique_of_content {before after before' after' : Phrase}
    {operator operator' : Token} (sameContent : before.content = before'.content)
    (same : before.join operator after = before'.join operator' after') :
    before = before' ∧ operator = operator' ∧ after = after' := by
  rcases join_eq_join same with equal | ⟨between, rfl, _⟩ | ⟨between, rfl, _⟩
  · exact equal
  · have := length_content_join before operator between
    rw [← sameContent] at this
    exact absurd this (Nat.lt_irrefl _)
  · have := length_content_join before' operator' between
    rw [sameContent] at this
    exact absurd this (Nat.lt_irrefl _)

theorem Reads.division_unique {before after before' after' : Phrase} {operator operator' : Token}
    {level other : Link → Nat} {left : Expr} (h : before.Reads level left)
    (h' : before'.Reads other left)
    (same : before.join operator after = before'.join operator' after') :
    before = before' ∧ operator = operator' ∧ after = after' := by
  -- The left side of the expression tells how much of the chain stands before its root.
  have sameContent : before.content = before'.content := by
    rw [← h.values_inorder, h'.values_inorder]
  exact division_unique_of_content sameContent same

end Phrase

/-- A list is parsed to the reading of its phrase by signed levels. -/
theorem Expr.parse_tokens_eq_ok_iff {p : Phrase} (h : p.WellFormed) {tree : Expr} :
    Expr.parse p.tokens = .ok tree ↔ p.Reads Link.signedLevel tree := by
  obtain ⟨found, parsed, reads⟩ := Phrase.exists_parse h
  rw [parsed, Except.ok.injEq]
  constructor
  · rintro rfl
    exact reads
  · exact reads.unique

theorem Expr.parse_identifier {token : Token} (h : token.kind = .identifier) :
    Expr.parse [token] = .ok (.leaf token) :=
  (Expr.parse_tokens_eq_ok_iff (p := .value token) (.inr h)).2 .value

end Reckoner
