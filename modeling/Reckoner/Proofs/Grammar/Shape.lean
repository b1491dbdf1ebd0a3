import Reckoner.Proofs.Grammar.Reading

/-!
# The shape of parsed expressions

Every operator of a parsed expression has both of its operands, and nothing stands below its numbers
and names. All of its tokens are tokens of the list, but for the numbers that have taken up a minus.
-/

set_option autoImplicit false

namespace Reckoner

namespace Expr

inductive WellShaped : Expr → Prop where
  | value {token : Token} :
    token.kind = .number ∨ token.kind = .identifier → WellShaped (.leaf token)
  | operation {operator : Token} {left right : Expr} :
    operator.operator?.isSome = true → WellShaped left → WellShaped right →
    WellShaped (.node operator left right)

theorem WellShaped.ne_nil {tree : Expr} (h : tree.WellShaped) : tree ≠ .nil := by
  cases h with
  | value => simp [Tree.leaf]
  | operation => simp

theorem WellShaped.operands {root : Token} {left right : Expr}
    (h : WellShaped (.node root left right)) (isOperator : root.operator?.isSome = true) :
    left.WellShaped ∧ right.WellShaped := by
  generalize whole : Tree.node root left right = tree at h
  cases h with
  | value kind =>
    cases whole
    rcases kind with kind | kind <;> simp [Token.operator?, kind] at isOperator
  | operation _ leftShape rightShape =>
    cases whole
    exact ⟨leftShape, rightShape⟩

end Expr

namespace Phrase

theorem kind_signedToken {sign number : Token} (h : number.kind = .number) :
    (signedToken sign number).kind = .number := by
  unfold signedToken
  split
  · rfl
  · exact h

theorem Reads.wellShaped {level : Link → Nat} {p : Phrase} {tree : Expr}
    (h : p.Reads level tree) (wf : p.WellFormed) : tree.WellShaped := by
  induction h with
  | value => exact .value wf
  | signed => exact .value (.inl (kind_signedToken wf.2.1))
  | group _ ih => exact ih wf.2.1
  | operation _ _ _ _ ihLeft ihRight =>
    obtain ⟨beforeWf, isOperator, afterWf, _⟩ := wellFormed_join.1 wf
    exact .operation isOperator (ihLeft beforeWf) (ihRight afterWf)

/-- What holds of all tokens of a phrase holds of its content, if it passes from a sign and a number
to the number that they make. -/
theorem forall_content {Q : Token → Prop} {p : Phrase} (all : ∀ token ∈ p.tokens, Q token)
    (fused : ∀ (sign number : Token) (value : Float), Q sign → Q number →
      Q (.ofNumber value (sign.span.merge number.span))) :
    ∀ token ∈ p.content, Q token := by
  induction p with
  | value token => exact all
  | signed sign number =>
    have first := all sign (by simp [tokens])
    have second := all number (by simp [tokens])
    simp only [content, List.mem_singleton]
    rintro token rfl
    unfold signedToken
    split
    · exact fused _ _ _ first second
    · exact second
  | group opening inner closing ih =>
    apply ih
    intro token inside
    exact all token (by simp [tokens, inside])
  | chain before operator operand ihBefore ihOperand =>
    have left := ihBefore fun token inside => all token (by simp [tokens, inside])
    have right := ihOperand fun token inside => all token (by simp [tokens, inside])
    simp only [content, List.mem_append, List.mem_cons]
    rintro token (inside | rfl | inside)
    · exact left token inside
    · exact all token (by simp [tokens])
    · exact right token inside

end Phrase

namespace Expr

variable {tokens : List Token} {tree : Expr}

theorem wellShaped_of_parse (h : parse tokens = .ok tree) : tree.WellShaped := by
  obtain ⟨p, wf, rfl⟩ := Phrase.exists_of_parse h
  exact ((parse_tokens_eq_ok_iff wf).1 h).wellShaped wf

theorem forall_values_of_parse {Q : Token → Prop} (h : parse tokens = .ok tree)
    (all : ∀ token ∈ tokens, Q token)
    (fused : ∀ (sign number : Token) (value : Float), Q sign → Q number →
      Q (.ofNumber value (sign.span.merge number.span))) :
    ∀ token ∈ tree.values .inorder, Q token := by
  obtain ⟨p, wf, rfl⟩ := Phrase.exists_of_parse h
  rw [((parse_tokens_eq_ok_iff wf).1 h).values_inorder]
  exact Phrase.forall_content all fused

end Expr

end Reckoner
