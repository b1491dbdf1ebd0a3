import Reckoner.Proofs.Grammar.Phrase

/-!
# Brackets of a phrase

The brackets of a well-formed phrase match one another, so reading it leaves the unmatched
brackets as they were. The first token and the last enclose a phrase only if it is one group:
in a chain that starts with a group, that group is closed before the end.
-/

set_option autoImplicit false

namespace Reckoner

theorem Unmatched.next_of_value {token : Token} (u : Unmatched)
    (h : token.kind = .number ∨ token.kind = .identifier) : u.next token = u := by
  rcases h with h | h <;> simp [next, h]

theorem Unmatched.next_of_operator {token : Token} (u : Unmatched)
    (h : token.operator?.isSome = true) : u.next token = u := by
  cases kind : token.kind <;> simp [Token.operator?, kind] at h
  simp [next, kind]

theorem Token.isSome_operator?_of_isSign {token : Token} (h : token.isSign = true) :
    token.operator?.isSome = true := by
  cases op : token.operator? with
  | none => simp [Token.isSign, op] at h
  | some _ => rfl

theorem Unmatched.foldl_next_ne_none {u : Unmatched} (h : u.closings ≠ []) (tokens : List Token) :
    tokens.foldl Unmatched.next u ≠ .none := by
  induction tokens generalizing u with
  | nil => rintro rfl; exact h rfl
  | cons token rest ih =>
    apply ih
    unfold Unmatched.next
    split
    · exact h
    · split
      · exact List.cons_ne_nil _ _
      · exact h
    · exact h

/-- What lies between two brackets that enclose a list. -/
theorem enclosed?_eq_some_iff {tokens inner : List Token} :
    enclosed? tokens = some inner ↔
      ∃ opening closing : Token, opening.kind = .opening ∧ closing.kind = .closing ∧
        properlyNested inner = true ∧ tokens = opening :: (inner ++ [closing]) := by
  constructor
  · intro h
    cases tokens with
    | nil => cases h
    | cons first rest =>
      unfold enclosed? at h
      cases found : rest.getLast? with
      | none => simp [found] at h
      | some last =>
        simp only [found] at h
        split at h
        · rename_i fits
          cases h
          obtain ⟨earlier, rfl⟩ := List.getLast?_eq_some_iff.1 found
          exact ⟨first, last, fits.1, fits.2.1, fits.2.2, by simp⟩
        · cases h
  · rintro ⟨opening, closing, opens, closes, nested, rfl⟩
    simp [enclosed?, opens, closes, nested]

theorem stripped_of_enclosed? {tokens inner : List Token} (nested : properlyNested tokens = true)
    (enclosed : enclosed? tokens = some inner) (nonempty : inner ≠ []) :
    stripped tokens = stripped inner := by
  obtain ⟨first, rest, rfl⟩ := List.exists_cons_of_ne_nil nonempty
  have fine : (Unmatched.ofTokens tokens).error? = none := by
    rw [eq_of_beq nested]
    rfl
  rw [stripped]
  split
  · rename_i found
    rw [fine] at found
    cases found
  · split <;> simp_all

theorem stripped_of_not_enclosed {tokens : List Token} (nested : properlyNested tokens = true)
    (bare : enclosed? tokens = none) : stripped tokens = .ok tokens := by
  have fine : (Unmatched.ofTokens tokens).error? = none := by
    rw [eq_of_beq nested]
    rfl
  rw [stripped]
  split
  · rename_i found
    rw [fine] at found
    cases found
  · split <;> simp_all

theorem enclosed?_eq_none_of_closed {opening closing : Token} {inner rest : List Token}
    (nested : properlyNested inner = true) (closes : closing.kind = .closing) (more : rest ≠ []) :
    enclosed? (opening :: (inner ++ closing :: rest)) = none := by
  rw [Option.eq_none_iff_forall_ne_some]
  intro between enclosed
  obtain ⟨_, _, _, _, matched, split⟩ := enclosed?_eq_some_iff.1 enclosed
  rw [List.cons.injEq] at split
  have between_eq : between = inner ++ closing :: rest.dropLast := by
    have shortened := congrArg List.dropLast split.2
    simpa [List.dropLast_cons_of_ne_nil more] using shortened.symm
  have unmatched : Unmatched.ofTokens between ≠ .none := by
    rw [between_eq, Unmatched.ofTokens, List.foldl_append, ← Unmatched.ofTokens, eq_of_beq nested,
      List.foldl_cons]
    apply Unmatched.foldl_next_ne_none
    simp [Unmatched.next, closes, Unmatched.none]
  exact unmatched (eq_of_beq matched)

namespace Phrase

theorem foldl_next_tokens {p : Phrase} (h : p.WellFormed) (u : Unmatched) :
    p.tokens.foldl Unmatched.next u = u := by
  induction p generalizing u with
  | value token => exact u.next_of_value h
  | signed sign number =>
    obtain ⟨isSign, isNumber, _⟩ := h
    simp only [tokens, List.foldl_cons, List.foldl_nil]
    rw [u.next_of_operator (Token.isSome_operator?_of_isSign isSign),
      u.next_of_value (.inl isNumber)]
  | group opening inner closing ih =>
    obtain ⟨opens, wf, closes⟩ := h
    simp only [tokens, List.foldl_cons, List.foldl_append, List.foldl_nil, ih wf]
    simp [Unmatched.next, opens, closes]
  | chain before operator operand ihBefore ihOperand =>
    obtain ⟨wfBefore, isOperator, wfOperand, _⟩ := h
    simp only [tokens, List.foldl_cons, List.foldl_append, ihBefore wfBefore,
      u.next_of_operator isOperator, ihOperand wfOperand]

theorem properlyNested_tokens {p : Phrase} (h : p.WellFormed) :
    properlyNested p.tokens = true := by
  rw [properlyNested, Unmatched.ofTokens, foldl_next_tokens h]
  rfl

theorem exists_first_operand {p : Phrase} (h : p.WellFormed) (chained : p.isOperand = false) :
    ∃ (first : Phrase) (operator : Token) (rest : List Token), first.WellFormed ∧
      first.isOperand = true ∧ p.tokens = first.tokens ++ operator :: rest := by
  induction p with
  | value | signed | group => cases chained
  | chain before operator operand ih _ =>
    obtain ⟨wf, _⟩ := h
    cases single : before.isOperand with
    | true => exact ⟨before, operator, operand.tokens, wf, single, rfl⟩
    | false =>
      obtain ⟨first, next, rest, firstWf, isOperand, split⟩ := ih wf single
      exact ⟨first, next, rest ++ operator :: operand.tokens, firstWf, isOperand,
        by simp [tokens, split]⟩

theorem enclosed?_group {opening closing : Token} {inner : Phrase}
    (h : (group opening inner closing).WellFormed) :
    enclosed? (group opening inner closing).tokens = some inner.tokens :=
  enclosed?_eq_some_iff.2
    ⟨opening, closing, h.1, h.2.2, properlyNested_tokens h.2.1, rfl⟩

/-- A group at the start of a longer list is closed before the last token. -/
theorem enclosed?_group_append {opening closing operator : Token} {inner : Phrase}
    {rest : List Token} (h : (group opening inner closing).WellFormed) :
    enclosed? ((group opening inner closing).tokens ++ operator :: rest) = none := by
  obtain ⟨_, wf, closes⟩ := h
  have shape : (group opening inner closing).tokens ++ operator :: rest =
      opening :: (inner.tokens ++ closing :: operator :: rest) := by simp [tokens]
  rw [shape]
  exact enclosed?_eq_none_of_closed (properlyNested_tokens wf) closes (List.cons_ne_nil _ _)

theorem enclosed?_eq_none_of_head {first : Token} {rest : List Token}
    (h : first.kind ≠ .opening) : enclosed? (first :: rest) = none := by
  rw [Option.eq_none_iff_forall_ne_some]
  intro between enclosed
  obtain ⟨_, _, opens, _, _, split⟩ := enclosed?_eq_some_iff.1 enclosed
  cases split
  exact h opens

theorem enclosed?_chain {p : Phrase} (h : p.WellFormed) (chained : p.isOperand = false) :
    enclosed? p.tokens = none := by
  obtain ⟨first, operator, rest, wf, isOperand, split⟩ := exists_first_operand h chained
  rw [split]
  cases first with
  | chain => cases isOperand
  | group => exact enclosed?_group_append wf
  | value token =>
    apply enclosed?_eq_none_of_head
    rcases wf with kind | kind <;> simp [kind]
  | signed sign number =>
    apply enclosed?_eq_none_of_head
    intro opens
    have isOperator := Token.isSome_operator?_of_isSign wf.1
    simp [Token.operator?, opens] at isOperator

theorem stripped_group {opening closing : Token} {inner : Phrase}
    (h : (group opening inner closing).WellFormed) :
    stripped (group opening inner closing).tokens = stripped inner.tokens :=
  stripped_of_enclosed? (properlyNested_tokens h) (enclosed?_group h) inner.tokens_ne_nil

theorem stripped_chain {p : Phrase} (h : p.WellFormed) (chained : p.isOperand = false) :
    stripped p.tokens = .ok p.tokens :=
  stripped_of_not_enclosed (properlyNested_tokens h) (enclosed?_chain h chained)

theorem stripped_value {token : Token} (h : (value token).WellFormed) :
    stripped [token] = .ok [token] :=
  stripped_of_not_enclosed (properlyNested_tokens h) rfl

theorem stripped_signed {sign number : Token} (h : (signed sign number).WellFormed) :
    stripped [sign, number] = .ok [sign, number] := by
  apply stripped_of_not_enclosed (properlyNested_tokens h)
  apply enclosed?_eq_none_of_head
  intro opens
  have isOperator := Token.isSome_operator?_of_isSign h.1
  simp [Token.operator?, opens] at isOperator

/-- If a list is a phrase once its outer brackets are taken off, it is one with them. -/
theorem exists_of_stripped {tokens slice : List Token} (h : stripped tokens = .ok slice)
    {p : Phrase} (wf : p.WellFormed) (written : p.tokens = slice) :
    ∃ q : Phrase, q.WellFormed ∧ q.tokens = tokens := by
  fun_induction stripped tokens with
  | case1 => cases h
  | case2 tokens _ _ =>
    cases h
    exact ⟨p, wf, written⟩
  | case3 => cases h
  | case4 tokens _ token rest enclosed ih =>
    obtain ⟨q, qWf, qWritten⟩ := ih h
    obtain ⟨opening, closing, opens, closes, _, split⟩ := enclosed?_eq_some_iff.1 enclosed
    exact ⟨.group opening q closing, ⟨opens, qWf, closes⟩, by rw [split, Phrase.tokens, qWritten]⟩

end Phrase

end Reckoner
