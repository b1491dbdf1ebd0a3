import Reckoner.Proofs.Grammar.Phrase

/-!
# Which token may come next

Brackets aside, the token after any beginning of a phrase is one of four sorts: an operand that may have
a sign, one that may not, the number of a sign, or what comes after an operand. A phrase of the grammar
keeps to this order from its first token to its last, so a list that leaves it is no phrase.
-/

set_option autoImplicit false

namespace Reckoner

inductive Awaited where
  | operand
  | unsigned
  | number
  | operator
  deriving DecidableEq, Repr

namespace Awaited

def next : Awaited → TokenKind → Option Awaited
  | operand, .number | operand, .identifier => some operator
  | operand, .opening => some operand
  | operand, .operator .plus | operand, .operator .minus => some number
  | unsigned, .number | unsigned, .identifier => some operator
  | unsigned, .opening => some operand
  | number, .number => some operator
  | operator, .closing => some operator
  | operator, .operator .percent => some unsigned
  | operator, .operator _ => some operand
  | _, _ => none

def after (awaited : Awaited) (tokens : List Token) : Option Awaited :=
  tokens.foldlM (fun awaited token => awaited.next token.kind) awaited

@[simp] theorem after_nil (awaited : Awaited) : awaited.after [] = some awaited := rfl

theorem after_cons (awaited : Awaited) (token : Token) (rest : List Token) :
    awaited.after (token :: rest) = (awaited.next token.kind).bind (·.after rest) := rfl

theorem after_append (awaited : Awaited) (tokens rest : List Token) :
    awaited.after (tokens ++ rest) = (awaited.after tokens).bind (·.after rest) :=
  List.foldlM_append

def ofOperator (kind : TokenKind) : Awaited :=
  if kind = .operator .percent then unsigned else operand

theorem ofOperator_eq (kind : TokenKind) : ofOperator kind = operand ∨ ofOperator kind = unsigned := by
  unfold ofOperator
  split
  · exact .inr rfl
  · exact .inl rfl

theorem next_operator {token : Token} (h : token.operator?.isSome = true) :
    operator.next token.kind = some (ofOperator token.kind) := by
  unfold Token.operator? at h
  split at h
  · rename_i op kind
    rw [kind]
    cases op <;> rfl
  · cases h

/-- Whether an operand may have a sign does not matter for what stands in brackets. -/
theorem after_group {awaited : Awaited} {opening closing : Token}
    (ready : awaited = operand ∨ awaited = unsigned) (opens : opening.kind = .opening)
    (closes : closing.kind = .closing) (tokens : List Token) :
    awaited.after (opening :: (tokens ++ [closing])) =
      (operand.after tokens).bind (·.next .closing) := by
  have within : awaited.next opening.kind = some operand := by
    rw [opens]
    rcases ready with rfl | rfl <;> rfl
  rw [after_cons, within, Option.bind_some, after_append]
  congr
  funext inner
  rw [after_cons, closes]
  cases inner.next .closing <;> rfl

/-- A phrase keeps to the order wherever an operand is awaited; without a sign of its own it may also
stand where none is allowed. -/
theorem after_tokens {p : Phrase} (h : p.WellFormed) :
    operand.after p.tokens = some operator ∧
      (p.startsSigned = false → unsigned.after p.tokens = some operator) := by
  induction p with
  | value token =>
    rcases h with kind | kind <;>
      exact ⟨by simp [Phrase.tokens, after_cons, kind, next],
        fun _ => by simp [Phrase.tokens, after_cons, kind, next]⟩
  | signed sign number =>
    obtain ⟨isSign, isNumber, _⟩ := h
    refine ⟨?_, fun unsigned => absurd unsigned (by simp [Phrase.startsSigned])⟩
    cases kind : sign.kind with
    | operator op =>
      cases op <;> simp [Token.isSign, Token.operator?, kind, Operator.isSign] at isSign <;>
        simp [Phrase.tokens, after_cons, kind, isNumber, next]
    | _ => simp [Token.isSign, Token.operator?, kind] at isSign
  | group opening inner closing ih =>
    obtain ⟨opens, innerWf, closes⟩ := h
    obtain ⟨within, _⟩ := ih innerWf
    constructor
    · rw [Phrase.tokens, after_group (.inl rfl) opens closes, within]
      rfl
    · intro _
      rw [Phrase.tokens, after_group (.inr rfl) opens closes, within]
      rfl
  | chain before token last ihBefore ihLast =>
    obtain ⟨beforeWf, isOperator, lastWf, _, undivided⟩ := h
    obtain ⟨first, firstUnsigned⟩ := ihBefore beforeWf
    obtain ⟨second, secondUnsigned⟩ := ihLast lastWf
    have later : Awaited.operator.after (token :: last.tokens) = some operator := by
      rw [after_cons, next_operator isOperator, Option.bind_some, ofOperator]
      split
      · rename_i percent
        exact secondUnsigned (undivided percent)
      · exact second
    rw [Phrase.tokens, after_append, after_append]
    constructor
    · rw [first, Option.bind_some, later]
    · intro unsigned
      rw [firstUnsigned unsigned, Option.bind_some, later]

end Awaited

end Reckoner
