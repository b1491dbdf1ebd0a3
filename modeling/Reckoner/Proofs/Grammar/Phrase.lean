import Mathlib
import Reckoner.Expression.Parse

/-!
# Phrases: the concrete syntax of formulas

A phrase is what a formula, or a pair of brackets inside of one, holds: operands with a binary
operator between each two. `Phrase.tokens` writes a phrase out, `Phrase.WellFormed` tells the
phrases of the grammar from the others, and `Phrase.Reads` says which expression a phrase stands
for once every binary operator has a level. Nothing here refers to how token lists are parsed.
-/

set_option autoImplicit false

namespace Reckoner

/-- A chain ends in an operand, which is a phrase other than a chain. -/
inductive Phrase where
  | value (token : Token)
  | signed (sign number : Token)
  | group (opening : Token) (inner : Phrase) (closing : Token)
  | chain (before : Phrase) (operator : Token) (operand : Phrase)
  deriving DecidableEq, Repr

namespace Token

def isFactor (t : Token) : Bool := t.kind == .operator .star || t.kind == .operator .slash

def isSummand (t : Token) : Bool := t.kind == .operator .plus || t.kind == .operator .minus

end Token

structure Link where
  operator : Token
  next : Option Token
  deriving DecidableEq, Repr

namespace Link

/-- The loosest operator has the greatest level. -/
def standardLevel (link : Link) : Nat :=
  match link.operator.kind with
  | .operator .equal => 2
  | .operator .plus | .operator .minus | .operator .percent => 1
  | .operator .star | .operator .slash | .number | .identifier | .opening | .closing => 0

/-- A tight operator directly before a `+` or a `-`. -/
def isPromoted (link : Link) : Bool :=
  link.standardLevel == 0 && link.next.any Token.isSummand

/-- A sign directly after a tight operator raises it to the level of addition. -/
def signedLevel (link : Link) : Nat := if link.isPromoted then 1 else link.standardLevel

theorem standardLevel_le_signedLevel (link : Link) : link.standardLevel ≤ link.signedLevel := by
  unfold signedLevel
  split
  · rename_i promoted
    simp only [isPromoted, Bool.and_eq_true, beq_iff_eq] at promoted
    rw [promoted.1]
    exact Nat.zero_le 1
  · exact Nat.le_refl _

theorem signedLevel_of_not_isPromoted {link : Link} (h : link.isPromoted = false) :
    link.signedLevel = link.standardLevel := by
  simp [signedLevel, h]

theorem levels_of_isPromoted {link : Link} (h : link.isPromoted = true) :
    link.signedLevel = 1 ∧ link.standardLevel = 0 := by
  refine ⟨by simp [signedLevel, h], ?_⟩
  simp only [isPromoted, Bool.and_eq_true, beq_iff_eq] at h
  exact h.1

theorem isPromoted_eq_false {link : Link} (h : link.signedLevel ≠ 1) :
    link.isPromoted = false := by
  cases promoted : link.isPromoted with
  | false => rfl
  | true => exact absurd (levels_of_isPromoted promoted).1 h

end Link

namespace Phrase

def tokens : Phrase → List Token
  | value token => [token]
  | signed sign number => [sign, number]
  | group opening inner closing => opening :: (inner.tokens ++ [closing])
  | chain before operator operand => before.tokens ++ operator :: operand.tokens

def isOperand : Phrase → Bool
  | value _ | signed .. | group .. => true
  | chain .. => false

def startsSigned : Phrase → Bool
  | value _ | group .. => false
  | signed .. => true
  | chain before _ _ => before.startsSigned

/-- The grammar: an operand is a number, a name, a phrase in brackets, or a sign before a number
that carries a value; the signed form may stand first and after any operator but the remainder. -/
def WellFormed : Phrase → Prop
  | value token => token.kind = .number ∨ token.kind = .identifier
  | signed sign number =>
    sign.isSign = true ∧ number.kind = .number ∧ number.number.isSome = true
  | group opening inner closing =>
    opening.kind = .opening ∧ inner.WellFormed ∧ closing.kind = .closing
  | chain before operator operand =>
    before.WellFormed ∧ operator.operator?.isSome = true ∧
      operand.WellFormed ∧ operand.isOperand = true ∧
      (operator.kind = .operator .percent → operand.startsSigned = false)

instance decidableWellFormed : DecidablePred WellFormed
  | value token => inferInstanceAs (Decidable (token.kind = .number ∨ token.kind = .identifier))
  | signed sign number =>
    inferInstanceAs (Decidable (sign.isSign = true ∧ number.kind = .number ∧
      number.number.isSome = true))
  | group opening inner closing =>
    have := decidableWellFormed inner
    inferInstanceAs (Decidable (opening.kind = .opening ∧ inner.WellFormed ∧
      closing.kind = .closing))
  | chain before operator operand =>
    have := decidableWellFormed before
    have := decidableWellFormed operand
    inferInstanceAs (Decidable (before.WellFormed ∧ operator.operator?.isSome = true ∧
      operand.WellFormed ∧ operand.isOperand = true ∧
      (operator.kind = .operator .percent → operand.startsSigned = false)))

/-- The binary operators outside of inner brackets, from left to right. -/
def links : Phrase → List Link
  | value _ | signed .. | group .. => []
  | chain before operator operand => before.links ++ [⟨operator, operand.tokens.head?⟩]

def join (before : Phrase) (operator : Token) : Phrase → Phrase
  | chain rest last operand => chain (join before operator rest) last operand
  | value token => chain before operator (value token)
  | signed sign number => chain before operator (signed sign number)
  | group opening inner closing => chain before operator (group opening inner closing)

/-- The number that a sign and a number make; a plus leaves the number as it is. -/
def signedToken (sign number : Token) : Token :=
  if sign.kind = .operator .minus then
    .ofNumber (-(number.number.getD 0.0)) (sign.span.merge number.span)
  else number

/-- Which expression a phrase stands for: the root is the last of the loosest operators, and what
stands before and after it is read the same way. Brackets leave no trace. -/
inductive Reads (level : Link → Nat) : Phrase → Expr → Prop where
  | value {token : Token} : Reads level (.value token) (.leaf token)
  | signed {sign number : Token} :
    Reads level (.signed sign number) (.leaf (signedToken sign number))
  | group {opening closing : Token} {inner : Phrase} {tree : Expr} :
    Reads level inner tree → Reads level (.group opening inner closing) tree
  | operation {before after : Phrase} {operator : Token} {left right : Expr} :
    Reads level before left → Reads level after right →
    (∀ link ∈ before.links, level link ≤ level ⟨operator, after.tokens.head?⟩) →
    (∀ link ∈ after.links, level link < level ⟨operator, after.tokens.head?⟩) →
    Reads level (before.join operator after) (.node operator left right)

/-- The tokens of the expression in their order: those of the phrase without brackets, each sign
fused with its number. -/
def content : Phrase → List Token
  | value token => [token]
  | signed sign number => [signedToken sign number]
  | group _ inner _ => inner.content
  | chain before operator operand => before.content ++ operator :: operand.content

/-- A chain divided at the last of its loosest operators. -/
def split? (level : Link → Nat) : Phrase → Option (Phrase × Token × Phrase)
  | value _ | signed .. | group .. => none
  | chain before operator operand =>
    match before.split? level with
    | none => some (before, operator, operand)
    | some (first, loosest, between) =>
      if level ⟨operator, operand.tokens.head?⟩ < level ⟨loosest, between.tokens.head?⟩ then
        some (first, loosest, chain between operator operand)
      else some (before, operator, operand)

theorem tokens_ne_nil (p : Phrase) : p.tokens ≠ [] := by
  cases p <;> simp [tokens]

theorem length_tokens_pos (p : Phrase) : 0 < p.tokens.length :=
  List.length_pos_iff.2 p.tokens_ne_nil

theorem join_of_isOperand (before : Phrase) (operator : Token) {operand : Phrase}
    (h : operand.isOperand = true) :
    before.join operator operand = .chain before operator operand := by
  cases operand with
  | chain => cases h
  | value | signed | group => rfl

@[simp] theorem isOperand_join (before : Phrase) (operator : Token) (after : Phrase) :
    (before.join operator after).isOperand = false := by
  cases after <;> rfl

@[simp] theorem tokens_join (before : Phrase) (operator : Token) (after : Phrase) :
    (before.join operator after).tokens = before.tokens ++ operator :: after.tokens := by
  induction after with
  | value | signed | group => rfl
  | chain rest last operand ih _ => simp [join, tokens, ih]

@[simp] theorem content_join (before : Phrase) (operator : Token) (after : Phrase) :
    (before.join operator after).content = before.content ++ operator :: after.content := by
  induction after with
  | value | signed | group => rfl
  | chain rest last operand ih _ => simp [join, content, ih]

theorem length_tokens_join (before : Phrase) (operator : Token) (after : Phrase) :
    (before.join operator after).tokens.length =
      before.tokens.length + after.tokens.length + 1 := by
  rw [tokens_join, List.length_append, List.length_cons]
  omega

theorem length_tokens_group (opening : Token) (inner : Phrase) (closing : Token) :
    (group opening inner closing).tokens.length = inner.tokens.length + 2 := by
  simp [tokens]

theorem head?_tokens_append (p : Phrase) (rest : List Token) :
    (p.tokens ++ rest).head? = p.tokens.head? := by
  obtain ⟨first, others, split⟩ := List.exists_cons_of_ne_nil p.tokens_ne_nil
  rw [split]
  rfl

@[simp] theorem links_join (before : Phrase) (operator : Token) (after : Phrase) :
    (before.join operator after).links =
      before.links ++ ⟨operator, after.tokens.head?⟩ :: after.links := by
  induction after with
  | value | signed | group => rfl
  | chain rest last operand ih _ =>
    simp only [join, links, ih, tokens, head?_tokens_append, List.append_assoc, List.cons_append]

theorem links_of_isOperand {p : Phrase} (h : p.isOperand = true) : p.links = [] := by
  cases p with
  | chain => cases h
  | value | signed | group => rfl

theorem wellFormed_join {before after : Phrase} {operator : Token} :
    (before.join operator after).WellFormed ↔
      before.WellFormed ∧ operator.operator?.isSome = true ∧ after.WellFormed ∧
        (operator.kind = .operator .percent → after.startsSigned = false) := by
  induction after with
  | value | signed | group => simp [join, WellFormed, isOperand]
  | chain rest last operand ih _ =>
    simp only [join, WellFormed, ih, startsSigned]
    constructor
    · rintro ⟨⟨wf, op, restWf, sign⟩, lastWf⟩
      exact ⟨wf, op, ⟨restWf, lastWf⟩, sign⟩
    · rintro ⟨wf, op, ⟨restWf, lastWf⟩, sign⟩
      exact ⟨⟨wf, op, restWf, sign⟩, lastWf⟩

/-- Of two divisions of a chain, either both are the same or one comes before the other. -/
theorem join_eq_join {before after before' after' : Phrase} {operator operator' : Token}
    (h : before.join operator after = before'.join operator' after') :
    (before = before' ∧ operator = operator' ∧ after = after') ∨
      (∃ between : Phrase, before' = before.join operator between ∧
        after = between.join operator' after') ∨
      (∃ between : Phrase, before = before'.join operator' between ∧
        after' = between.join operator after) := by
  induction after generalizing after' with
  | value | signed | group =>
    cases after' with
    | value | signed | group =>
      simp only [join, chain.injEq] at h
      exact .inl h
    | chain rest last operand =>
      simp only [join, chain.injEq] at h
      obtain ⟨rfl, rfl, rfl⟩ := h
      exact .inr (.inr ⟨rest, rfl, rfl⟩)
  | chain rest last operand ih _ =>
    cases after' with
    | value | signed | group =>
      simp only [join, chain.injEq] at h
      obtain ⟨rfl, rfl, rfl⟩ := h
      exact .inr (.inl ⟨rest, rfl, rfl⟩)
    | chain rest' last' operand' =>
      simp only [join, chain.injEq] at h
      obtain ⟨inner, rfl, rfl⟩ := h
      rcases ih inner with ⟨rfl, rfl, rfl⟩ | ⟨between, rfl, rfl⟩ | ⟨between, rfl, rfl⟩
      · exact .inl ⟨rfl, rfl, rfl⟩
      · exact .inr (.inl ⟨between, rfl, rfl⟩)
      · exact .inr (.inr ⟨between, rfl, rfl⟩)

theorem exists_split? {p : Phrase} (level : Link → Nat) (chained : p.isOperand = false) :
    ∃ (before : Phrase) (operator : Token) (after : Phrase),
      p.split? level = some (before, operator, after) := by
  cases p with
  | value | signed | group => cases chained
  | chain before operator operand =>
    rw [split?]
    split
    · exact ⟨_, _, _, rfl⟩
    · split <;> exact ⟨_, _, _, rfl⟩

theorem split?_spec {p before after : Phrase} {operator : Token} {level : Link → Nat}
    (h : p.WellFormed) (found : p.split? level = some (before, operator, after)) :
    p = before.join operator after ∧
      (∀ link ∈ before.links, level link ≤ level ⟨operator, after.tokens.head?⟩) ∧
      (∀ link ∈ after.links, level link < level ⟨operator, after.tokens.head?⟩) := by
  induction p generalizing before operator after with
  | value | signed | group => cases found
  | chain earlier last operand ih _ =>
    obtain ⟨wf, _, _, single, _⟩ := h
    rw [split?] at found
    cases inside : earlier.split? level with
    | none =>
      simp only [inside, Option.some.injEq, Prod.mk.injEq] at found
      obtain ⟨rfl, rfl, rfl⟩ := found
      have only : earlier.isOperand = true := by
        cases chained : earlier.isOperand with
        | true => rfl
        | false =>
          obtain ⟨_, _, _, split⟩ := exists_split? level chained
          rw [inside] at split
          cases split
      refine ⟨(join_of_isOperand _ _ single).symm, ?_, ?_⟩
      · simp [links_of_isOperand only]
      · simp [links_of_isOperand single]
    | some parts =>
      obtain ⟨first, loosest, between⟩ := parts
      obtain ⟨rfl, looser, tighter⟩ := ih wf inside
      simp only [inside] at found
      split at found
      · rename_i tight
        cases found
        refine ⟨rfl, ?_, ?_⟩
        · rw [tokens, head?_tokens_append]
          exact looser
        · simp only [links, tokens, head?_tokens_append, List.mem_append, List.mem_singleton]
          rintro link (inside | rfl)
          · exact tighter link inside
          · exact tight
      · rename_i loose
        cases found
        refine ⟨(join_of_isOperand _ _ single).symm, ?_, ?_⟩
        · simp only [links_join, List.mem_append, List.mem_cons]
          rintro link (inside | rfl | inside)
          · exact Nat.le_trans (looser link inside) (Nat.not_lt.1 loose)
          · exact Nat.not_lt.1 loose
          · exact Nat.le_trans (Nat.le_of_lt (tighter link inside)) (Nat.not_lt.1 loose)
        · simp [links_of_isOperand single]

theorem division_induction (level : Link → Nat) {motive : Phrase → Prop}
    (value : ∀ token : Token, (Phrase.value token).WellFormed → motive (.value token))
    (signed : ∀ sign number : Token, (Phrase.signed sign number).WellFormed →
      motive (.signed sign number))
    (group : ∀ (opening : Token) (inner : Phrase) (closing : Token),
      (Phrase.group opening inner closing).WellFormed → motive inner →
      motive (.group opening inner closing))
    (division : ∀ (before : Phrase) (operator : Token) (after : Phrase),
      (before.join operator after).WellFormed →
      (before.join operator after).split? level = some (before, operator, after) →
      motive before → motive after → motive (before.join operator after))
    {p : Phrase} (h : p.WellFormed) : motive p := by
  induction size : p.tokens.length using Nat.strongRecOn generalizing p with
  | ind length ih =>
    subst size
    cases chained : p.isOperand with
    | true =>
      cases p with
      | chain => cases chained
      | value token => exact value token h
      | signed sign number => exact signed sign number h
      | group opening inner closing =>
        have total := length_tokens_group opening inner closing
        exact group opening inner closing h (ih _ (by omega) h.2.1 rfl)
    | false =>
      obtain ⟨before, operator, after, found⟩ := exists_split? level chained
      obtain ⟨rfl, _, _⟩ := split?_spec h found
      obtain ⟨beforeWf, _, afterWf, _⟩ := wellFormed_join.1 h
      have total := length_tokens_join before operator after
      have left := ih _ (by omega) beforeWf rfl
      have right := ih _ (by omega) afterWf rfl
      exact division before operator after h found left right

end Phrase

end Reckoner
