import Reckoner.Expression.Bracketed
import Reckoner.Proofs.Grammar.Reading
import Reckoner.Proofs.Grammar.Succession
import Reckoner.Proofs.Number.Writing
import Reckoner.Proofs.Token.Composition

/-!
# The tokens of a bracketed text

The bracketed text of a parsed expression can always be scanned. It gives the tokens of the expression
with a pair of brackets around each operation; in place of a negative number there are a minus and
what is scanned after it, which is one number unless the number is written with letters.
-/

set_option autoImplicit false

namespace Reckoner

open Token (IsNumeral IsName Spells)

namespace Token

def isNegative (t : Token) : Bool := t.kind == .number && t.lexeme.toList.head? == some '-'

/-- No number that is written with letters, that is, with an exponent or as an infinity. -/
def isPlain (t : Token) : Bool :=
  t.kind != .number || t.lexeme.toList.all fun c => c == '-' || isNumeral c

def openingBracket : Token := symbolAt 0 '(' .opening

def closingBracket : Token := symbolAt 0 ')' .closing

def minusSign : Token := symbolAt 0 '-' (.operator .minus)

/-- What is scanned after the minus of a negative number: the number without its sign, or tokens that
are out of order after a sign. -/
inductive Magnitude (t : Token) : List Token → Prop where
  | plain {number : Token} : number.kind = .number → number.number.isSome = true →
    (Phrase.signedToken minusSign number).Alike Span.Anywhere t → t.isPlain = true →
    Magnitude t [number]
  | garbled {tokens : List Token} : Awaited.number.after tokens = none → t.isPlain = false →
    Magnitude t tokens

section Spelled

variable {t : Token}

theorem isNegative_of_isSpelled (h : t.IsSpelled) : t.isNegative = false := by
  cases kind : t.kind with
  | number =>
    have numeral := h.lexeme
    rw [kind] at numeral
    obtain ⟨c, rest, written⟩ := List.exists_cons_of_ne_nil numeral.ne_nil
    have first := numeral.isNumeral c (by simp [written])
    have other : c ≠ '-' := by
      rintro rfl
      cases first
    simp [isNegative, written, other]
  | identifier | operator | opening | closing => simp [isNegative, kind]

theorem isPlain_of_isSpelled (h : t.IsSpelled) : t.isPlain = true := by
  cases kind : t.kind with
  | number =>
    have numeral := h.lexeme
    rw [kind] at numeral
    have inside := numeral.isNumeral
    simp only [isPlain, Bool.or_eq_true, List.all_eq_true]
    exact .inr fun c member => .inr (inside c member)
  | identifier | operator | opening | closing => simp [isPlain, kind]

theorem IsSpelled.exists_unsigned (h : t.IsSpelled) (kind : t.kind = .number) :
    ∃ value : Float, t.number = some value ∧ (Binary.ofFloat value = .infinite false ∨
      ∃ (m : ℕ) (e : ℤ), Binary.ofFloat value = .finite false m e) := by
  obtain ⟨value, number, nearest⟩ := h.exists_nearest kind
  obtain ⟨unsigned, place, here, _⟩ := (nearest value).2 rfl
  refine ⟨value, number, ?_⟩
  cases taken : Binary.ofFloat value with
  | nan => simp [taken, Binary.place?] at here
  | infinite negative =>
    rw [taken] at unsigned
    obtain rfl : negative = false := unsigned
    exact .inl rfl
  | finite negative m e =>
    rw [taken] at unsigned
    obtain rfl : negative = false := unsigned
    exact .inr ⟨m, e, rfl⟩

end Spelled

theorem toList_lexeme_ofNumber (value : Float) (span : Span) :
    (ofNumber value span).lexeme.toList = Number.chars [] value := by
  simp [ofNumber, Number.brief]

end Token

namespace Expr

open Token (symbol? ofNumber openingBracket closingBracket minusSign)

/-- The tokens of the bracketed text of an expression, up to spans. -/
inductive Rewritten : Expr → List Token → Prop where
  | value {token : Token} : token.kind = .number ∨ token.kind = .identifier → token.IsSpelled →
    Rewritten (.leaf token) [token]
  | negative {token : Token} {tokens : List Token} : token.isNegative = true →
    token.Magnitude tokens → Spells token.lexeme.toList (minusSign :: tokens) →
    Rewritten (.leaf token) (minusSign :: tokens)
  | operation {operator : Token} {left right : Expr} {before after : List Token} :
    operator.operator?.isSome = true → operator.IsSpelled → Rewritten left before →
    Rewritten right after →
    Rewritten (.node operator left right)
      (openingBracket :: (before ++ operator :: after ++ [closingBracket]))

variable {tree : Expr} {tokens : List Token}

theorem Rewritten.ne_nil (h : tree.Rewritten tokens) : tree ≠ .nil := by
  cases h <;> simp [Tree.leaf]

theorem Rewritten.tokens_ne_nil (h : tree.Rewritten tokens) : tokens ≠ [] := by
  cases h <;> simp

theorem toList_bracketed_node {operator : Token} {left right : Expr} (h : left ≠ .nil) :
    (bracketed (.node operator left right)).toList =
      ['('] ++ ((bracketed left).toList ++ ([' '] ++ (operator.lexeme.toList ++
        ([' '] ++ ((bracketed right).toList ++ [')']))))) := by
  have present : left.isNil = false := by simpa [Bool.eq_false_iff] using h
  simp only [bracketed, present, Bool.false_and, Bool.false_eq_true, if_false, String.toList_append,
    List.append_assoc]
  rfl

theorem Rewritten.spells (h : tree.Rewritten tokens) : Spells (bracketed tree).toList tokens := by
  induction h with
  | value _ spelled => exact .token spelled
  | negative _ _ spells => exact spells
  | @operation operator left right before after isOperator spelled leftWritten _ ihLeft ihRight =>
    have closing : Spells [')'] [closingBracket] := .symbol rfl .nil
    have fromRight := ihRight.append_of_not_isWordChar closing (by rintro _ ⟨⟩; rfl)
    have fromOperator := (Spells.token spelled).append_of_not_isWordChar
      (.blank (c := ' ') rfl fromRight) (by rintro _ ⟨⟩; rfl)
    have fromLeft := ihLeft.append_of_not_isWordChar (.blank (c := ' ') rfl fromOperator)
      (by rintro _ ⟨⟩; rfl)
    have opening : symbol? '(' = some .opening := rfl
    rw [toList_bracketed_node leftWritten.ne_nil]
    simpa [openingBracket] using Spells.symbol opening fromLeft

section Negated

variable {value : Float} {span : Span} {written : List Char}

theorem isPlain_negated (h : Number.chars [] (-value) = '-' :: written) :
    (ofNumber (-value) span).isPlain = written.all fun c => c == '-' || Token.isNumeral c := by
  simp only [Token.isPlain, Token.toList_lexeme_ofNumber, h]
  simp [ofNumber]

theorem Rewritten.negated (h : Number.chars [] (-value) = '-' :: written)
    (magnitude : (ofNumber (-value) span).Magnitude tokens) (spells : Spells written tokens) :
    Rewritten (.leaf (ofNumber (-value) span)) (minusSign :: tokens) := by
  have lexeme : (ofNumber (-value) span).lexeme.toList = '-' :: written :=
    (Token.toList_lexeme_ofNumber _ _).trans h
  apply Rewritten.negative _ magnitude
  · rw [lexeme]
    exact .symbol rfl spells
  · rw [Token.isNegative, lexeme]
    rfl

theorem exists_rewritten_of_isNumeral (h : Number.chars [] (-value) = '-' :: written)
    (numeral : IsNumeral written) (read : (Decimal.ofNumeral written).toFloat = value) :
    ∃ tokens : List Token, Rewritten (.leaf (ofNumber (-value) span)) tokens := by
  obtain ⟨number, kind, found, spells⟩ := Spells.number numeral
  rw [read] at found
  have minus : minusSign.kind = .operator .minus := rfl
  have same : (Phrase.signedToken minusSign number).Alike Span.Anywhere (ofNumber (-value) span) := by
    rw [Phrase.signedToken, if_pos minus, found]
    exact ⟨rfl, rfl, rfl, trivial⟩
  have plain : (ofNumber (-value) span).isPlain = true := by
    rw [isPlain_negated h, List.all_eq_true]
    intro c inside
    rw [numeral.isNumeral c inside, Bool.or_true]
  have present : number.number.isSome = true := Option.isSome_iff_exists.2 ⟨value, found⟩
  exact ⟨_, .negated h (.plain kind present same plain) spells⟩

/-- An exponent is scanned as a name, a sign and a number, which are out of order after a number. -/
theorem exists_rewritten_of_hasExponent (h : Number.chars [] (-value) = '-' :: written)
    (exponent : Number.HasExponent written) :
    ∃ tokens : List Token, Rewritten (.leaf (ofNumber (-value) span)) tokens := by
  obtain ⟨mantissa, digits, sign, rfl, numeral, isSign, numeral'⟩ := exponent
  obtain ⟨before, kind, _, spells⟩ := Spells.number numeral
  obtain ⟨mark, markKind, markSpells⟩ := Spells.name ⟨'e', [], rfl, rfl, by simp⟩
  obtain ⟨after, _, _, spells'⟩ := Spells.number numeral'
  obtain ⟨op, symbol⟩ : ∃ op : Operator, symbol? sign = some (.operator op) := by
    rcases isSign with rfl | rfl
    · exact ⟨.plus, rfl⟩
    · exact ⟨.minus, rfl⟩
  have fromMark := markSpells.append_of_not_isWordChar (.symbol symbol spells') (by
    rintro _ ⟨⟩
    rcases isSign with rfl | rfl <;> rfl)
  have whole := spells.append fromMark (by
    rintro t inside _ ⟨⟩
    rw [List.mem_singleton.1 inside, kind]
    rfl)
  refine ⟨_, .negated h (.garbled ?_ ?_) whole⟩
  · rw [List.singleton_append, Awaited.after_cons, kind, List.singleton_append]
    simp [Awaited.next, Awaited.after_cons, markKind]
  · rw [isPlain_negated h]
    simp [Token.isNumeral]

theorem exists_rewritten_of_infinite (h : Number.chars [] (-value) = ['-', 'i', 'n', 'f']) :
    ∃ tokens : List Token, Rewritten (.leaf (ofNumber (-value) span)) tokens := by
  have isName : IsName ['i', 'n', 'f'] := ⟨'i', ['n', 'f'], rfl, rfl, by simp⟩
  obtain ⟨name, kind, spells⟩ := Spells.name isName
  refine ⟨_, .negated h (.garbled ?_ ?_) spells⟩
  · rw [Awaited.after_cons, kind]
    rfl
  · rw [isPlain_negated h]
    rfl

theorem exists_rewritten_negated {number : Token} (h : number.IsSpelled)
    (kind : number.kind = .number) (span : Span) :
    ∃ tokens : List Token,
      Rewritten (.leaf (ofNumber (-(number.number.getD 0.0)) span)) tokens := by
  obtain ⟨value, found, infinite | ⟨m, e, finite⟩⟩ := h.exists_unsigned kind
  · rw [found]
    exact exists_rewritten_of_infinite (Number.chars_neg_of_infinite infinite [])
  · have written := Number.chars_neg finite []
    rw [found]
    rcases Number.reads_magnitude finite with ⟨numeral, read⟩ | exponent
    · exact exists_rewritten_of_isNumeral written numeral read
    · exact exists_rewritten_of_hasExponent written exponent

end Negated

theorem Rewritten.exists_of_reads {p : Phrase} (h : p.Reads Link.signedLevel tree)
    (wf : p.WellFormed) (spelled : ∀ t ∈ p.tokens, t.IsSpelled) :
    ∃ rewritten : List Token, tree.Rewritten rewritten := by
  induction h with
  | value => exact ⟨_, .value wf (spelled _ (by simp [Phrase.tokens]))⟩
  | @signed sign number =>
    obtain ⟨_, kind, _⟩ := wf
    have here : number.IsSpelled := spelled number (by simp [Phrase.tokens])
    unfold Phrase.signedToken
    split
    · exact exists_rewritten_negated here kind _
    · exact ⟨_, .value (.inl kind) here⟩
  | group _ ih =>
    apply ih wf.2.1
    intro t inside
    exact spelled t (by simp [Phrase.tokens, inside])
  | operation _ _ _ _ ihLeft ihRight =>
    obtain ⟨beforeWf, isOperator, afterWf, _⟩ := Phrase.wellFormed_join.1 wf
    simp only [Phrase.tokens_join, List.forall_mem_append, List.forall_mem_cons] at spelled
    obtain ⟨inBefore, operatorSpelled, inAfter⟩ := spelled
    obtain ⟨first, left⟩ := ihLeft beforeWf inBefore
    obtain ⟨second, right⟩ := ihRight afterWf inAfter
    exact ⟨_, .operation isOperator operatorSpelled left right⟩

theorem Rewritten.exists_of_parse (h : parse tokens = .ok tree)
    (spelled : ∀ t ∈ tokens, t.IsSpelled) : ∃ rewritten : List Token, tree.Rewritten rewritten := by
  obtain ⟨p, wf, rfl⟩ := Phrase.exists_of_parse h
  exact exists_of_reads ((parse_tokens_eq_ok_iff wf).1 h) wf spelled

end Expr

end Reckoner
