import Reckoner.Proofs.Grammar.Selection

/-!
# Which token lists are formulas

`Expr.parse_eq` takes parsing apart: brackets off, then a value, a signed number or a cut. From it
every well-formed phrase is parsed, to the expression that it reads as by signed levels, and every
list that is parsed is a well-formed phrase, of which there is only one.
-/

set_option autoImplicit false

namespace Reckoner

namespace Expr

def ofCut (cut : Cut) : Except ParseError Expr :=
  if cut.before.isEmpty then .error ⟨.leftOperandExpected, cut.operator.span⟩
  else if cut.after.isEmpty then .error ⟨.rightOperandExpected, cut.operator.span⟩
  else do
    let left ← parse cut.before
    let right ← parse cut.after
    return .node cut.operator left right

/-- The expression of a token list without enclosing brackets. -/
def ofSlice : List Token → Except ParseError Expr
  | [] => .error ⟨.noTokens, .empty⟩
  | [token] => ofValue token
  | [sign, operand] => ofSigned sign operand
  | first :: second :: third :: rest =>
    (Cut.select (first :: second :: third :: rest)).bind ofCut

theorem parse_eq (tokens : List Token) : parse tokens = (stripped tokens).bind ofSlice := by
  rw [parse, ofTokens]
  split
  · rename_i found
    rw [found]
    rfl
  · rename_i found
    rw [found]
    rfl
  · rename_i found
    rw [found]
    rfl
  · rename_i found
    rw [found]
    rfl
  · rename_i found
    rw [found]
    simp only [Except.bind, ofSlice]
    split
    · rename_i selected
      rw [selected]
      rfl
    · rename_i cut selected
      rw [selected]
      simp only [Traced.result_bind, Traced.result_note, Except.bind, ofCut]
      split
      · rfl
      · split
        · rfl
        · simp only [Traced.result_bind, Traced.result_pure, parse]
          rfl

theorem parse_of_select {tokens : List Token} (bare : stripped tokens = .ok tokens)
    (long : 2 < tokens.length) : parse tokens = (Cut.select tokens).bind ofCut := by
  rw [parse_eq, bare]
  match tokens, long with
  | _ :: _ :: _ :: _, _ => rfl

theorem ofCut_eq_ok_iff {cut : Cut} {tree : Expr} :
    ofCut cut = .ok tree ↔
      cut.before ≠ [] ∧ cut.after ≠ [] ∧ ∃ left right : Expr,
        parse cut.before = .ok left ∧ parse cut.after = .ok right ∧
          .node cut.operator left right = tree := by
  unfold ofCut
  cases before : cut.before with
  | nil => simp
  | cons first others =>
    cases after : cut.after with
    | nil => simp
    | cons second rest =>
      simp only [List.isEmpty_cons, Bool.false_eq_true, if_false, ne_eq, reduceCtorEq,
        not_false_eq_true, true_and]
      cases parse (first :: others) with
      | error e => simp [bind, Except.bind]
      | ok left =>
        cases parse (second :: rest) with
        | error e => simp [bind, Except.bind]
        | ok right => simp [bind, Except.bind, pure, Except.pure]

theorem wellFormed_of_ofValue {token : Token} {tree : Expr} (h : ofValue token = .ok tree) :
    (Phrase.value token).WellFormed := by
  unfold ofValue at h
  split at h
  · exact .inl ‹_›
  · exact .inr ‹_›
  · cases h

theorem ofSigned_eq_ok {sign number : Token} (h : (Phrase.signed sign number).WellFormed) :
    ofSigned sign number = .ok (.leaf (Phrase.signedToken sign number)) := by
  obtain ⟨isSign, isNumber, hasValue⟩ := h
  obtain ⟨value, hasValue⟩ := Option.isSome_iff_exists.1 hasValue
  have magnitude : ofSigned.magnitude number = .ok value := by
    simp [ofSigned.magnitude, isNumber, hasValue]
  cases kind : sign.kind with
  | operator op =>
    cases op <;> simp [Token.isSign, Token.operator?, kind, Operator.isSign] at isSign
    · simp [ofSigned, kind, magnitude, Phrase.signedToken, Except.map]
    · simp [ofSigned, kind, magnitude, Phrase.signedToken, Except.map, hasValue]
  | _ => simp [Token.isSign, Token.operator?, kind] at isSign

theorem wellFormed_of_ofSigned {sign number : Token} {tree : Expr}
    (h : ofSigned sign number = .ok tree) : (Phrase.signed sign number).WellFormed := by
  have valued {value : Float} (found : ofSigned.magnitude number = .ok value) :
      number.kind = .number ∧ number.number.isSome = true := by
    unfold ofSigned.magnitude at found
    split at found
    · rename_i isNumber hasValue
      exact ⟨isNumber, by rw [hasValue]; rfl⟩
    · cases found
  unfold ofSigned at h
  split at h
  · rename_i plus
    cases found : ofSigned.magnitude number with
    | error e => simp [found, Except.map] at h
    | ok value =>
      exact ⟨by simp [Token.isSign, Token.operator?, plus, Operator.isSign], valued found⟩
  · rename_i minus
    cases found : ofSigned.magnitude number with
    | error e => simp [found, Except.map] at h
    | ok value =>
      exact ⟨by simp [Token.isSign, Token.operator?, minus, Operator.isSign], valued found⟩
  · cases h

end Expr

namespace Phrase

open Reckoner.Expr

theorem parse_group {opening closing : Token} {inner : Phrase}
    (h : (group opening inner closing).WellFormed) :
    parse (group opening inner closing).tokens = parse inner.tokens := by
  rw [parse_eq, parse_eq, stripped_group h]

theorem two_lt_length_of_chain {p : Phrase} (chained : p.isOperand = false) :
    2 < p.tokens.length := by
  cases p with
  | value | signed | group => cases chained
  | chain before operator operand =>
    have left := before.length_tokens_pos
    have right := operand.length_tokens_pos
    simp only [tokens, List.length_append, List.length_cons]
    omega

/-- Every phrase of the grammar is parsed, and reads as its expression by signed levels. -/
theorem exists_parse {p : Phrase} (h : p.WellFormed) :
    ∃ tree : Expr, parse p.tokens = .ok tree ∧ p.Reads Link.signedLevel tree := by
  apply division_induction Link.signedLevel _ _ _ _ h
  · intro token wf
    refine ⟨.leaf token, ?_, .value⟩
    rw [tokens, parse_eq, stripped_value wf]
    rcases wf with kind | kind <;> simp [Except.bind, ofSlice, ofValue, kind]
  · intro sign number wf
    refine ⟨.leaf (signedToken sign number), ?_, .signed⟩
    rw [tokens, parse_eq, stripped_signed wf]
    exact ofSigned_eq_ok wf
  · intro opening inner closing wf ih
    obtain ⟨tree, parsed, reads⟩ := ih
    exact ⟨tree, (parse_group wf).trans parsed, .group reads⟩
  · intro before operator after wf found ihBefore ihAfter
    have chained := isOperand_join before operator after
    obtain ⟨_, _, _, found', selected⟩ := exists_select wf chained
    rw [found, Option.some.injEq, Prod.mk.injEq, Prod.mk.injEq] at found'
    obtain ⟨rfl, rfl, rfl⟩ := found'
    obtain ⟨_, loosest, tighter⟩ := split?_spec wf found
    obtain ⟨first, parsedFirst, readsFirst⟩ := ihBefore
    obtain ⟨second, parsedSecond, readsSecond⟩ := ihAfter
    refine ⟨.node operator first second, ?_, .operation readsFirst readsSecond loosest tighter⟩
    rw [parse_of_select (stripped_chain wf chained) (two_lt_length_of_chain chained), selected]
    exact ofCut_eq_ok_iff.2
      ⟨before.tokens_ne_nil, after.tokens_ne_nil, first, second, parsedFirst, parsedSecond, rfl⟩

/-- Every list that is parsed is a phrase of the grammar. -/
theorem exists_of_parse {list : List Token} {tree : Expr} (h : parse list = .ok tree) :
    ∃ p : Phrase, p.WellFormed ∧ p.tokens = list := by
  induction size : list.length using Nat.strongRecOn generalizing list tree with
  | ind length ih =>
    subst size
    rw [parse_eq] at h
    cases bare : stripped list with
    | error e => simp [bare, Except.bind] at h
    | ok slice =>
      have short := length_stripped bare
      simp only [bare, Except.bind] at h
      match slice, h with
      | [token], h =>
        exact exists_of_stripped bare (wellFormed_of_ofValue h) rfl
      | [sign, number], h =>
        exact exists_of_stripped bare (wellFormed_of_ofSigned h) rfl
      | first :: second :: third :: rest, h =>
        rw [ofSlice] at h
        cases selected : Cut.select (first :: second :: third :: rest) with
        | error e => simp [selected, Except.bind] at h
        | ok cut =>
          simp only [selected, Except.bind] at h
          obtain ⟨_, _, left, right, parsedLeft, parsedRight, _⟩ := ofCut_eq_ok_iff.1 h
          obtain ⟨isOperator, unsigned⟩ := Cut.operator_of_select selected
          have total := Cut.length_of_select selected
          obtain ⟨before, beforeWf, writtenBefore⟩ := ih _ (by omega) parsedLeft rfl
          obtain ⟨after, afterWf, writtenAfter⟩ := ih _ (by omega) parsedRight rfl
          refine exists_of_stripped bare (p := before.join cut.operator after) ?_ ?_
          · rw [wellFormed_join, ← head?_isSign afterWf, writtenAfter]
            exact ⟨beforeWf, isOperator, afterWf, unsigned⟩
          · rw [tokens_join, writtenBefore, writtenAfter]
            exact Cut.slice_of_select selected

theorem eq_of_tokens_eq_of_isOperand {p q : Phrase} (hp : p.WellFormed) (hq : q.WellFormed)
    (single : p.isOperand = true) (other : q.isOperand = true)
    (inner : ∀ a b : Phrase, a.tokens.length < p.tokens.length → a.WellFormed → b.WellFormed →
      a.tokens = b.tokens → a = b)
    (h : p.tokens = q.tokens) : p = q := by
  have unopened (sign number opening closing : Token) (body : Phrase)
      (signed : (signed sign number).WellFormed)
      (grouped : (group opening body closing).WellFormed) : sign ≠ opening := by
    rintro rfl
    have isOperator := Token.isSome_operator?_of_isSign signed.1
    simp [Token.operator?, grouped.1] at isOperator
  cases p with
  | chain => cases single
  | value token =>
    cases q with
    | chain => cases other
    | value token' => simpa [tokens] using h
    | signed sign number => simp [tokens] at h
    | group opening body closing => simp [tokens] at h
  | signed sign number =>
    cases q with
    | chain => cases other
    | value token => simp [tokens] at h
    | signed sign' number' => simpa [tokens] using h
    | group opening body closing =>
      simp only [tokens, List.cons.injEq] at h
      exact absurd h.1 (unopened _ _ _ _ _ hp hq)
  | group opening body closing =>
    cases q with
    | chain => cases other
    | value token => simp [tokens] at h
    | signed sign number =>
      simp only [tokens, List.cons.injEq] at h
      exact absurd h.1.symm (unopened _ _ _ _ _ hq hp)
    | group opening' body' closing' =>
      simp only [tokens, List.cons.injEq, List.append_singleton_inj] at h
      obtain ⟨rfl, written, rfl⟩ := h
      have total := length_tokens_group opening body closing
      rw [inner body body' (by omega) hp.2.1 hq.2.1 written]

/-- The grammar is unambiguous: a token list is written by one phrase at most. -/
theorem eq_of_tokens_eq {p q : Phrase} (hp : p.WellFormed) (hq : q.WellFormed)
    (h : p.tokens = q.tokens) : p = q := by
  induction size : p.tokens.length using Nat.strongRecOn generalizing p q with
  | ind length ih =>
    subst size
    have inner (a b : Phrase) (shorter : a.tokens.length < p.tokens.length) (ha : a.WellFormed)
        (hb : b.WellFormed) (same : a.tokens = b.tokens) : a = b := ih _ shorter ha hb same rfl
    have enclosed (a b : Phrase) (ha : a.WellFormed) (hb : b.WellFormed)
        (single : a.isOperand = true) (chained : b.isOperand = false) : a.tokens ≠ b.tokens := by
      intro same
      have long := two_lt_length_of_chain chained
      have bare := enclosed?_chain hb chained
      rw [← same] at long bare
      cases a with
      | chain => cases single
      | value => simp [tokens] at long
      | signed => simp [tokens] at long
      | group => simp [enclosed?_group ha] at bare
    cases pOperand : p.isOperand <;> cases qOperand : q.isOperand
    · obtain ⟨before, operator, after, found, selected⟩ := exists_select hp pOperand
      obtain ⟨before', operator', after', found', selected'⟩ := exists_select hq qOperand
      obtain ⟨rfl, _⟩ := split?_spec hp found
      obtain ⟨rfl, _⟩ := split?_spec hq found'
      have total := length_tokens_join before operator after
      rw [h, selected'] at selected
      simp only [Except.ok.injEq, Cut.mk.injEq] at selected
      obtain ⟨sameBefore, rfl, sameAfter⟩ := selected
      obtain ⟨beforeWf, _, afterWf, _⟩ := wellFormed_join.1 hp
      obtain ⟨beforeWf', _, afterWf', _⟩ := wellFormed_join.1 hq
      rw [inner before before' (by omega) beforeWf beforeWf' sameBefore.symm,
        inner after after' (by omega) afterWf afterWf' sameAfter.symm]
    · exact absurd h.symm (enclosed q p hq hp qOperand pOperand)
    · exact absurd h (enclosed p q hp hq pOperand qOperand)
    · exact eq_of_tokens_eq_of_isOperand hp hq pOperand qOperand inner h

end Phrase

/-- Parsing accepts exactly what the grammar derives, and rejects every other list. -/
theorem Expr.parse_accepts_iff_derivable (tokens : List Token) :
    ((∃ tree : Expr, Expr.parse tokens = .ok tree) ↔
        ∃ p : Phrase, p.WellFormed ∧ p.tokens = tokens) ∧
      ((∃ e : ParseError, Expr.parse tokens = .error e) ↔
        ¬ ∃ p : Phrase, p.WellFormed ∧ p.tokens = tokens) := by
  have accepts : (∃ tree : Expr, Expr.parse tokens = .ok tree) ↔
      ∃ p : Phrase, p.WellFormed ∧ p.tokens = tokens := by
    constructor
    · rintro ⟨tree, parsed⟩
      exact Phrase.exists_of_parse parsed
    · rintro ⟨p, wf, rfl⟩
      obtain ⟨tree, parsed, _⟩ := Phrase.exists_parse wf
      exact ⟨tree, parsed⟩
  refine ⟨accepts, ?_⟩
  rw [← accepts]
  cases parsed : Expr.parse tokens with
  | error e => simp
  | ok tree => simp

end Reckoner
