import Reckoner.Proofs.Grammar.Nesting

/-!
# Where a phrase is cut

The search for a cut does not tell signs from binary operators: a sign inside of a list is a
candidate of the level of addition. `Cut.onSign` is the cut at the sign of a number in place of
the one at the operator before it, and settling a cut undoes just this. So a chain is cut at the
last of its loosest operators once each of them counts by its `Link.signedLevel`.
-/

set_option autoImplicit false

namespace Reckoner

namespace Token

def depthAfterAll (depth : Int) (tokens : List Token) : Int :=
  tokens.foldl (fun depth token => token.depthAfter depth) depth

theorem depthAfter_of_operator {token : Token} (h : token.operator?.isSome = true) (depth : Int) :
    token.depthAfter depth = depth := by
  cases kind : token.kind <;> simp [Token.operator?, kind] at h
  simp [depthAfter, kind]

theorem depthAfter_of_value {token : Token} (h : token.kind = .number ∨ token.kind = .identifier)
    (depth : Int) : token.depthAfter depth = depth := by
  rcases h with h | h <;> simp [depthAfter, h]

theorem isCuttable_of_pos {token : Token} {depth : Int} (h : 0 < depth) :
    token.isCuttable depth = false := by
  have : depth ≠ 0 := by omega
  simp [isCuttable, this]

theorem isCuttable_of_operator {token : Token} (h : token.operator?.isSome = true) :
    token.isCuttable 0 = true := by
  simp [isCuttable, h]

theorem isCuttable_of_value {token : Token} (h : token.kind = .number ∨ token.kind = .identifier)
    (depth : Int) : token.isCuttable depth = false := by
  rcases h with h | h <;> simp [isCuttable, operator?, h]

theorem isSign_of_value {token : Token} (h : token.kind = .number ∨ token.kind = .identifier) :
    token.isSign = false := by
  rcases h with h | h <;> simp [isSign, operator?, h]

theorem isArithmetic_of_level_le {token : Token} (h : token.operator?.isSome = true)
    (low : token.level ≤ 1) (divides : token.kind ≠ .operator .percent) :
    token.isArithmetic = true := by
  cases kind : token.kind with
  | operator op => cases op <;> simp_all [isArithmetic, operator?, level, Operator.level,
      Operator.isArithmetic]
  | _ => simp [operator?, kind] at h

theorem operator_of_isArithmetic {token : Token} (h : token.isArithmetic = true) :
    token.operator?.isSome = true ∧ token.kind ≠ .operator .percent := by
  cases op : token.operator? with
  | none => simp [isArithmetic, op] at h
  | some operator =>
    refine ⟨rfl, ?_⟩
    intro percent
    simp [isArithmetic, operator?, percent, Operator.isArithmetic] at h

@[simp] theorem depthAfterAll_append (depth : Int) (a b : List Token) :
    depthAfterAll depth (a ++ b) = depthAfterAll (depthAfterAll depth a) b :=
  List.foldl_append

@[simp] theorem depthAfterAll_cons (depth : Int) (token : Token) (rest : List Token) :
    depthAfterAll depth (token :: rest) = depthAfterAll (token.depthAfter depth) rest := rfl

@[simp] theorem depthAfterAll_nil (depth : Int) : depthAfterAll depth [] = depth := rfl

theorem level_of_isSign {token : Token} (h : token.isSign = true) : token.level = 1 := by
  cases op : token.operator? with
  | none => simp [isSign, op] at h
  | some operator =>
    simp only [isSign, op, Option.any_some] at h
    cases operator <;> simp_all [Operator.isSign, level, Operator.level]

theorem isSummand_eq_isSign (token : Token) : token.isSummand = token.isSign := by
  rw [isSummand, isSign, operator?]
  cases kind : token.kind with
  | operator op => cases op <;> rfl
  | number | identifier | opening | closing => rfl

end Token

namespace Link

/-- The search for a cut has the levels of the grammar. -/
theorem standardLevel_eq (link : Link) : link.standardLevel = link.operator.level := by
  rw [standardLevel, Token.level, Token.operator?]
  cases kind : link.operator.kind with
  | operator op => cases op <;> rfl
  | number | identifier | opening | closing => rfl

theorem isPromoted_eq (link : Link) :
    link.isPromoted = (link.operator.level == 0 && link.next.any Token.isSign) := by
  rw [isPromoted, standardLevel_eq, funext Token.isSummand_eq_isSign]

end Link

namespace Cut

def within (before after : List Token) (cut : Cut) : Cut :=
  ⟨before ++ cut.before, cut.operator, cut.after ++ after⟩

theorem map_within_within (before after before' after' : List Token) (cut : Option Cut) :
    (cut.map (within before after)).map (within before' after') =
      cut.map (within (before' ++ before) (after ++ after')) := by
  cases cut <;> simp [within]

theorem cons_eq_within (token : Token) : cons token = within [token] [] := by
  funext cut
  simp [within, cons]

/-- Of the best cut in an earlier part of a list and the best in a later part, the better one. -/
def better : Option Cut → Option Cut → Option Cut
  | earlier, none => earlier
  | none, some later => some later
  | some earlier, some later =>
    if later.operator.level < earlier.operator.level then some earlier else some later

@[simp] theorem better_none (earlier : Option Cut) : better earlier none = earlier := by
  cases earlier <;> rfl

@[simp] theorem none_better (later : Option Cut) : better none later = later := by
  cases later <;> rfl

theorem better_assoc (a b c : Option Cut) : better (better a b) c = better a (better b c) := by
  cases a with
  | none => simp
  | some a =>
    cases c with
    | none => simp
    | some c =>
      cases b with
      | none => simp
      | some b =>
        by_cases ab : b.operator.level < a.operator.level <;>
          by_cases bc : c.operator.level < b.operator.level <;>
            simp only [better, ab, bc, if_true, if_false]
        · rw [if_pos (Nat.lt_trans bc ab)]
        · rw [if_neg (by omega)]

theorem map_within_better (before after : List Token) (a b : Option Cut) :
    (better a b).map (within before after) =
      better (a.map (within before after)) (b.map (within before after)) := by
  cases a with
  | none => simp
  | some a =>
    cases b with
    | none => simp
    | some b =>
      simp only [better, Option.map_some, within]
      split <;> simp [within]

theorem loosest_cons (depth : Int) (token : Token) (rest : List Token) :
    loosest depth (token :: rest) =
      better (if token.isCuttable depth then some ⟨[], token, rest⟩ else none)
        ((loosest (token.depthAfter depth) rest).map (cons token)) := by
  rw [loosest]
  cases loosest (token.depthAfter depth) rest with
  | none => simp
  | some cut =>
    cases cuttable : token.isCuttable depth <;> simp [better]
    rfl

theorem loosest_append (depth : Int) (a b : List Token) :
    loosest depth (a ++ b) =
      better ((loosest depth a).map (within [] b))
        ((loosest (Token.depthAfterAll depth a) b).map (within a [])) := by
  induction a generalizing depth with
  | nil =>
    have same : within [] [] = id := by
      funext cut
      simp [within]
    simp [loosest, Token.depthAfterAll, same]
  | cons token rest ih =>
    have here : (if token.isCuttable depth then some (⟨[], token, rest⟩ : Cut) else none).map
        (within [] b) = if token.isCuttable depth then some ⟨[], token, rest ++ b⟩ else none := by
      cases token.isCuttable depth <;> simp [within]
    rw [List.cons_append, loosest_cons, loosest_cons, ih, cons_eq_within, map_within_better,
      map_within_better, map_within_within, map_within_within, map_within_within, better_assoc,
      here]
    simp [Token.depthAfterAll]

theorem candidate?_append {a : List Token} (nonempty : a ≠ []) (b : List Token) :
    candidate? (a ++ b) =
      better ((candidate? a).map (within [] b))
        ((loosest (Token.depthAfterAll 0 a) b).map (within a [])) := by
  obtain ⟨first, rest, rfl⟩ := List.exists_cons_of_ne_nil nonempty
  rw [List.cons_append, candidate?, candidate?, cons_eq_within, loosest_append,
    map_within_better, map_within_within, map_within_within, map_within_within]
  simp [Token.depthAfterAll]

/-- The same cut one token later, if a sign follows the operator and is not tighter than it. -/
def onSign (cut : Cut) : Cut :=
  match cut.after with
  | [] => cut
  | sign :: rest =>
    if sign.isSign = true ∧ cut.operator.level ≤ 1 then
      ⟨cut.before ++ [cut.operator], sign, rest⟩
    else cut

theorem within_onSign {between : List Token} (nonempty : between ≠ [])
    (before after outer : List Token) (operator : Token) :
    (onSign ⟨before, operator, between⟩).within outer after =
      onSign ⟨outer ++ before, operator, between ++ after⟩ := by
  obtain ⟨first, rest, rfl⟩ := List.exists_cons_of_ne_nil nonempty
  simp only [onSign, List.cons_append]
  split <;> simp [within]

theorem level_onSign {operator : Token} (before after : List Token) :
    (onSign ⟨before, operator, after⟩).operator.level =
      Link.signedLevel ⟨operator, after.head?⟩ := by
  cases after with
  | nil => simp [onSign, Link.signedLevel, Link.isPromoted_eq, Link.standardLevel_eq]
  | cons first rest =>
    cases sign : first.isSign with
    | false => simp [onSign, sign, Link.signedLevel, Link.isPromoted_eq, Link.standardLevel_eq]
    | true =>
      simp only [onSign, sign, true_and, Link.signedLevel, Link.isPromoted_eq,
        Link.standardLevel_eq, List.head?_cons, Option.any_some, Bool.and_true, beq_iff_eq]
      split
      · rw [Token.level_of_isSign sign]
        split <;> omega
      · rw [if_neg (by omega)]

/-- Settling moves the cut back from the sign to the operator before it. -/
theorem settled_onSign {before after : List Token} {operator : Token}
    (isOperator : operator.operator?.isSome = true)
    (complete : ∀ last ∈ before.getLast?, last.operator? = none)
    (unsigned : operator.kind = .operator .percent → after.head?.any Token.isSign = false) :
    (onSign ⟨before, operator, after⟩).settled = .ok ⟨before, operator, after⟩ := by
  have stays : settled ⟨before, operator, after⟩ = .ok ⟨before, operator, after⟩ := by
    cases last : before.getLast? with
    | none => simp [settled, last]
    | some token =>
      have : token.isArithmetic = false := by simp [Token.isArithmetic, complete token last]
      simp [settled, last, this]
  cases after with
  | nil => exact stays
  | cons first rest =>
    simp only [onSign]
    split
    · rename_i moved
      have divides : operator.kind ≠ .operator .percent := by
        intro percent
        simp [moved.1] at unsigned
        exact unsigned percent
      have arithmetic := Token.isArithmetic_of_level_le isOperator moved.2 divides
      simp [settled, arithmetic, moved.1]
    · exact stays

theorem loosest_operator {operator : Token} (h : operator.operator?.isSome = true)
    (rest : List Token) :
    ∃ cut : Cut, loosest 0 (operator :: rest) = some cut ∧
      operator.level ≤ cut.operator.level := by
  rw [loosest_cons, Token.isCuttable_of_operator h, if_pos rfl]
  cases (loosest (operator.depthAfter 0) rest).map (cons operator) with
  | none => exact ⟨_, rfl, Nat.le_refl _⟩
  | some later =>
    by_cases looser : later.operator.level < operator.level
    · exact ⟨_, if_pos looser, Nat.le_refl _⟩
    · exact ⟨_, if_neg looser, Nat.not_lt.1 looser⟩

/-- A list is cut at an operator, and an operator directly after it is tighter. -/
theorem operator_of_loosest {depth : Int} {tokens : List Token} {cut : Cut}
    (h : loosest depth tokens = some cut) :
    cut.operator.operator?.isSome = true ∧
      ∀ next ∈ cut.after.head?, next.operator?.isSome = true →
        next.level < cut.operator.level := by
  induction tokens generalizing depth cut with
  | nil => cases h
  | cons token rest ih =>
    have atToken (cuttable : token.isCuttable depth = true)
        (none_later : ∀ later, loosest 0 rest = some later →
          later.operator.level < token.level) :
        token.operator?.isSome = true ∧
          ∀ next ∈ rest.head?, next.operator?.isSome = true → next.level < token.level := by
      simp only [Token.isCuttable, Bool.and_eq_true] at cuttable
      refine ⟨cuttable.2, ?_⟩
      intro next found isOperator
      obtain ⟨others, rfl⟩ := List.head?_eq_some_iff.1 found
      obtain ⟨later, atNext, low⟩ := loosest_operator isOperator others
      exact Nat.lt_of_le_of_lt low (none_later later atNext)
    have flat (cuttable : token.isCuttable depth = true) : token.depthAfter depth = 0 := by
      simp only [Token.isCuttable, Bool.and_eq_true, beq_iff_eq] at cuttable
      rw [Token.depthAfter_of_operator cuttable.2, cuttable.1]
    rw [loosest] at h
    cases found : loosest (token.depthAfter depth) rest with
    | none =>
      simp only [found] at h
      split at h
      · rename_i cuttable
        cases h
        apply atToken cuttable
        intro later atLater
        rw [flat cuttable, atLater] at found
        cases found
      · cases h
    | some later =>
      simp only [found] at h
      split at h
      · rename_i better
        cases h
        apply atToken better.1
        intro other atOther
        rw [flat better.1, atOther] at found
        cases found
        exact better.2
      · cases h
        have inside := ih found
        exact inside

theorem operator_of_candidate? {tokens : List Token} {cut : Cut}
    (h : candidate? tokens = some cut) :
    cut.operator.operator?.isSome = true ∧
      (cut.operator.kind = .operator .percent → cut.after.head?.any Token.isSign = false) := by
  cases tokens with
  | nil => cases h
  | cons first rest =>
    obtain ⟨candidate, found, rfl⟩ := Option.map_eq_some_iff.1 h
    obtain ⟨isOperator, tighter⟩ := operator_of_loosest found
    refine ⟨isOperator, ?_⟩
    intro percent
    have level : candidate.operator.level = 1 := by
      have percent : candidate.operator.kind = .operator .percent := percent
      simp [Token.level, Token.operator?, percent, Operator.level]
    cases next : candidate.after.head? with
    | none => simp [cons, next]
    | some token =>
      cases sign : token.isSign with
      | false => simp [cons, next, sign]
      | true =>
        have low := tighter token next (Token.isSome_operator?_of_isSign sign)
        rw [Token.level_of_isSign sign, level] at low
        exact absurd low (Nat.lt_irrefl 1)

/-- The remainder operator is not selected before a sign: the sign would be. -/
theorem operator_of_select {tokens : List Token} {cut : Cut} (h : select tokens = .ok cut) :
    cut.operator.operator?.isSome = true ∧
      (cut.operator.kind = .operator .percent → cut.after.head?.any Token.isSign = false) := by
  unfold select at h
  split at h
  · cases h
  · rename_i candidate found
    unfold settled at h
    split at h
    · cases h
      exact operator_of_candidate? found
    · split at h
      · rename_i previous _ arithmetic
        split at h
        · cases h
          obtain ⟨isOperator, divides⟩ := Token.operator_of_isArithmetic arithmetic
          exact ⟨isOperator, fun percent => absurd percent divides⟩
        · cases h
      · cases h
        exact operator_of_candidate? found

end Cut

namespace Phrase

theorem depthAfterAll_tokens {p : Phrase} (h : p.WellFormed) (depth : Int) :
    Token.depthAfterAll depth p.tokens = depth := by
  induction p generalizing depth with
  | value token => exact Token.depthAfter_of_value h depth
  | signed sign number =>
    simp [tokens, Token.depthAfter_of_operator (Token.isSome_operator?_of_isSign h.1),
      Token.depthAfter_of_value (.inl h.2.1)]
  | group opening inner closing ih =>
    obtain ⟨opens, wf, closes⟩ := h
    simp [tokens, ih wf, Token.depthAfter, opens, closes]
  | chain before operator operand ihBefore ihOperand =>
    obtain ⟨wfBefore, isOperator, wfOperand, _⟩ := h
    simp [tokens, ihBefore wfBefore, ihOperand wfOperand,
      Token.depthAfter_of_operator isOperator]

theorem loosest_tokens_of_pos {p : Phrase} (h : p.WellFormed) {depth : Int} (inside : 0 < depth) :
    Cut.loosest depth p.tokens = none := by
  induction p generalizing depth with
  | value token => simp [tokens, Cut.loosest, Token.isCuttable_of_pos inside]
  | signed sign number =>
    simp [tokens, Cut.loosest, Token.isCuttable_of_pos inside,
      Token.isCuttable_of_value (.inl h.2.1)]
  | group opening inner closing ih =>
    obtain ⟨opens, wf, closes⟩ := h
    have deeper : 0 < opening.depthAfter depth := by
      simp only [Token.depthAfter, opens]
      omega
    rw [tokens, Cut.loosest_cons, Cut.loosest_append, ih wf deeper, depthAfterAll_tokens wf]
    simp [Cut.loosest, Token.isCuttable_of_pos inside, Token.isCuttable_of_pos deeper]
  | chain before operator operand ihBefore ihOperand =>
    obtain ⟨wfBefore, isOperator, wfOperand, _⟩ := h
    rw [tokens, Cut.loosest_append, Cut.loosest_cons, ihBefore wfBefore inside,
      depthAfterAll_tokens wfBefore, Token.depthAfter_of_operator isOperator,
      ihOperand wfOperand inside]
    simp [Token.isCuttable_of_pos inside]

theorem candidate?_of_isOperand {p : Phrase} (h : p.WellFormed) (single : p.isOperand = true) :
    Cut.candidate? p.tokens = none := by
  cases p with
  | chain => cases single
  | value token => rfl
  | signed sign number =>
    simp [tokens, Cut.candidate?, Cut.loosest, Token.isCuttable_of_value (.inl h.2.1)]
  | group opening inner closing =>
    obtain ⟨opens, wf, closes⟩ := h
    have deeper : 0 < opening.depthAfter 0 := by simp [Token.depthAfter, opens]
    rw [tokens, Cut.candidate?, Cut.loosest_append, loosest_tokens_of_pos wf deeper,
      depthAfterAll_tokens wf]
    simp [Cut.loosest, Token.isCuttable_of_pos deeper]

theorem loosest_operator_operand {operator : Token} {operand : Phrase}
    (isOperator : operator.operator?.isSome = true) (h : operand.WellFormed)
    (single : operand.isOperand = true) :
    Cut.loosest 0 (operator :: operand.tokens) =
      some (Cut.onSign ⟨[], operator, operand.tokens⟩) := by
  rw [Cut.loosest_cons, Token.isCuttable_of_operator isOperator,
    Token.depthAfter_of_operator isOperator]
  cases operand with
  | chain => cases single
  | value token =>
    simp [tokens, Cut.loosest, Token.isCuttable_of_value h, Cut.onSign, Token.isSign_of_value h]
  | signed sign number =>
    have isSign := Token.isSome_operator?_of_isSign h.1
    have atSign : Cut.loosest 0 [sign, number] = some ⟨[], sign, [number]⟩ := by
      simp [Cut.loosest, Token.isCuttable_of_operator isSign,
        Token.isCuttable_of_value (.inl h.2.1)]
    rw [tokens, atSign]
    by_cases loose : operator.level ≤ 1
    · simp [Cut.better, Cut.onSign, Cut.cons, h.1, Token.level_of_isSign h.1, loose,
        Nat.not_lt.2 loose]
    · simp [Cut.better, Cut.onSign, Cut.cons, Token.level_of_isSign h.1, loose,
        Nat.lt_of_not_le loose]
  | group opening inner closing =>
    obtain ⟨opens, wf, closes⟩ := h
    have deeper : 0 < opening.depthAfter 0 := by simp [Token.depthAfter, opens]
    have unsigned : opening.isSign = false := by simp [Token.isSign, Token.operator?, opens]
    have bracket : opening.isCuttable 0 = false := by
      simp [Token.isCuttable, Token.operator?, opens]
    rw [tokens, Cut.loosest_cons, Cut.loosest_append, loosest_tokens_of_pos wf deeper,
      depthAfterAll_tokens wf]
    simp [Cut.loosest, Token.isCuttable_of_pos deeper, Cut.onSign, unsigned, bracket]

theorem getLast?_tokens {p : Phrase} (h : p.WellFormed) :
    ∀ last ∈ p.tokens.getLast?, last.operator? = none := by
  induction p with
  | value token => rcases h with h | h <;> simp [tokens, Token.operator?, h]
  | signed sign number => simp [tokens, Token.operator?, h.2.1]
  | group opening inner closing =>
    rw [tokens, ← List.cons_append, List.getLast?_concat]
    simp [Token.operator?, h.2.2]
  | chain before operator operand _ ih =>
    have nonempty := List.getLast?_isSome.2 operand.tokens_ne_nil
    obtain ⟨last, found⟩ := Option.isSome_iff_exists.1 nonempty
    have atEnd := ih h.2.2.1 last found
    simpa [tokens, List.getLast?_append, List.getLast?_cons, found] using atEnd

theorem head?_isSign {p : Phrase} (h : p.WellFormed) :
    p.tokens.head?.any Token.isSign = p.startsSigned := by
  induction p with
  | value token => simpa [tokens, startsSigned] using Token.isSign_of_value h
  | signed sign number => simpa [tokens, startsSigned] using h.1
  | group opening inner closing =>
    simp [tokens, startsSigned, Token.isSign, Token.operator?, h.1]
  | chain before operator operand ih _ =>
    rw [tokens, head?_tokens_append, startsSigned]
    exact ih h.1

/-- The search finds the last of the loosest operators of a chain. -/
theorem candidate?_tokens {p : Phrase} (h : p.WellFormed) :
    Cut.candidate? p.tokens =
      (p.split? Link.signedLevel).map fun parts =>
        Cut.onSign ⟨parts.1.tokens, parts.2.1, parts.2.2.tokens⟩ := by
  induction p with
  | value | signed | group =>
    rw [candidate?_of_isOperand h rfl]
    rfl
  | chain earlier last operand ih _ =>
    obtain ⟨wf, isOperator, operandWf, single, _⟩ := h
    rw [tokens, Cut.candidate?_append earlier.tokens_ne_nil, depthAfterAll_tokens wf,
      loosest_operator_operand isOperator operandWf single, Option.map_some,
      Cut.within_onSign operand.tokens_ne_nil, List.append_nil, List.append_nil, ih wf, split?]
    cases earlier.split? Link.signedLevel with
    | none => rfl
    | some parts =>
      obtain ⟨first, loosest, between⟩ := parts
      simp only [Option.map_some, Cut.within_onSign between.tokens_ne_nil, List.nil_append,
        Cut.better, Cut.level_onSign, head?_tokens_append]
      split <;> rfl

theorem exists_select {p : Phrase} (h : p.WellFormed) (chained : p.isOperand = false) :
    ∃ (before : Phrase) (operator : Token) (after : Phrase),
      p.split? Link.signedLevel = some (before, operator, after) ∧
      Cut.select p.tokens = .ok ⟨before.tokens, operator, after.tokens⟩ := by
  obtain ⟨before, operator, after, found⟩ := exists_split? Link.signedLevel chained
  obtain ⟨rfl, _⟩ := split?_spec h found
  obtain ⟨beforeWf, isOperator, afterWf, unsigned⟩ := wellFormed_join.1 h
  refine ⟨before, operator, after, found, ?_⟩
  rw [Cut.select, candidate?_tokens h, found]
  apply Cut.settled_onSign isOperator (getLast?_tokens beforeWf)
  intro percent
  rw [head?_isSign afterWf]
  exact unsigned percent

end Phrase

end Reckoner
