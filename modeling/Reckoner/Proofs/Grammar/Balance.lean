import Reckoner.Proofs.Evaluation.Operations
import Reckoner.Proofs.Grammar.Acceptance
import Reckoner.Proofs.Grammar.Matching

/-!
# Bracket errors come first

Parsing looks at the brackets of every part of a list again. Once those of the whole list are
properly nested this finds nothing: what a pair of brackets encloses is properly nested, and so are
both sides of a cut, because a list is cut where no bracket is open. So the brackets alone decide
whether and where parsing complains about them.
-/

set_option autoImplicit false

namespace Reckoner

/-- The grammar of brackets: each pair encloses a nested list, and other tokens do not count. -/
inductive Nested : List Token → Prop where
  | nil : Nested []
  | other {token : Token} {rest : List Token} :
    token.kind ≠ .opening → token.kind ≠ .closing → Nested rest → Nested (token :: rest)
  | group {opening closing : Token} {inner rest : List Token} :
    opening.kind = .opening → closing.kind = .closing → Nested inner → Nested rest →
    Nested (opening :: (inner ++ closing :: rest))

/-- A list that is nested but for the closing brackets of so many pairs opened before it. -/
def NestedUnder : (depth : Nat) → List Token → Prop
  | 0, tokens => Nested tokens
  | depth + 1, tokens => ∃ (inner rest : List Token) (closing : Token),
    tokens = inner ++ closing :: rest ∧ closing.kind = .closing ∧ Nested inner ∧
      NestedUnder depth rest

theorem Unmatched.next_of_other {token : Token} (u : Unmatched) (opens : token.kind ≠ .opening)
    (closes : token.kind ≠ .closing) : u.next token = u := by
  unfold next
  split
  · exact absurd ‹_› opens
  · exact absurd ‹_› closes
  · rfl

section Nested

variable {tokens rest : List Token} {token : Token} {depth : Nat}

theorem NestedUnder.other (opens : token.kind ≠ .opening) (closes : token.kind ≠ .closing)
    (h : NestedUnder depth rest) : NestedUnder depth (token :: rest) := by
  cases depth with
  | zero => exact .other opens closes h
  | succ depth =>
    obtain ⟨inner, later, closing, rfl, isClosing, nested, under⟩ := h
    exact ⟨token :: inner, later, closing, rfl, isClosing, .other opens closes nested, under⟩

theorem NestedUnder.group (opens : token.kind = .opening) (h : NestedUnder (depth + 1) rest) :
    NestedUnder depth (token :: rest) := by
  obtain ⟨inner, later, closing, rfl, isClosing, nested, under⟩ := h
  cases depth with
  | zero => exact .group opens isClosing nested under
  | succ depth =>
    obtain ⟨inner', later', closing', rfl, isClosing', nested', under'⟩ := under
    exact ⟨token :: (inner ++ closing :: inner'), later', closing', by simp, isClosing',
      .group opens isClosing nested nested', under'⟩

theorem Nested.foldl_next (h : Nested tokens) (u : Unmatched) :
    tokens.foldl Unmatched.next u = u := by
  induction h generalizing u with
  | nil => rfl
  | other opens closes _ ih => rw [List.foldl_cons, u.next_of_other opens closes, ih]
  | group opens closes _ _ ihInner ihRest =>
    rw [List.foldl_cons, List.foldl_append, ihInner, List.foldl_cons, ihRest]
    simp [Unmatched.next, opens, closes]

/-- If the brackets of a list close just the pairs opened before it, it is nested under them. -/
theorem nestedUnder_of_foldl_next {outer : List Token}
    (h : tokens.foldl Unmatched.next ⟨outer, []⟩ = .none) : NestedUnder outer.length tokens := by
  induction tokens generalizing outer with
  | nil =>
    obtain rfl : outer = [] := congrArg Unmatched.openings h
    exact .nil
  | cons token rest ih =>
    rw [List.foldl_cons] at h
    by_cases opens : token.kind = .opening
    · rw [Unmatched.next, opens] at h
      exact (ih h).group opens
    by_cases closes : token.kind = .closing
    · cases outer with
      | nil =>
        refine absurd h (Unmatched.foldl_next_ne_none ?_ rest)
        simp [Unmatched.next, closes]
      | cons first outer =>
        simp only [Unmatched.next, closes] at h
        exact ⟨[], rest, token, rfl, closes, .nil, ih h⟩
    · rw [Unmatched.next_of_other _ opens closes] at h
      exact (ih h).other opens closes

/-- The grammar of brackets describes the lists that leave none of them unmatched. -/
theorem properlyNested_iff : properlyNested tokens = true ↔ Nested tokens := by
  rw [properlyNested, beq_iff_eq, Unmatched.ofTokens]
  constructor
  · intro h
    exact nestedUnder_of_foldl_next h
  · intro h
    exact h.foldl_next .none

end Nested

namespace Unmatched

theorem error?_eq_none_iff {u : Unmatched} : u.error? = Option.none ↔ u = none := by
  obtain ⟨openings, closings⟩ := u
  constructor
  · intro h
    unfold error? at h
    split at h
    · rename_i more
      obtain rfl : openings = [] := by simpa using h
      exact absurd more (Nat.not_lt_zero _)
    · split at h
      · rename_i fewer
        obtain rfl : closings = [] := by simpa using h
        exact absurd fewer (Nat.not_lt_zero _)
      · rename_i notMore _
        obtain rfl : closings = [] := by simpa using h
        obtain rfl : openings = [] := by simpa using notMore
        rfl
  · rintro ⟨⟩
    rfl

theorem kind_of_error? {u : Unmatched} {e : ParseError} (h : u.error? = some e) :
    e.cause.kind = .invalidBracket := by
  unfold error? at h
  split at h
  · obtain ⟨token, _, rfl⟩ := Option.map_eq_some_iff.1 h
    rfl
  · split at h <;> obtain ⟨token, _, rfl⟩ := Option.map_eq_some_iff.1 h <;> rfl

theorem depthAfterAll_foldl (u : Unmatched) (tokens : List Token) :
    Token.depthAfterAll (u.openings.length - u.closings.length) tokens =
      (tokens.foldl next u).openings.length - (tokens.foldl next u).closings.length := by
  induction tokens generalizing u with
  | nil => rfl
  | cons token rest ih =>
    have step : token.depthAfter (u.openings.length - u.closings.length) =
        (u.next token).openings.length - (u.next token).closings.length := by
      cases kind : token.kind with
      | opening =>
        simp only [Token.depthAfter, next, kind, List.length_cons]
        omega
      | closing =>
        cases stack : u.openings with
        | nil =>
          simp only [Token.depthAfter, next, kind, stack, List.length_cons]
          omega
        | cons first outer =>
          simp only [Token.depthAfter, next, kind, stack, List.length_cons]
          omega
      | number | identifier | operator op => simp only [Token.depthAfter, next, kind]
    rw [Token.depthAfterAll_cons, step, ih, List.foldl_cons]

end Unmatched

theorem properlyNested_iff_error? {tokens : List Token} :
    properlyNested tokens = true ↔ (Unmatched.ofTokens tokens).error? = none := by
  rw [Unmatched.error?_eq_none_iff, properlyNested, beq_iff_eq]

section Parts

variable {tokens : List Token}

theorem properlyNested_of_enclosed? {inner : List Token} (h : enclosed? tokens = some inner) :
    properlyNested inner = true := by
  obtain ⟨_, _, _, _, nested, _⟩ := enclosed?_eq_some_iff.1 h
  exact nested

theorem properlyNested_of_stripped {slice : List Token} (h : stripped tokens = .ok slice) :
    properlyNested slice = true := by
  fun_induction stripped tokens with
  | case1 => cases h
  | case2 tokens fine =>
    cases h
    exact properlyNested_iff_error?.2 fine
  | case3 => cases h
  | case4 tokens _ first rest _ ih => exact ih h

theorem properlyNested_append {before after : List Token}
    (nested : properlyNested (before ++ after) = true)
    (closed : Token.depthAfterAll 0 before = 0) :
    properlyNested before = true ∧ properlyNested after = true := by
  have whole : after.foldl Unmatched.next (Unmatched.ofTokens before) = .none := by
    rw [Unmatched.ofTokens, ← List.foldl_append]
    exact eq_of_beq nested
  have closings : (Unmatched.ofTokens before).closings = [] := by
    by_contra some
    exact Unmatched.foldl_next_ne_none some after whole
  have openings : (Unmatched.ofTokens before).openings = [] := by
    have depth : (0 : Int) = (Unmatched.ofTokens before).openings.length -
        (Unmatched.ofTokens before).closings.length :=
      closed.symm.trans (Unmatched.depthAfterAll_foldl .none before)
    rw [closings] at depth
    simpa using depth.symm
  have nothing : Unmatched.ofTokens before = .none :=
    calc Unmatched.ofTokens before
      _ = ⟨(Unmatched.ofTokens before).openings, (Unmatched.ofTokens before).closings⟩ := rfl
      _ = .none := by rw [openings, closings, Unmatched.none]
  rw [nothing] at whole
  exact ⟨beq_iff_eq.2 nothing, beq_iff_eq.2 whole⟩

namespace Cut

theorem depthAfterAll_of_loosest {depth : Int} {cut : Cut}
    (h : loosest depth tokens = some cut) : Token.depthAfterAll depth cut.before = 0 := by
  induction tokens generalizing depth cut with
  | nil => cases h
  | cons token rest ih =>
    have here (cuttable : token.isCuttable depth = true) : depth = 0 := by
      simp only [Token.isCuttable, Bool.and_eq_true, beq_iff_eq] at cuttable
      exact cuttable.1
    rw [loosest] at h
    split at h
    · split at h
      · rename_i cuttable
        cases h
        exact here cuttable
      · cases h
    · rename_i later found
      split at h
      · rename_i looser
        cases h
        exact here looser.1
      · cases h
        have closed : Token.depthAfterAll (token.depthAfter depth) later.before = 0 := ih found
        exact closed

theorem depthAfterAll_of_candidate? {cut : Cut} (h : candidate? tokens = some cut) :
    Token.depthAfterAll 0 cut.before = 0 := by
  cases tokens with
  | nil => cases h
  | cons first rest =>
    obtain ⟨later, found, rfl⟩ := Option.map_eq_some_iff.1 h
    have closed : Token.depthAfterAll (first.depthAfter 0) later.before = 0 :=
      depthAfterAll_of_loosest found
    exact closed

theorem depthAfterAll_of_select {cut : Cut} (h : select tokens = .ok cut) :
    Token.depthAfterAll 0 cut.before = 0 := by
  unfold select at h
  split at h
  · cases h
  · rename_i candidate found
    have closed := depthAfterAll_of_candidate? found
    unfold settled at h
    split at h
    · cases h
      exact closed
    · rename_i previous last
      split at h
      · rename_i arithmetic
        split at h
        · cases h
          -- The operator before the sign opens and closes nothing.
          obtain ⟨earlier, split⟩ := List.getLast?_eq_some_iff.1 last
          have isOperator := (Token.operator_of_isArithmetic arithmetic).1
          simpa [split, Token.depthAfter_of_operator isOperator] using closed
        · cases h
      · cases h
        exact closed

theorem properlyNested_of_select {cut : Cut} (h : select tokens = .ok cut)
    (nested : properlyNested tokens = true) :
    properlyNested cut.before = true ∧ properlyNested cut.after = true := by
  rw [← slice_of_select h, slice] at nested
  obtain ⟨before, rest⟩ := properlyNested_append nested (depthAfterAll_of_select h)
  refine ⟨before, ?_⟩
  rwa [properlyNested, Unmatched.ofTokens, List.foldl_cons,
    Unmatched.next_of_operator _ (operator_of_select h).1] at rest

end Cut

end Parts

namespace Expr

variable {tokens : List Token} {e : ParseError}

theorem parse_of_error? (h : (Unmatched.ofTokens tokens).error? = some e) :
    parse tokens = .error e := by
  have bare : stripped tokens = .error e := by
    rw [stripped]
    split
    · rename_i found
      rw [h] at found
      cases found
      rfl
    · rename_i fine
      rw [h] at fine
      cases fine
  rw [parse_eq, bare]
  rfl

theorem kind_of_stripped (nested : properlyNested tokens = true) (h : stripped tokens = .error e) :
    e.cause.kind ≠ .invalidBracket := by
  fun_induction stripped tokens with
  | case1 tokens found wrong =>
    rw [properlyNested_iff_error?.1 nested] at wrong
    cases wrong
  | case2 => cases h
  | case3 =>
    cases h
    intro bracket
    cases bracket
  | case4 tokens _ first rest enclosed ih => exact ih (properlyNested_of_enclosed? enclosed) h

theorem kind_of_select (h : Cut.select tokens = .error e) : e.cause.kind ≠ .invalidBracket := by
  unfold Cut.select at h
  split at h
  · cases h
    intro bracket
    cases bracket
  · unfold Cut.settled at h
    split at h
    · cases h
    · split at h
      · split at h
        · cases h
        · cases h
          intro bracket
          cases bracket
      · cases h

theorem kind_of_ofValue {token : Token} (h : ofValue token = .error e) :
    e.cause.kind ≠ .invalidBracket := by
  unfold ofValue at h
  split at h <;> cases h
  intro bracket
  cases bracket

theorem kind_of_ofSigned {sign operand : Token} (h : ofSigned sign operand = .error e) :
    e.cause.kind ≠ .invalidBracket := by
  have refused {f : Float → Expr} (h : (ofSigned.magnitude operand).map f = .error e) :
      e.cause.kind ≠ .invalidBracket := by
    unfold ofSigned.magnitude at h
    split at h <;> cases h
    intro bracket
    cases bracket
  unfold ofSigned at h
  split at h
  · exact refused h
  · exact refused h
  · cases h
    intro bracket
    cases bracket

theorem ofCut_eq_bracket_error {cut : Cut} (h : ofCut cut = .error e)
    (bracket : e.cause.kind = .invalidBracket) :
    parse cut.before = .error e ∨ parse cut.after = .error e := by
  unfold ofCut at h
  split at h
  · cases h
    cases bracket
  · split at h
    · cases h
      cases bracket
    · rcases bind_eq_error_iff.1 h with left | ⟨_, _, h⟩
      · exact .inl left
      · rcases bind_eq_error_iff.1 h with right | ⟨_, _, impossible⟩
        · exact .inr right
        · cases impossible

theorem kind_of_parse (nested : properlyNested tokens = true) (h : parse tokens = .error e) :
    e.cause.kind ≠ .invalidBracket := by
  intro bracket
  induction size : tokens.length using Nat.strongRecOn generalizing tokens with
  | ind length ih =>
    subst size
    rw [parse_eq] at h
    rcases bind_eq_error_iff.1 h with refused | ⟨slice, bare, h⟩
    · exact kind_of_stripped nested refused bracket
    · have short := length_stripped bare
      have inner := properlyNested_of_stripped bare
      match slice, h with
      | [], h =>
        cases h
        cases bracket
      | [token], h => exact kind_of_ofValue h bracket
      | [sign, operand], h => exact kind_of_ofSigned h bracket
      | first :: second :: third :: rest, h =>
        rcases bind_eq_error_iff.1 h with refused | ⟨cut, selected, h⟩
        · exact kind_of_select refused bracket
        · have total := Cut.length_of_select selected
          obtain ⟨before, after⟩ := Cut.properlyNested_of_select selected inner
          rcases ofCut_eq_bracket_error h bracket with failed | failed
          · exact ih _ (by omega) before failed rfl
          · exact ih _ (by omega) after failed rfl

theorem parse_bracket_error_iff_error? :
    (parse tokens = .error e ∧ e.cause.kind = .invalidBracket) ↔
      (Unmatched.ofTokens tokens).error? = some e := by
  constructor
  · intro ⟨failed, bracket⟩
    cases found : (Unmatched.ofTokens tokens).error? with
    | none => exact absurd bracket (kind_of_parse (properlyNested_iff_error?.2 found) failed)
    | some e' =>
      rw [parse_of_error? found, Except.error.injEq] at failed
      rw [failed]
  · intro found
    exact ⟨parse_of_error? found, Unmatched.kind_of_error? found⟩

/-- A list is refused for its brackets just if these are not properly nested, whatever else is wrong
with it. The error stands at the first opening bracket that stays unmatched if more of these than of
the closing ones do, at the last unmatched closing bracket if it is the other way round, and at the
first unmatched closing bracket if there are equally many. -/
theorem parse_bracket_error_iff_misplaced (tokens : List Token) :
    ((∃ e : ParseError, parse tokens = .error e ∧ e.cause.kind = .invalidBracket) ↔
        ¬ Nested tokens) ∧
      ∀ e : ParseError, (parse tokens = .error e ∧ e.cause.kind = .invalidBracket) ↔
        Misplaced tokens e := by
  constructor
  · simp only [parse_bracket_error_iff_error?]
    rw [← properlyNested_iff, properlyNested_iff_error?, ← Option.isSome_iff_exists,
      Option.isSome_iff_ne_none]
  · intro e
    rw [parse_bracket_error_iff_error?, Unmatched.error?_eq_some_iff]

end Expr

end Reckoner
