import Reckoner.Proofs.Grammar.Rewriting

/-!
# Reading an expression back from its bracketed text

The bracketed text of a parsed expression is read as the expression again, with two exceptions: where
a negative number comes directly after a remainder, since no sign may stand there, and where one is
written with an exponent or as an infinity. Such a text is not a formula at all.
-/

set_option autoImplicit false

namespace Reckoner

namespace Token.Alike

theorem refl (t : Token) : t.Alike Span.Anywhere t := ⟨rfl, rfl, rfl, trivial⟩

theorem trans {t t' t'' : Token} (h : t.Alike Span.Anywhere t') (h' : t'.Alike Span.Anywhere t'') :
    t.Alike Span.Anywhere t'' :=
  ⟨h.kind.trans h'.kind, h.lexeme.trans h'.lexeme, h.number.trans h'.number, trivial⟩

end Token.Alike

theorem Expr.Alike.trans {s t u : Expr} (h : s.Alike Span.Anywhere t)
    (h' : t.Alike Span.Anywhere u) : s.Alike Span.Anywhere u := by
  induction h generalizing u with
  | nil => exact h'
  | node here _ _ ihLeft ihRight =>
    cases h' with
    | node here' left' right' => exact .node (here.trans here') (ihLeft left') (ihRight right')

theorem Span.mergeStable_anywhere : Span.MergeStable Span.Anywhere := fun _ _ _ _ _ _ => trivial

namespace Expr

open Token (openingBracket closingBracket minusSign)

def isNegative : Expr → Bool
  | .nil => false
  | .node token left right => left.isNil && right.isNil && token.isNegative

/-- Whether the bracketed text can be read: each number is written without letters, and the right side
of a remainder is no negative number. -/
def isLegible : Expr → Bool
  | .nil => true
  | .node token left right =>
    token.isPlain && !(token.kind == .operator .percent && isNegative right) && isLegible left &&
      isLegible right

variable {tree : Expr} {tokens : List Token}

/-- Where the tokens are in order, the expression is legible; and it is no negative number if none may
stand there. -/
theorem Rewritten.isLegible_of_after (h : tree.Rewritten tokens) {awaited reached : Awaited}
    (ready : awaited = .operand ∨ awaited = .unsigned) (inOrder : awaited.after tokens = some reached) :
    reached = .operator ∧ tree.isLegible = true ∧
      (awaited = .unsigned → tree.isNegative = false) := by
  induction h generalizing awaited reached with
  | @value token kind spelled =>
    have follows : awaited.next token.kind = some .operator := by
      rcases ready with rfl | rfl <;> rcases kind with kind | kind <;> rw [kind] <;> rfl
    rw [Awaited.after_cons, follows] at inOrder
    cases inOrder
    refine ⟨rfl, ?_, fun _ => ?_⟩
    · simp [Tree.leaf, isLegible, isNegative, Token.isPlain_of_isSpelled spelled]
    · simp [Tree.leaf, isNegative, Token.isNegative_of_isSpelled spelled]
  | @negative token tokens isNegative magnitude _ =>
    rcases ready with rfl | rfl
    · have signed : Awaited.operand.after (minusSign :: tokens) = Awaited.number.after tokens := rfl
      rw [signed] at inOrder
      cases magnitude with
      | garbled outOfOrder => simp [outOfOrder] at inOrder
      | plain kind _ _ isPlain =>
        rw [Awaited.after_cons, kind] at inOrder
        cases inOrder
        refine ⟨rfl, ?_, by simp⟩
        simp [Tree.leaf, isLegible, Expr.isNegative, isPlain]
    · -- Where no sign may stand, the minus is out of order at once.
      have unsigned : Awaited.unsigned.after (minusSign :: tokens) = none := rfl
      simp [unsigned] at inOrder
  | @operation operator left right before after isOperator spelled leftWritten _ ihLeft ihRight =>
    rw [Awaited.after_group ready rfl rfl, Option.bind_eq_some_iff] at inOrder
    obtain ⟨inner, within, closes⟩ := inOrder
    rw [Awaited.after_append, Option.bind_eq_some_iff] at within
    obtain ⟨between, fromLeft, later⟩ := within
    obtain ⟨rfl, leftLegible, _⟩ := ihLeft (.inl rfl) fromLeft
    rw [Awaited.after_cons, Awaited.next_operator isOperator, Option.bind_some] at later
    obtain ⟨rfl, rightLegible, unsigned⟩ := ihRight (Awaited.ofOperator_eq _) later
    cases closes
    refine ⟨rfl, ?_, fun _ => ?_⟩
    · -- Only after a remainder is an operand without a sign awaited.
      have undivided : operator.kind = .operator .percent → right.isNegative = false := by
        intro percent
        exact unsigned (if_pos percent)
      simpa [isLegible, Token.isPlain_of_isSpelled spelled, leftLegible, rightLegible,
        ← imp_iff_not_or] using undivided
    · have present := leftWritten.ne_nil
      simp [isNegative, present]

theorem Rewritten.exists_phrase (h : tree.Rewritten tokens) (legible : tree.isLegible = true) :
    ∃ (p : Phrase) (read : Expr), p.WellFormed ∧ p.isOperand = true ∧ p.tokens = tokens ∧
      (tree.isNegative = false → p.startsSigned = false) ∧ p.Reads Link.signedLevel read ∧
      read.Alike Span.Anywhere tree := by
  induction h with
  | @value token kind spelled =>
    exact ⟨.value token, .leaf token, kind, rfl, rfl, fun _ => rfl, .value, alike_leaf (.refl token)⟩
  | @negative token tokens isNegative magnitude _ =>
    cases magnitude with
    | garbled _ illegible => simp [Tree.leaf, isLegible, illegible] at legible
    | @plain number kind value same _ =>
      refine ⟨.signed minusSign number, _, ⟨rfl, kind, value⟩, rfl, rfl, ?_, .signed,
        alike_leaf same⟩
      intro unsigned
      simp [Tree.leaf, Tree.isNil, Expr.isNegative, isNegative] at unsigned
  | @operation operator left right before after isOperator spelled leftWritten _ ihLeft ihRight =>
    simp only [isLegible, Bool.and_eq_true] at legible
    obtain ⟨⟨⟨_, undivided⟩, leftLegible⟩, rightLegible⟩ := legible
    obtain ⟨p, first, pWf, pOperand, rfl, _, pReads, pAlike⟩ := ihLeft leftLegible
    obtain ⟨q, second, qWf, qOperand, rfl, unsigned, qReads, qAlike⟩ := ihRight rightLegible
    have chain : (Phrase.chain p operator q).WellFormed := by
      refine ⟨pWf, isOperator, qWf, qOperand, fun percent => unsigned ?_⟩
      simpa [percent] using undivided
    -- Both sides are operands, so there is no other operator to compare levels with.
    have reads : (Phrase.chain p operator q).Reads Link.signedLevel (.node operator first second) := by
      rw [← Phrase.join_of_isOperand p operator qOperand]
      apply Phrase.Reads.operation pReads qReads
      · simp [Phrase.links_of_isOperand pOperand]
      · simp [Phrase.links_of_isOperand qOperand]
    exact ⟨.group openingBracket (.chain p operator q) closingBracket, _, ⟨rfl, chain, rfl⟩, rfl, rfl,
      fun _ => rfl, .group reads, .node (.refl operator) pAlike qAlike⟩

/-- The tokens of the bracketed text are parsed just if the expression is legible, and then as the
expression. -/
theorem Rewritten.parse_iff (h : tree.Rewritten tokens) :
    (tree.isLegible = true → ∃ read : Expr, parse tokens = .ok read ∧
      read.Alike Span.Anywhere tree) ∧
    (tree.isLegible = false → ∃ wrong : ParseError, parse tokens = .error wrong) := by
  constructor
  · intro legible
    obtain ⟨p, read, wf, _, rfl, _, reads, alike⟩ := h.exists_phrase legible
    exact ⟨read, (parse_tokens_eq_ok_iff wf).2 reads, alike⟩
  · intro illegible
    cases parsed : parse tokens with
    | error wrong => exact ⟨wrong, rfl⟩
    | ok read =>
      obtain ⟨p, wf, rfl⟩ := Phrase.exists_of_parse parsed
      obtain ⟨inOrder, _⟩ := Awaited.after_tokens wf
      obtain ⟨_, legible, _⟩ := h.isLegible_of_after (.inl rfl) inOrder
      rw [illegible] at legible
      cases legible

/-- The bracketed text of an expression that was read from a text gives the same expression again if it
is legible. If it is not, the text is scanned, but not parsed. -/
theorem bracketed_reads_back_by_legibility {text : String} {tree : Expr}
    (h : (ofText text).result = .ok tree) :
    (tree.isLegible = true → ∃ again : Expr, (ofText (bracketed tree)).result = .ok again ∧
      again.Alike Span.Anywhere tree) ∧
    (tree.isLegible = false → ∃ wrong : ParseError,
      (ofText (bracketed tree)).result = .error (.parsing (bracketed tree) wrong)) := by
  obtain ⟨tokens, scanned, parsed⟩ := ofText_eq_ok_iff.1 h
  obtain ⟨rewritten, written⟩ := Rewritten.exists_of_parse parsed (Token.isSpelled_ofText scanned)
  obtain ⟨found, laid, alike⟩ := written.spells 0
  have again : Token.ofText (bracketed tree) = .ok found :=
    Token.ofText_eq_ok_iff.2 (Token.scan_of_laid laid)
  have present : found ≠ [] := mt (eq_nil_iff alike).1 written.tokens_ne_nil
  have agree := agree_parse Span.mergeStable_anywhere alike present
  have outcome : (ofText (bracketed tree)).result =
      (parse found).mapError (.parsing (bracketed tree)) := by
    rw [result_ofText, again]
    rfl
  rw [outcome]
  obtain ⟨legibly, illegibly⟩ := written.parse_iff
  constructor
  · intro legible
    obtain ⟨read, parsed, same⟩ := legibly legible
    rw [parsed] at agree
    generalize parse found = result at agree ⊢
    cases agree with
    | ok alike => exact ⟨_, rfl, Alike.trans alike same⟩
  · intro illegible
    obtain ⟨wrong, parsed⟩ := illegibly illegible
    rw [parsed] at agree
    generalize parse found = result at agree ⊢
    cases agree with
    | error same => exact ⟨_, rfl⟩

/-- The tree of `r = 7 / -2`. -/
def negatedDivisor : Expr :=
  .node ⟨.operator .equal, "=", ⟨2, 3⟩, none⟩ (.leaf ⟨.identifier, "r", ⟨0, 1⟩, none⟩)
    (.node ⟨.operator .slash, "/", ⟨6, 7⟩, none⟩ (.leaf ⟨.number, "7", ⟨4, 5⟩, some 7.0⟩)
      (.leaf (.ofNumber (-2.0) ⟨8, 10⟩)))

/-- A sign may stand after a division. -/
theorem bracketed_negatedDivisor_reads_back :
    (ofText "r = 7 / -2").result = .ok negatedDivisor ∧
      bracketed negatedDivisor = "(r = (7 / -2))" ∧ negatedDivisor.isLegible = true ∧
      ∃ again : Expr, (ofText (bracketed negatedDivisor)).result = .ok again ∧
        again.Alike Span.Anywhere negatedDivisor := by
  have read : (ofText "r = 7 / -2").result = .ok negatedDivisor := by decide +kernel
  have legible : negatedDivisor.isLegible = true := by decide +kernel
  obtain ⟨legibly, _⟩ := bracketed_reads_back_by_legibility read
  exact ⟨read, by decide +kernel, legible, legibly legible⟩

/-- The tree of `5 % (-3)`. -/
def negatedModulus : Expr :=
  .node ⟨.operator .percent, "%", ⟨2, 3⟩, none⟩ (.leaf ⟨.number, "5", ⟨0, 1⟩, some 5.0⟩)
    (.leaf (.ofNumber (-3.0) ⟨5, 7⟩))

/-- The brackets around the negative number are lost, and without them it may not stand there. -/
theorem bracketed_negatedModulus_not_read :
    (ofText "5 % (-3)").result = .ok negatedModulus ∧ bracketed negatedModulus = "(5 % -3)" ∧
      ¬ ∃ again : Expr, (ofText (bracketed negatedModulus)).result = .ok again ∧
        again.Alike Span.Anywhere negatedModulus := by
  have written : bracketed negatedModulus = "(5 % -3)" := by decide +kernel
  have refused : (ofText "(5 % -3)").result =
      .error (.parsing "(5 % -3)" ⟨.signExpected .number, ⟨1, 2⟩⟩) := by decide +kernel
  refine ⟨by decide +kernel, written, ?_⟩
  rw [written, refused]
  rintro ⟨again, read, _⟩
  cases read

/-- A large negative number is written with an exponent. -/
example : (ofText "-100000000000000000").result.map (fun tree => (bracketed tree, tree.isLegible)) =
    .ok ("-1e+17", false) := by
  decide +kernel

end Expr

end Reckoner
