import Reckoner.Proofs.Calculator.Outcome
import Reckoner.Proofs.Dialogue.Diagnostics
import Reckoner.Proofs.Evaluation.Causes
import Reckoner.Proofs.Evaluation.Places
import Reckoner.Proofs.Grammar.Places

/-!
# What the error of a line says

The tokens of a text are proper and stand in it one after the other. So an error that they lead to,
while they are parsed or evaluated, reaches from the start of a token to the end of that token or of
a later one, and it is none of those that only trees made by hand can have.
-/

set_option autoImplicit false

namespace Reckoner

namespace ErrorKind

/-- The kinds of errors that a line can be answered with. -/
def ofLines : List ErrorKind :=
  [invalidChar, invalidFloatValue, invalidOperator, invalidFormula, invalidBracket, zeroDiv,
   undefinedVariable]

end ErrorKind

structure FormulaError.FoundIn (text : String) (e : FormulaError) : Prop where
  text_eq : e.text = text
  kind_mem : e.kind ∈ ErrorKind.ofLines
  start_nonneg : 0 ≤ e.span.start
  start_le_stop : e.span.start ≤ e.span.stop
  stop_le_length : e.span.stop ≤ text.length
  no_tokens_of_empty : e.span.start = e.span.stop → Token.ofText text = .ok []
  /-- Past scanning, errors stand at tokens. -/
  spanned : (∀ cause : ScanCause, e.cause ≠ .scanning cause) → e.span.start ≠ e.span.stop →
    ∃ tokens : List Token, Token.ofText text = .ok tokens ∧ Token.Spanned tokens e.span
  can_be_written : ∃ written : String, e.diagnostic.render = .ok written
  can_be_shown : ∀ coloured : Bool, (Terminal.diagnostic coloured e.diagnostic).result = .ok ()

namespace Token

variable {text : String} {tokens : List Token}

theorem placed_text (text : String) :
    Placed 0 text.length (scan 0 text.toList) := by
  have placed := placed_scan 0 text.toList
  rwa [Int.natCast_zero, Int.zero_add, String.length_toList] at placed

theorem allAt_ofText (h : ofText text = .ok tokens) : AllAt (Span.Inside 0 text.length) tokens := by
  have placed := placed_text text
  rw [ofText_eq_ok_iff.1 h] at placed
  exact placed.1

theorem pairwise_ofText (h : ofText text = .ok tokens) : tokens.Pairwise Before := by
  have placed := placed_text text
  rw [ofText_eq_ok_iff.1 h] at placed
  exact placed.2

theorem isProper_ofText (h : ofText text = .ok tokens) : ∀ token ∈ tokens, token.IsProper :=
  isProper_of_scan 0 text.toList tokens (ofText_eq_ok_iff.1 h)

theorem mergeClosed_ofText (h : ofText text = .ok tokens) : Span.MergeClosed (Spanned tokens) :=
  mergeClosed_spanned (allAt_ofText h) (pairwise_ofText h)

end Token

theorem ScanCause.kind_mem (cause : ScanCause) : cause.kind ∈ ErrorKind.ofLines := by
  cases cause <;> simp [ScanCause.kind, ErrorKind.ofLines]

theorem ParseCause.kind_mem (cause : ParseCause) : cause.kind ∈ ErrorKind.ofLines := by
  cases cause <;> simp [ParseCause.kind, ErrorKind.ofLines]

namespace FormulaError

variable {text : String} {tokens : List Token}

theorem foundIn_of_inside {e : FormulaError} (sameText : e.text = text)
    (known : e.kind ∈ ErrorKind.ofLines) (inside : e.span.Inside 0 text.length)
    (spanned : (∀ cause : ScanCause, e.cause ≠ .scanning cause) →
      ∃ tokens : List Token, Token.ofText text = .ok tokens ∧ Token.Spanned tokens e.span) :
    e.FoundIn text where
  text_eq := sameText
  kind_mem := known
  start_nonneg := inside.low_le
  start_le_stop := Int.le_of_lt inside.start_lt
  stop_le_length := inside.stop_le
  no_tokens_of_empty := fun empty => absurd empty (Int.ne_of_lt inside.start_lt)
  spanned := fun unscanned _ => spanned unscanned
  can_be_written := Diagnostic.exists_render (Int.le_of_lt inside.start_lt)
  can_be_shown := fun coloured =>
    Terminal.result_diagnostic coloured (Int.le_of_lt inside.start_lt)

theorem foundIn_of_scan {e : FormulaError} (h : Token.ofText text = .error e) :
    e.FoundIn text := by
  obtain ⟨wrong, scanned, rfl⟩ := Token.ofText_eq_error_iff.1 h
  have placed := Token.placed_text text
  rw [scanned] at placed
  have known : (scanning text wrong).kind ∈ ErrorKind.ofLines := wrong.cause.kind_mem
  apply foundIn_of_inside rfl known placed
  intro unscanned
  exact absurd rfl (unscanned wrong.cause)

theorem foundIn_of_parse {wrong : ParseError} (scanned : Token.ofText text = .ok tokens)
    (h : Expr.parse tokens = .error wrong) : (parsing text wrong).FoundIn text := by
  cases tokens with
  | nil =>
    -- The empty list is refused at the empty span, which is the only one of its kind.
    rw [Expr.parse_nil, Except.error.injEq] at h
    subst h
    exact
      { text_eq := rfl
        kind_mem := ParseCause.kind_mem .noTokens
        start_nonneg := Int.le_refl 0
        start_le_stop := Int.le_refl 0
        stop_le_length := Int.natCast_nonneg _
        no_tokens_of_empty := fun _ => scanned
        spanned := fun _ nonempty => absurd rfl nonempty
        can_be_written := Diagnostic.exists_render (Int.le_refl 0)
        can_be_shown := fun coloured => Terminal.result_diagnostic coloured (Int.le_refl 0) }
  | cons first rest =>
    have nonempty := List.cons_ne_nil first rest
    have inside := Expr.span_mem_of_parse Span.mergeClosed_inside h nonempty
      (Token.allAt_ofText scanned)
    have spanned := Expr.span_mem_of_parse (Token.mergeClosed_ofText scanned) h nonempty
      (Token.allAt_spanned _)
    have known : (parsing text wrong).kind ∈ ErrorKind.ofLines := wrong.cause.kind_mem
    exact foundIn_of_inside rfl known inside fun _ => ⟨_, scanned, spanned⟩

theorem foundIn_of_evaluate {pool : Pool} {tree : Expr} {wrong : EvalError}
    (scanned : Token.ofText text = .ok tokens) (parsed : Expr.parse tokens = .ok tree)
    (h : (Expr.evaluate pool tree).result = .error (.error wrong)) :
    (evaluating text wrong).FoundIn text := by
  have shape := Expr.wellShaped_of_parse parsed
  obtain ⟨token, member, here⟩ := List.mem_map.1 (Expr.mem_places_of_evaluate shape h)
  have inside := Expr.allAt_values Span.mergeClosed_inside parsed
    (Token.allAt_ofText scanned) token member
  have spanned := Expr.allAt_values (Token.mergeClosed_ofText scanned) parsed
    (Token.allAt_spanned tokens) token member
  rw [here] at inside spanned
  have proper := Expr.forall_values_of_parse parsed (Token.isProper_ofText scanned)
    fun _ _ value _ _ => Token.isProper_ofNumber value _
  have kinds : Expr.evaluationKinds ⊆ ErrorKind.ofLines := by decide
  have known : (evaluating text wrong).kind ∈ ErrorKind.ofLines :=
    kinds (Expr.kind_of_evaluate shape proper h)
  exact foundIn_of_inside rfl known inside fun _ => ⟨tokens, scanned, spanned⟩

end FormulaError

namespace Calculator

variable {c : Calculator} {text : String}

theorem foundIn_of_outcome {e : FormulaError} (h : (c.outcome text).result = .error (.error e)) :
    e.FoundIn text := by
  rcases outcome_eq_error_iff.1 h with scanned | ⟨tokens, wrong, scanned, parsed, rfl⟩ |
    ⟨tokens, tree, wrong, scanned, parsed, evaluated, rfl⟩
  · exact FormulaError.foundIn_of_scan scanned
  · exact FormulaError.foundIn_of_parse scanned parsed
  · exact FormulaError.foundIn_of_evaluate scanned parsed evaluated

/-- Whatever the pool, an error that a line is answered with carries the line, is of a kind that lines
can have, and stands in the line at a span that can be marked. -/
theorem foundIn_of_run {e : FormulaError} (h : (c.run text).1.result = .error (.error e)) :
    e.FoundIn text :=
  foundIn_of_outcome h

/-- The target of `-1 = 2` is a number that covers two tokens. -/
theorem foundIn_negated_target :
    (initial.run "-1 = 2").1.result =
        .error (.error ⟨.evaluating .targetNotVariable, ⟨0, 2⟩, "-1 = 2"⟩) ∧
      FormulaError.FoundIn "-1 = 2" ⟨.evaluating .targetNotVariable, ⟨0, 2⟩, "-1 = 2"⟩ := by
  have refused : (initial.run "-1 = 2").1.result =
      .error (.error ⟨.evaluating .targetNotVariable, ⟨0, 2⟩, "-1 = 2"⟩) := by
    rw [fst_run, result_outcome, Expr.result_ofText, Token.ofText]
    decide +kernel
  exact ⟨refused, foundIn_of_run refused⟩

end Calculator

end Reckoner
