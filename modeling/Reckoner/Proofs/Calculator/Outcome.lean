import Reckoner.Calculator
import Reckoner.Proofs.Evaluation.Operations

/-!
# What a line comes to

A line is scanned, parsed and evaluated against the pool, and the first of these stages that fails
gives the error of the line.
-/

set_option autoImplicit false

namespace Reckoner

section Except

variable {Error Error' Value : Type}

@[simp] theorem mapError_eq_ok_iff {result : Except Error Value} {f : Error → Error'}
    {value : Value} : result.mapError f = .ok value ↔ result = .ok value := by
  cases result <;> simp [Except.mapError]

@[simp] theorem mapError_eq_error_iff {result : Except Error Value} {f : Error → Error'}
    {e : Error'} : result.mapError f = .error e ↔ ∃ e' : Error, result = .error e' ∧ f e' = e := by
  cases result <;> simp [Except.mapError]

@[simp] theorem Failure.map_eq_error_iff {failure : Failure Error} {f : Error → Error'}
    {e : Error'} : failure.map f = .error e ↔ ∃ e' : Error, failure = .error e' ∧ f e' = e := by
  cases failure <;> simp

end Except

namespace Expr

theorem result_ofText (text : String) :
    (Expr.ofText text).result =
      (Token.ofText text).bind fun tokens =>
        (Expr.parse tokens).mapError (FormulaError.parsing text) := by
  simp only [Expr.ofText, Traced.result_bind, Traced.result_ofExcept, Traced.result_note]
  rfl

theorem ofText_eq_ok_iff {text : String} {tree : Expr} :
    (ofText text).result = .ok tree ↔
      ∃ tokens : List Token, Token.ofText text = .ok tokens ∧ parse tokens = .ok tree := by
  simp [result_ofText, bind_eq_ok_iff]

end Expr

namespace Token

theorem ofText_eq_ok_iff {text : String} {tokens : List Token} :
    ofText text = .ok tokens ↔ scan 0 text.toList = .ok tokens := by
  simp [ofText]

theorem ofText_eq_error_iff {text : String} {e : FormulaError} :
    ofText text = .error e ↔
      ∃ wrong : ScanError, scan 0 text.toList = .error wrong ∧
        FormulaError.scanning text wrong = e := by
  simp [ofText]

end Token

namespace Calculator

variable {c : Calculator} {text : String}

theorem fst_run (c : Calculator) (text : String) : (c.run text).1 = c.outcome text := rfl

theorem snd_run (c : Calculator) (text : String) :
    (c.run text).2 = c.store (c.outcome text).result := rfl

theorem result_outcome (c : Calculator) (text : String) :
    (c.outcome text).result =
      ((Expr.ofText text).result.mapError Failure.error).bind fun tree =>
        (Expr.evaluate c.pool tree).result.mapError
          (Failure.map (FormulaError.evaluating text)) := by
  simp only [outcome, Formula.ofText, Formula.calculate, Traced.result_bind, Traced.result_mapError,
    Traced.result_note, Traced.result_pure]
  cases (Expr.ofText text).result with
  | error e => rfl
  | ok tree =>
    simp only [Except.bind, Except.mapError]
    cases (Expr.evaluate c.pool tree).result <;> rfl

theorem outcome_of_parse {tokens : List Token} {tree : Expr}
    (scanned : Token.ofText text = .ok tokens) (parsed : Expr.parse tokens = .ok tree) :
    (c.outcome text).result =
      (Expr.evaluate c.pool tree).result.mapError
        (Failure.map (FormulaError.evaluating text)) := by
  rw [result_outcome, Expr.result_ofText, scanned]
  simp only [Except.bind, parsed, Except.mapError]

theorem outcome_of_parse_error {tokens : List Token} {wrong : ParseError}
    (scanned : Token.ofText text = .ok tokens) (parsed : Expr.parse tokens = .error wrong) :
    (c.outcome text).result = .error (.error (.parsing text wrong)) := by
  rw [result_outcome, Expr.result_ofText, scanned]
  simp only [Except.bind, parsed, Except.mapError]

theorem outcome_of_scan_error {e : FormulaError} (scanned : Token.ofText text = .error e) :
    (c.outcome text).result = .error (.error e) := by
  rw [result_outcome, Expr.result_ofText, scanned]
  rfl

theorem outcome_eq_ok_iff {binding : Binding} :
    (c.outcome text).result = .ok binding ↔
      ∃ (tokens : List Token) (tree : Expr), Token.ofText text = .ok tokens ∧
        Expr.parse tokens = .ok tree ∧ (Expr.evaluate c.pool tree).result = .ok binding := by
  cases scanned : Token.ofText text with
  | error e => simp [outcome_of_scan_error scanned]
  | ok tokens =>
    cases parsed : Expr.parse tokens with
    | error wrong => simp [outcome_of_parse_error scanned parsed, parsed]
    | ok tree => simp [outcome_of_parse scanned parsed, parsed]

/-- Which stage the error of a line comes from. -/
theorem outcome_eq_error_iff {e : FormulaError} :
    (c.outcome text).result = .error (.error e) ↔
      Token.ofText text = .error e ∨
      (∃ (tokens : List Token) (wrong : ParseError), Token.ofText text = .ok tokens ∧
        Expr.parse tokens = .error wrong ∧ FormulaError.parsing text wrong = e) ∨
      ∃ (tokens : List Token) (tree : Expr) (wrong : EvalError), Token.ofText text = .ok tokens ∧
        Expr.parse tokens = .ok tree ∧
        (Expr.evaluate c.pool tree).result = .error (.error wrong) ∧
        FormulaError.evaluating text wrong = e := by
  cases scanned : Token.ofText text with
  | error e => simp [outcome_of_scan_error scanned]
  | ok tokens =>
    cases parsed : Expr.parse tokens with
    | error wrong => simp [outcome_of_parse_error scanned parsed, parsed]
    | ok tree => simp [outcome_of_parse scanned parsed, parsed]

end Calculator

end Reckoner
