import Reckoner.Dialogue
import Reckoner.Proofs.Calculator.Errors
import Reckoner.Proofs.Evaluation.Faults

/-!
# What a dialogue survives

A line of a dialogue is answered with a binding or with an error, unless its formula divides an
infinity: that is the one fault of a calculator, and no fault comes from showing an error, since
every error of a text stands at a span that can be marked.
-/

set_option autoImplicit false

namespace Reckoner

namespace Calculator

variable (c : Calculator) (text : String)

/-- The formula of the text comes to divide an infinity when it is evaluated against the pool. -/
def DividesInfinity : Prop :=
  ∃ tree part : Expr, (Expr.ofText text).result = .ok tree ∧ tree.evaluatedPart? = some part ∧
    (Expr.substitute c.pool part).DividesInfinity

theorem outcome_eq_fault_iff (fault : Fault) :
    (c.outcome text).result = .error (.fault fault) ↔
      fault = .undefinedRemainder ∧ c.DividesInfinity text := by
  rw [result_outcome]
  cases read : (Expr.ofText text).result with
  | error e => simp [Except.mapError, Except.bind, DividesInfinity, read]
  | ok tree =>
    have passed : ((Expr.evaluate c.pool tree).result.mapError
        (Failure.map (FormulaError.evaluating text))) = .error (.fault fault) ↔
          (Expr.evaluate c.pool tree).result = .error (.fault fault) := by
      cases (Expr.evaluate c.pool tree).result with
      | ok binding => simp [Except.mapError]
      | error failure => cases failure <;> simp [Except.mapError]
    simp only [Except.mapError, Except.bind] at passed ⊢
    rw [passed, Expr.evaluate_eq_fault_iff]
    simp [DividesInfinity, read]

end Calculator

namespace Dialogue

/-- The calculator after a line; a blank line is passed over. -/
def next (c : Calculator) (line : String) : Calculator :=
  if Text.isBlankText line then c else c.store (c.outcome line).result

theorem result_answer (level : LogLevel) (c : Calculator) (line : String) :
    (answer level c line).result =
      if Text.isBlankText line then .ok c
      else
        match (c.outcome line).result with
        | .error (.fault fault) => .error fault
        | _ => .ok (next c line) := by
  unfold answer next
  split
  · rfl
  · simp only [Calculator.run, Traced.result_bind, Traced.result_noteAll, Except.bind]
    cases outcome : (c.outcome line).result with
    | ok binding => rfl
    | error failure =>
      cases failure with
      | fault fault => rfl
      | error e =>
        have shown := Terminal.result_diagnostic (d := e.diagnostic) false
          (Calculator.foundIn_of_outcome outcome).start_le_stop
        rw [Traced.result_bind, Traced.result_mapNotes, shown]
        rfl

theorem answer_eq_ok_iff (level : LogLevel) (c after : Calculator) (line : String) :
    (answer level c line).result = .ok after ↔
      after = next c line ∧ (Text.isBlankText line = true ∨ ¬ c.DividesInfinity line) := by
  rw [result_answer]
  cases blank : Text.isBlankText line with
  | true => simp [next, blank, eq_comm]
  | false =>
    have faults := c.outcome_eq_fault_iff line
    cases outcome : (c.outcome line).result with
    | ok binding =>
      simp only [outcome, reduceCtorEq, false_iff, not_and] at faults
      simp [faults .undefinedRemainder rfl, eq_comm]
    | error failure =>
      cases failure with
      | error e =>
        simp only [outcome, Except.error.injEq, reduceCtorEq, false_iff, not_and] at faults
        simp [faults .undefinedRemainder rfl, eq_comm]
      | fault fault =>
        have divides := ((faults fault).1 outcome).2
        simp [divides]

theorem answerAll_of_fault {level : LogLevel} {c : Calculator} {line : String} {fault : Fault}
    (rest : List String) (h : (answer level c line).result = .error fault) :
    (answerAll level c (line :: rest)).result = .error fault := by
  rw [answerAll]
  simp only [Traced.result_bind, Traced.result_note, Except.bind, h]

def afterLines (c : Calculator) (lines : List String) : Calculator := lines.foldl next c

/-- A dialogue is carried on to the end of its lines just if none of them, read with the pool that
the lines before it have left, divides an infinity. -/
theorem answerAll_eq_ok_iff (level : LogLevel) (c : Calculator) (lines : List String) :
    (answerAll level c lines).result = .ok () ↔
      ∀ (before after : List String) (line : String), lines = before ++ line :: after →
        Text.isBlankText line = true ∨ ¬ (afterLines c before).DividesInfinity line := by
  induction lines generalizing c with
  | nil => simp [answerAll]
  | cons first rest ih =>
    have step : (answerAll level c (first :: rest)).result = .ok () ↔
        (Text.isBlankText first = true ∨ ¬ c.DividesInfinity first) ∧
          (answerAll level (next c first) rest).result = .ok () := by
      have answered := answer_eq_ok_iff level c (next c first) first
      cases found : (answer level c first).result with
      | error fault =>
        rw [found] at answered
        simp only [reduceCtorEq, true_and, false_iff] at answered
        simp [answered, answerAll_of_fault rest found]
      | ok after =>
        obtain ⟨rfl, fine⟩ := (answer_eq_ok_iff level c after first).1 found
        rw [answerAll]
        simp [found, fine, Except.bind]
    rw [step, ih]
    constructor
    · rintro ⟨fine, later⟩ before after line split
      cases before with
      | nil =>
        cases split
        exact fine
      | cons earlier before =>
        cases split
        exact later before after line rfl
    · intro all
      refine ⟨all [] rest first rfl, ?_⟩
      rintro before after line rfl
      exact all (first :: before) after line rfl

/-- A formula has a value or an error just if it does not divide an infinity, which ends it in the
one fault there is; and a dialogue is carried on to the end of its lines just if none of them does,
read with the pool that the lines before it have left. -/
theorem survives_iff_not_dividesInfinity (c : Calculator) (level : LogLevel) (text : String)
    (lines : List String) :
    (((∃ binding : Binding, (c.run text).1.result = .ok binding) ∨
        ∃ e : FormulaError, (c.run text).1.result = .error (.error e)) ↔
      ¬ c.DividesInfinity text) ∧
    (∀ fault : Fault, (c.run text).1.result = .error (.fault fault) →
      fault = .undefinedRemainder) ∧
    ((answerAll level c lines).result = .ok () ↔
      ∀ (before after : List String) (line : String), lines = before ++ line :: after →
        Text.isBlankText line = true ∨ ¬ (afterLines c before).DividesInfinity line) := by
  have faults := c.outcome_eq_fault_iff text
  refine ⟨?_, fun fault ends => ((faults fault).1 ends).1, answerAll_eq_ok_iff level c lines⟩
  have divides : c.DividesInfinity text ↔
      (c.run text).1.result = .error (.fault .undefinedRemainder) := by
    simp [Calculator.fst_run, faults]
  rw [divides]
  cases result : (c.run text).1.result with
  | ok binding => simp
  | error failure =>
    cases failure with
    | error e => simp
    | fault fault =>
      cases ((faults fault).1 result).1
      simp

/-- The line `x = 1…0 % 2`, whose first numeral lies beyond the greatest double and is read as an
infinity. -/
def overflowing : List Char := "x = 1".toList ++ List.replicate 309 '0' ++ " % 2".toList

theorem outcome_overflowing :
    (Calculator.initial.outcome (String.ofList overflowing)).result =
      .error (.fault .undefinedRemainder) := by
  -- Evaluation takes the characters as they are, which spares it the encoding of the text.
  rw [Calculator.result_outcome, Expr.result_ofText, Token.ofText, String.toList_ofList]
  decide +kernel

theorem answer_overflowing (level : LogLevel) :
    (answer level .initial (String.ofList overflowing)).result =
      .error .undefinedRemainder := by
  have shown : Text.isBlankText (String.ofList overflowing) = false := by
    rw [Text.isBlankText, String.toList_ofList]
    decide +kernel
  rw [result_answer, outcome_overflowing, shown]
  rfl

/-- The remainder of an infinity is a fault, which ends the dialogue. -/
theorem overflowing_ends_in_fault :
    (Calculator.initial.run (String.ofList overflowing)).1.result =
        .error (.fault .undefinedRemainder) ∧
      (answerAll .warning .initial [String.ofList overflowing]).result =
        .error .undefinedRemainder := by
  rw [Calculator.fst_run]
  exact ⟨outcome_overflowing, answerAll_of_fault [] (answer_overflowing .warning)⟩

end Dialogue

end Reckoner
