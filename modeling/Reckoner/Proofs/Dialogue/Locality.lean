import Reckoner.Proofs.Dialogue.Survival
import Reckoner.Proofs.Text.Lines

/-!
# Lines that leave no trace

A dialogue shows one turn after the other: a prompt and the report of the line. The report depends
on the pool alone, not on what was shown before, and a line that is blank or that reports an error
leaves the pool as it is. Without such a line a dialogue shows the same, but for that line's turn.
-/

set_option autoImplicit false

namespace Reckoner.Dialogue

/-- What is shown; the log is not. -/
def shown {Value : Type} (t : Traced Output Fault Value) : List String :=
  t.trace.filterMap Output.shown?

def report (c : Calculator) (line : String) : List String :=
  if Text.isBlankText line then []
  else
    match (c.run line).1.result with
    | .ok binding => [Terminal.binding binding]
    | .error (.error e) => (Terminal.diagnostic false e.diagnostic).trace
    | .error (.fault _) => []

def turns (c : Calculator) : List String → List String
  | [] => []
  | line :: rest => prompt :: report c line ++ turns (next c line) rest

/-- A line that is blank or is answered with an error. -/
def PassedOver (c : Calculator) (line : String) : Prop :=
  Text.isBlankText line = true ∨
    ∃ e : FormulaError, (c.run line).1.result = .error (.error e)

section Shown

variable {Value Value' : Type}

@[simp] theorem shown_pure (value : Value) :
    shown (pure value : Traced Output Fault Value) = [] := rfl

@[simp] theorem shown_note (text : String) : shown (Traced.note (.shown text)) = [text] := rfl

@[simp] theorem shown_mapNotes (t : Traced String Fault Value) :
    shown (t.mapNotes Output.shown) = t.trace := by
  simp [shown, Traced.mapNotes, List.filterMap_map, Function.comp_def, Output.shown?]

@[simp] theorem shown_noteAll_logged (level : LogLevel) (events : List Event) :
    shown (Traced.noteAll (logged level events)) = [] := by
  apply List.filterMap_eq_nil_iff.2
  intro output inside
  simp only [Traced.noteAll, logged] at inside
  split at inside
  · obtain ⟨event, _, rfl⟩ := List.mem_map.1 inside
    rfl
  · cases inside

theorem shown_bind_of_ok {first : Traced Output Fault Value} {value : Value}
    (next : Value → Traced Output Fault Value') (h : first.result = .ok value) :
    shown (first >>= next) = shown first ++ shown (next value) := by
  rw [Traced.bind_of_ok next h]
  simp [shown]

end Shown

variable {c : Calculator} {level : LogLevel} {line : String} {before after lines : List String}

theorem shown_answer (level : LogLevel) (c : Calculator) (line : String) :
    shown (answer level c line) = report c line := by
  unfold answer report
  split
  · rfl
  · rw [shown_bind_of_ok _ (Traced.result_noteAll _), shown_noteAll_logged, List.nil_append,
      Calculator.fst_run]
    cases outcome : (c.outcome line).result with
    | ok binding => rfl
    | error failure =>
      cases failure with
      | fault fault => rfl
      | error e =>
        have found := Calculator.foundIn_of_outcome outcome
        have complete := Terminal.result_diagnostic (d := e.diagnostic) false found.start_le_stop
        simp only [Calculator.run, outcome]
        rw [shown_bind_of_ok _ ((Traced.result_mapNotes _ _).trans complete), shown_mapNotes,
          shown_pure, List.append_nil]

theorem answerAll_cons_eq_ok_iff :
    (answerAll level c (line :: lines)).result = .ok () ↔
      (answer level c line).result = .ok (next c line) ∧
        (answerAll level (next c line) lines).result = .ok () := by
  rw [answerAll, Traced.result_bind, Traced.result_note, Except.bind, Traced.result_bind,
    bind_eq_ok_iff]
  constructor
  · rintro ⟨reached, answered, continued⟩
    obtain ⟨rfl, _⟩ := (answer_eq_ok_iff level c reached line).1 answered
    exact ⟨answered, continued⟩
  · rintro ⟨answered, continued⟩
    exact ⟨next c line, answered, continued⟩

theorem answerAll_append_eq_ok_iff :
    (answerAll level c (before ++ after)).result = .ok () ↔
      (answerAll level c before).result = .ok () ∧
        (answerAll level (afterLines c before) after).result = .ok () := by
  induction before generalizing c with
  | nil =>
    have ends : (answerAll level c []).result = .ok () := rfl
    simp [ends, afterLines]
  | cons line before ih =>
    rw [List.cons_append, answerAll_cons_eq_ok_iff, ih, answerAll_cons_eq_ok_iff, and_assoc]
    rfl

theorem shown_answerAll (h : (answerAll level c lines).result = .ok ()) :
    shown (answerAll level c lines) = turns c lines ++ [prompt] := by
  induction lines generalizing c with
  | nil => rfl
  | cons line rest ih =>
    obtain ⟨answered, continued⟩ := answerAll_cons_eq_ok_iff.1 h
    rw [answerAll, shown_bind_of_ok _ (Traced.result_note _), shown_bind_of_ok _ answered,
      shown_answer, ih continued, turns]
    simp

theorem turns_append (c : Calculator) (before after : List String) :
    turns c (before ++ after) = turns c before ++ turns (afterLines c before) after := by
  induction before generalizing c with
  | nil => rfl
  | cons line before ih =>
    rw [List.cons_append, turns, turns, ih, ← List.append_assoc]
    rfl

theorem PassedOver.next_eq (h : PassedOver c line) : next c line = c := by
  unfold next
  rcases h with blank | ⟨e, failed⟩
  · rw [if_pos blank]
  · rw [Calculator.fst_run] at failed
    rw [failed, Calculator.store_error, ite_self]

/-- What is shown of a line ends with a line feed, and no prompt does. -/
theorem laidOut_ne_prompt (form : String → String) (text : String) :
    Terminal.laidOut form text ≠ prompt := by
  intro same
  have ends := congrArg (fun shown => shown.toList.getLast?) same
  simp [Terminal.laidOut, prompt] at ends

theorem trace_diagnostic (d : Diagnostic) :
    (Terminal.diagnostic false d).trace = Terminal.shown d.text ::
      match d.marker? with
      | .ok marker => marker.toList.map Terminal.shown ++ [Terminal.shown d.message]
      | .error _ => [] := by
  unfold Terminal.diagnostic
  cases d.marker? with
  | error fault => rfl
  | ok marker => cases marker <;> rfl

theorem prompt_not_mem_diagnostic (d : Diagnostic) :
    prompt ∉ (Terminal.diagnostic false d).trace := by
  have other : ∀ text : String, prompt ≠ Terminal.shown text := by
    intro text
    exact (laidOut_ne_prompt id text).symm
  rw [trace_diagnostic]
  cases d.marker? with
  | error fault => simp [other]
  | ok marker => cases marker <;> simp [other]

theorem prompt_not_mem_report (c : Calculator) (line : String) : prompt ∉ report c line := by
  unfold report
  split
  · exact List.not_mem_nil
  · split
    · exact fun inside => laidOut_ne_prompt _ _ (List.mem_singleton.1 inside).symm
    · exact prompt_not_mem_diagnostic _
    · exact List.not_mem_nil

theorem count_turns (c : Calculator) (lines : List String) :
    (turns c lines).count prompt = lines.length := by
  induction lines generalizing c with
  | nil => rfl
  | cons line rest ih =>
    have none := List.count_eq_zero.2 (prompt_not_mem_report c line)
    rw [turns, List.cons_append, List.count_cons_self, List.count_append, none, ih, Nat.zero_add,
      List.length_cons]

theorem answerAll_without (passed : PassedOver (afterLines c before) line)
    (h : (answerAll level c (before ++ line :: after)).result = .ok ()) :
    (answerAll level c (before ++ after)).result = .ok () := by
  obtain ⟨earlier, later⟩ := answerAll_append_eq_ok_iff.1 h
  obtain ⟨_, continued⟩ := answerAll_cons_eq_ok_iff.1 later
  rw [passed.next_eq] at continued
  exact answerAll_append_eq_ok_iff.2 ⟨earlier, continued⟩

theorem turns_passedOver (passed : PassedOver (afterLines c before) line) :
    turns c (before ++ line :: after) =
      turns c before ++ (prompt :: report (afterLines c before) line) ++
        turns (afterLines c before) after := by
  rw [turns_append, turns, passed.next_eq, List.append_assoc]

section Transcript

variable {levelName : Option String} {input : String}

theorem transcript_eq_ok_iff :
    (transcript levelName input).result = .ok () ↔
      ∃ level : LogLevel, chosenLevel levelName = .ok level ∧
        (answerAll level .initial (Text.lines input)).result = .ok () := by
  rw [transcript, Traced.result_bind, Traced.result_ofExcept, bind_eq_ok_iff]

theorem shown_transcript (completes : (transcript levelName input).result = .ok ()) :
    shown (transcript levelName input) = turns .initial (Text.lines input) ++ [prompt] := by
  obtain ⟨level, chosen, carriedOn⟩ := transcript_eq_ok_iff.1 completes
  have read : (Traced.ofExcept (chosenLevel levelName) : Traced Output Fault LogLevel).result =
      .ok level := chosen
  rw [transcript, shown_bind_of_ok _ read, shown_answerAll carriedOn]
  rfl

/-- A dialogue that is carried on to its end shows the turns of its lines, and one prompt more than
there are lines. Without a line that is passed over, it is carried on to its end as well, and shows
the same but for the turn of that line. -/
theorem lines_passed_over_are_local
    (completes : (transcript levelName input).result = .ok ()) :
    shown (transcript levelName input) = turns .initial (Text.lines input) ++ [prompt] ∧
      (shown (transcript levelName input)).count prompt = (Text.lines input).length + 1 ∧
      ∀ (before after : List String) (line : String),
        Text.lines input = before ++ line :: after →
        PassedOver (afterLines .initial before) line →
        (∃ shorter : String, Text.lines shorter = before ++ after) ∧
        ∀ shorter : String, Text.lines shorter = before ++ after →
          (transcript levelName shorter).result = .ok () ∧
          shown (transcript levelName input) =
            turns .initial before ++
              (prompt :: report (afterLines .initial before) line) ++
              turns (afterLines .initial before) after ++ [prompt] ∧
          shown (transcript levelName shorter) =
            turns .initial before ++ turns (afterLines .initial before) after ++ [prompt] := by
  have shownHere := shown_transcript completes
  refine ⟨shownHere, ?_, fun before after line split passed => ⟨?_, fun shorter without => ?_⟩⟩
  · rw [shownHere, List.count_append, count_turns, List.count_singleton_self]
  · have areLines : ∀ other ∈ before ++ after, Text.IsLine other := by
      intro other inside
      apply Text.isLine_of_mem_lines
      rw [split]
      rcases List.mem_append.1 inside with inBefore | inAfter
      · exact List.mem_append_left _ inBefore
      · exact List.mem_append_right _ (List.mem_cons_of_mem line inAfter)
    exact ⟨Text.unlines (before ++ after), Text.lines_unlines areLines⟩
  · have completes' : (transcript levelName shorter).result = .ok () := by
      obtain ⟨level, chosen, carriedOn⟩ := transcript_eq_ok_iff.1 completes
      rw [split] at carriedOn
      apply transcript_eq_ok_iff.2
      rw [without]
      exact ⟨level, chosen, answerAll_without passed carriedOn⟩
    refine ⟨completes', ?_, ?_⟩
    · rw [shownHere, split, turns_passedOver passed]
    · rw [shown_transcript completes', without, turns_append]

/-- Of three lines the second is a formula without its last operand. -/
theorem shown_unfinished :
    (transcript none "x = 2\n1 +\nx\n").result = .ok () ∧
      shown (transcript none "x = 2\n1 +\nx\n") =
        ["> ", "=> x = 2\n"] ++
          ["> ", "1 +\n", "^\n", "'+' or '-' expected, found NUMBER\n"] ++
          ["> ", "=> ans = 2\n"] ++ ["> "] ∧
      shown (transcript none "x = 2\nx\n") =
        ["> ", "=> x = 2\n"] ++ ["> ", "=> ans = 2\n"] ++ ["> "] := by
  have completes : (transcript none "x = 2\n1 +\nx\n").result = .ok () := by decide +kernel
  have failed : ((afterLines .initial ["x = 2"]).run "1 +").1.result =
      .error (.error ⟨.parsing (.signExpected .number), ⟨0, 1⟩, "1 +"⟩) := by decide +kernel
  have split : Text.lines "x = 2\n1 +\nx\n" = ["x = 2"] ++ "1 +" :: ["x"] := by decide +kernel
  have without : Text.lines "x = 2\nx\n" = ["x = 2"] ++ ["x"] := by decide +kernel
  have first : turns .initial ["x = 2"] = ["> ", "=> x = 2\n"] := by decide +kernel
  have second : prompt :: report (afterLines .initial ["x = 2"]) "1 +" =
      ["> ", "1 +\n", "^\n", "'+' or '-' expected, found NUMBER\n"] := by decide +kernel
  have third : turns (afterLines .initial ["x = 2"]) ["x"] = ["> ", "=> ans = 2\n"] := by
    decide +kernel
  obtain ⟨_, _, locally⟩ := lines_passed_over_are_local completes
  obtain ⟨_, shortened⟩ := locally ["x = 2"] ["x"] "1 +" split (.inr ⟨_, failed⟩)
  obtain ⟨_, whole, shorter⟩ := shortened "x = 2\nx\n" without
  rw [first, second, third] at whole
  rw [first, third] at shorter
  exact ⟨completes, whole, shorter⟩

end Transcript

end Reckoner.Dialogue
