import Reckoner.Proofs.Calculator.History
import Reckoner.Proofs.Evaluation.Reads

/-!
# Lines that may change places

What a line comes to depends on the names that it reads, and it changes the value of its target at
most. So two lines with different targets, neither of which reads the target of the other, come to
the same in either order and leave the same pool. They may change places wherever they meet: the
lines after them come to the same as well.
-/

set_option autoImplicit false

namespace Reckoner

theorem Traced.bind_congr {Note Error Value Value' : Type} {first : Traced Note Error Value}
    {next next' : Value → Traced Note Error Value'}
    (h : ∀ value : Value, first.result = .ok value → next value = next' value) :
    first >>= next = first >>= next' := by
  cases result : first.result with
  | error e => rw [bind_of_error _ result, bind_of_error _ result]
  | ok value => rw [bind_of_ok _ result, bind_of_ok _ result, h value result]

/-- The same names with the same values, which may have been bound in another order. -/
def Pool.Same (p q : Pool) : Prop := ∀ name : String, p.AgreeAt q name

theorem Pool.same_insert {p q : Pool} (h : p.Same q) (b : Binding) :
    (p.insert b).Same (q.insert b) := by
  intro name
  rw [AgreeAt, get?_insert, get?_insert, h name]

theorem Pool.same_insert_comm (p : Pool) {a b : Binding} (h : a.name ≠ b.name) :
    ((p.insert a).insert b).Same ((p.insert b).insert a) := by
  intro name
  simp only [AgreeAt, get?_insert]
  by_cases first : a.name = name
  · have second : b.name ≠ name := fun same => h (first.trans same.symm)
    rw [if_neg second, if_pos first, if_pos first]
  · rw [if_neg first, if_neg first]

def Targets (text name : String) : Prop :=
  ∃ tree : Expr, (Expr.ofText text).result = .ok tree ∧ tree.Targets name

def Reads (text name : String) : Prop :=
  ∃ tree : Expr, (Expr.ofText text).result = .ok tree ∧ name ∈ tree.reads

/-- Two lines with different targets, neither of which reads the target of the other. -/
structure Independent (first second : String) : Prop where
  targets : ∀ name : String, Targets first name → ¬ Targets second name
  first_unread : ∀ name : String, Targets first name → ¬ Reads second name
  second_unread : ∀ name : String, Targets second name → ¬ Reads first name

section Read

variable {text name : String} {tree : Expr}

theorem targets_iff (read : (Expr.ofText text).result = .ok tree) :
    Targets text name ↔ tree.Targets name := by
  simp [Targets, read]

theorem reads_iff (read : (Expr.ofText text).result = .ok tree) :
    Reads text name ↔ name ∈ tree.reads := by
  simp [Reads, read]

end Read

namespace Calculator

variable {c d : Calculator} {first second text : String}

/-- A line comes to the same, its log included, with any two pools that agree on what it reads. -/
theorem outcome_congr (h : ∀ name : String, Reads text name → c.pool.AgreeAt d.pool name) :
    c.outcome text = d.outcome text := by
  apply Traced.bind_congr
  intro formula read
  have parsed : (Expr.ofText text).result = .ok formula.tree := by
    rw [Traced.result_mapError, mapError_eq_ok_iff, Formula.ofText, Traced.result_bind,
      bind_eq_ok_iff] at read
    obtain ⟨tree, parsed, same⟩ := read
    cases same
    exact parsed
  have agree : ∀ name ∈ formula.tree.reads, c.pool.AgreeAt d.pool name := by
    intro name inside
    exact h name ⟨formula.tree, parsed, inside⟩
  have calculated : formula.calculate c.pool = formula.calculate d.pool := by
    rw [Formula.calculate, Formula.calculate, Expr.evaluate_congr agree]
  rw [calculated]

theorem targets_of_outcome {binding : Binding} (h : (c.outcome text).result = .ok binding) :
    Targets text binding.name := by
  obtain ⟨tree, _, read, targets, _⟩ := assigns_iff.2 h
  exact ⟨tree, read, targets⟩

theorem agreeAt_run {name : String} (h : ¬ Targets text name) :
    (c.run text).2.pool.AgreeAt c.pool name := by
  apply get?_run_of_not_assigns
  rintro value ⟨tree, _, read, targets, _⟩
  exact h ⟨tree, read, targets⟩

/-- What a line comes to is not changed by running another one first, whose target it does not
read. -/
theorem outcome_run (h : ∀ name : String, Targets first name → ¬ Reads second name) :
    (c.run first).2.outcome second = c.outcome second := by
  apply outcome_congr
  intro name reads
  exact agreeAt_run fun targets => h name targets reads

theorem same_store_comm {a b : Except (Failure FormulaError) Binding}
    (h : ∀ x y : Binding, a = .ok x → b = .ok y → x.name ≠ y.name) :
    ((c.store a).store b).pool.Same ((c.store b).store a).pool := by
  cases a with
  | error failure => exact fun name => rfl
  | ok x =>
    cases b with
    | error failure => exact fun name => rfl
    | ok y => exact c.pool.same_insert_comm (h x y rfl rfl)

theorem same_run_comm (c : Calculator) (h : Independent first second) :
    ((c.run first).2.run second).2.pool.Same ((c.run second).2.run first).2.pool := by
  rw [snd_run (c.run first).2, snd_run (c.run second).2, outcome_run h.first_unread,
    outcome_run h.second_unread, snd_run, snd_run]
  apply same_store_comm
  intro x y bound bound' same
  have targets := targets_of_outcome bound
  rw [same] at targets
  exact h.targets y.name targets (targets_of_outcome bound')

/-- Independent lines come to the same in either order, each to the binding or the error that it
comes to alone, and leave the same pool. -/
theorem run_comm_of_independent (c : Calculator) (h : Independent first second) :
    ((c.run first).2.run second).1 = (c.run second).1 ∧
      ((c.run second).2.run first).1 = (c.run first).1 ∧
      ((c.run first).2.run second).2.pool.Same ((c.run second).2.run first).2.pool := by
  refine ⟨?_, ?_, same_run_comm c h⟩
  · exact outcome_run h.first_unread
  · exact outcome_run h.second_unread

/-- The expression of `x = 1` or of `y = ans`: a name and a value of the given token. -/
def assigning (name : String) (value : Token) : Expr :=
  .node ⟨.operator .equal, "=", ⟨2, 3⟩, none⟩ (.leaf ⟨.identifier, name, ⟨0, 1⟩, none⟩)
    (.leaf value)

theorem targets_assigning {name other : String} {value : Token}
    (h : (assigning name value).Targets other) : other = name :=
  h.unique (.assignment rfl rfl)

theorem independent_one_answer : Independent "x = 1" "y = ans" := by
  have one : (Expr.ofText "x = 1").result =
      .ok (assigning "x" ⟨.number, "1", ⟨4, 5⟩, some 1.0⟩) := by decide +kernel
  have answer : (Expr.ofText "y = ans").result =
      .ok (assigning "y" ⟨.identifier, "ans", ⟨4, 7⟩, none⟩) := by decide +kernel
  refine ⟨fun name first second => ?_, fun name first reads => ?_, fun name second reads => ?_⟩
  · have here := targets_assigning ((targets_iff one).1 first)
    have there := targets_assigning ((targets_iff answer).1 second)
    rw [here] at there
    exact absurd there (by decide)
  · obtain rfl := targets_assigning ((targets_iff one).1 first)
    exact absurd ((reads_iff answer).1 reads) (by decide)
  · exact absurd ((reads_iff one).1 reads) List.not_mem_nil

/-- The second line reads the last answer, which the first line leaves alone. -/
theorem run_comm_one_answer :
    Independent "x = 1" "y = ans" ∧
      ((initial.run "x = 1").2.run "y = ans").1 = (initial.run "y = ans").1 ∧
      ((initial.run "y = ans").2.run "x = 1").1 = (initial.run "x = 1").1 ∧
      ((initial.run "x = 1").2.run "y = ans").2.pool.Same
        ((initial.run "y = ans").2.run "x = 1").2.pool :=
  ⟨independent_one_answer, run_comm_of_independent initial independent_one_answer⟩

theorem run_same (text : String) (h : c.pool.Same d.pool) :
    (c.run text).1 = (d.run text).1 ∧ (c.run text).2.pool.Same (d.run text).2.pool := by
  have outcome : c.outcome text = d.outcome text := outcome_congr fun name _ => h name
  refine ⟨outcome, ?_⟩
  rw [snd_run, snd_run, outcome]
  cases (d.outcome text).result with
  | error failure => exact h
  | ok binding => exact Pool.same_insert h binding

theorem after_same (lines : List String) (h : c.pool.Same d.pool) :
    (c.after lines).pool.Same (d.after lines).pool := by
  induction lines generalizing c d with
  | nil => exact h
  | cons text lines ih => exact ih (run_same text h).2

/-- Independent lines may change places anywhere among other lines. -/
theorem after_swap (c : Calculator) (earlier later : List String)
    (h : Independent first second) :
    (c.after (earlier ++ first :: second :: later)).pool.Same
      (c.after (earlier ++ second :: first :: later)).pool := by
  rw [after_append, after_append]
  exact after_same later (same_run_comm (c.after earlier) h)

end Calculator

end Reckoner
