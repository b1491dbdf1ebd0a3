import Reckoner.Proofs.Calculator.Errors

/-!
# What a calculator remembers

Every line that succeeds gives its value to its target: the name on the left of an assignment, and
`ans` for any other formula. After some lines a name has the value of the last line that assigned to
it. Only identifiers are assigned to, and an identifier alone on a line asks for its value.
-/

set_option autoImplicit false

namespace Reckoner

/-- The name that an expression gives its value to. -/
inductive Expr.Targets : Expr → String → Prop where
  | assignment {root name : Token} {right : Expr} : root.kind = .operator .equal →
    name.kind = .identifier → Targets (.node root (.leaf name) right) name.lexeme
  | formula {root : Token} {left right : Expr} : root.kind ≠ .operator .equal →
    Targets (.node root left right) Pool.answer

theorem Token.isIdentifier_answer : IsIdentifier Pool.answer :=
  ⟨'a', ['n', 's'], rfl, rfl, by simp [Char.isAlphanum, Char.isAlpha, Char.isLower]⟩

namespace Expr

theorem Targets.unique {tree : Expr} {name other : String} (h : tree.Targets name)
    (h' : tree.Targets other) : name = other := by
  cases h with
  | assignment assigns _ =>
    cases h' with
    | assignment _ _ => rfl
    | formula plain => exact absurd assigns plain
  | formula plain =>
    cases h' with
    | assignment assigns _ => exact absurd assigns plain
    | formula _ => rfl

theorem targets_of_evaluate {pool : Pool} {tree : Expr} {binding : Binding}
    (h : (evaluate pool tree).result = .ok binding) : tree.Targets binding.name := by
  cases tree with
  | nil => cases h
  | node root left right =>
    by_cases assigns : root.kind = .operator .equal
    · rw [evaluate_of_equal assigns, bind_eq_ok_iff] at h
      obtain ⟨value, _, named⟩ := h
      obtain ⟨name, alone, rfl⟩ := map_eq_ok_iff.1 named
      obtain ⟨token, kind, rfl, rfl⟩ := target_eq_ok_iff.1 alone
      exact .assignment assigns kind
    · cases plain : isPlain root.kind with
      | true =>
        rw [evaluate_of_isPlain plain, map_eq_ok_iff] at h
        obtain ⟨value, _, rfl⟩ := h
        exact .formula assigns
      | false =>
        rw [evaluate_of_not_isPlain assigns plain] at h
        cases h

theorem Targets.isIdentifier {tree : Expr} {name : String} (h : tree.Targets name)
    (proper : ∀ token ∈ tree.values .inorder, token.IsProper) : Token.IsIdentifier name := by
  cases h with
  | @assignment _ token _ _ named =>
    have onLeft := proper token (by simp [Tree.leaf, Tree.values, Order.arrange])
    exact onLeft.isIdentifier named
  | formula _ => exact Token.isIdentifier_answer

end Expr

namespace Calculator

/-- The line succeeds with the value, and the name is the target of its formula. -/
def Assigns (c : Calculator) (text name : String) (value : Float) : Prop :=
  ∃ (tree : Expr) (binding : Binding), (Expr.ofText text).result = .ok tree ∧
    tree.Targets name ∧ (c.run text).1.result = .ok binding ∧ binding.value = value

def after (c : Calculator) (lines : List String) : Calculator :=
  lines.foldl (fun c text => (c.run text).2) c

/-- No line, run after the earlier ones, assigns to the name. -/
def Untouched (c : Calculator) (lines : List String) (name : String) : Prop :=
  ∀ (earlier later : List String) (text : String), lines = earlier ++ text :: later →
    ∀ value : Float, ¬ (c.after earlier).Assigns text name value

/-- The value is that of the last line that assigns to the name. -/
def LastAssigns (c : Calculator) (lines : List String) (name : String) (value : Float) : Prop :=
  ∃ (earlier later : List String) (text : String), lines = earlier ++ text :: later ∧
    (c.after earlier).Assigns text name value ∧
    ((c.after earlier).run text).2.Untouched later name

/-- The line that holds nothing but the name and what is written around it. -/
def asked (before : List Char) (name : String) (after : List Char) : String :=
  String.ofList (before ++ name.toList ++ after)

section Line

variable {c : Calculator} {text name : String} {value : Float}

theorem assigns_iff :
    c.Assigns text name value ↔ (c.run text).1.result = .ok ⟨name, value⟩ := by
  constructor
  · rintro ⟨tree, binding, read, targets, result, rfl⟩
    obtain ⟨tokens, other, scanned, parsed, evaluated⟩ := outcome_eq_ok_iff.1 result
    -- The tree that was evaluated is the one that the text is read as, and it has one target.
    have same : other = tree := by
      have readOther := Expr.ofText_eq_ok_iff.2 ⟨tokens, scanned, parsed⟩
      exact Except.ok.inj (readOther.symm.trans read)
    subst same
    rw [result, targets.unique (Expr.targets_of_evaluate evaluated)]
  · intro result
    obtain ⟨tokens, tree, scanned, parsed, evaluated⟩ := outcome_eq_ok_iff.1 result
    exact ⟨tree, ⟨name, value⟩, Expr.ofText_eq_ok_iff.2 ⟨tokens, scanned, parsed⟩,
      Expr.targets_of_evaluate evaluated, result, rfl⟩

theorem Assigns.isIdentifier (h : c.Assigns text name value) : Token.IsIdentifier name := by
  obtain ⟨tree, _, read, targets, _, _⟩ := h
  obtain ⟨tokens, scanned, parsed⟩ := Expr.ofText_eq_ok_iff.1 read
  apply targets.isIdentifier
  exact Expr.forall_values_of_parse parsed (Token.isProper_ofText scanned)
    fun _ _ value _ _ => Token.isProper_ofNumber value _

theorem get?_run_of_assigns (h : c.Assigns text name value) :
    (c.run text).2.pool.get? name = some value := by
  rw [snd_run, ← fst_run, assigns_iff.1 h]
  exact c.pool.get?_insert_self ⟨name, value⟩

theorem get?_run_of_not_assigns (h : ∀ value : Float, ¬ c.Assigns text name value) :
    (c.run text).2.pool.get? name = c.pool.get? name := by
  rw [snd_run, ← fst_run]
  cases result : (c.run text).1.result with
  | error failure => rfl
  | ok binding =>
    have other : binding.name ≠ name := by
      rintro rfl
      exact h binding.value (assigns_iff.2 result)
    exact c.pool.get?_insert_of_ne other

end Line

section Lines

variable {c : Calculator} {lines : List String} {text name : String} {value : Float}

theorem after_append (c : Calculator) (earlier later : List String) :
    c.after (earlier ++ later) = (c.after earlier).after later :=
  List.foldl_append

theorem untouched_nil : c.Untouched [] name := by
  simp [Untouched]

theorem untouched_cons :
    c.Untouched (text :: lines) name ↔
      (∀ value : Float, ¬ c.Assigns text name value) ∧ (c.run text).2.Untouched lines name := by
  constructor
  · intro all
    refine ⟨all [] lines text rfl, ?_⟩
    rintro earlier later line rfl
    exact all (text :: earlier) later line rfl
  · rintro ⟨here, rest⟩ earlier later line split
    cases earlier with
    | nil =>
      cases split
      exact here
    | cons first earlier =>
      cases split
      exact rest earlier later line rfl

theorem get?_after_of_untouched (h : c.Untouched lines name) :
    (c.after lines).pool.get? name = c.pool.get? name := by
  induction lines generalizing c with
  | nil => rfl
  | cons text lines ih =>
    obtain ⟨here, rest⟩ := untouched_cons.1 h
    exact (ih rest).trans (get?_run_of_not_assigns here)

theorem get?_after_of_lastAssigns (h : c.LastAssigns lines name value) :
    (c.after lines).pool.get? name = some value := by
  obtain ⟨earlier, later, text, rfl, assigns, untouched⟩ := h
  rw [after_append]
  exact (get?_after_of_untouched untouched).trans (get?_run_of_assigns assigns)

theorem Untouched.not_lastAssigns (h : c.Untouched lines name) :
    ¬ c.LastAssigns lines name value := by
  rintro ⟨earlier, later, text, split, assigns, _⟩
  exact h earlier later text split value assigns

theorem untouched_or_lastAssigns (c : Calculator) (lines : List String) (name : String) :
    c.Untouched lines name ∨ ∃ value : Float, c.LastAssigns lines name value := by
  induction lines generalizing c with
  | nil => exact .inl untouched_nil
  | cons text lines ih =>
    -- The first line counts only if none of the others assigns to the name.
    rcases ih (c.run text).2 with untouched | ⟨value, earlier, later, line, rfl, assigns, last⟩
    · by_cases here : ∃ value : Float, c.Assigns text name value
      · obtain ⟨value, assigns⟩ := here
        exact .inr ⟨value, [], lines, text, rfl, assigns, untouched⟩
      · exact .inl (untouched_cons.2 ⟨not_exists.1 here, untouched⟩)
    · exact .inr ⟨value, text :: earlier, later, line, rfl, assigns, last⟩

theorem LastAssigns.isIdentifier (h : c.LastAssigns lines name value) :
    Token.IsIdentifier name := by
  obtain ⟨_, _, _, _, assigns, _⟩ := h
  exact assigns.isIdentifier

/-- After several lines a name has the value that was assigned to it last, or the one it had at
first. -/
theorem get?_after_eq_some_iff :
    (c.after lines).pool.get? name = some value ↔
      c.LastAssigns lines name value ∨
        (c.Untouched lines name ∧ c.pool.get? name = some value) := by
  constructor
  · intro found
    rcases c.untouched_or_lastAssigns lines name with untouched | ⟨other, last⟩
    · exact .inr ⟨untouched, get?_after_of_untouched untouched ▸ found⟩
    · rw [get?_after_of_lastAssigns last, Option.some.injEq] at found
      exact .inl (found ▸ last)
  · rintro (last | ⟨untouched, first⟩)
    · exact get?_after_of_lastAssigns last
    · exact (get?_after_of_untouched untouched).trans first

theorem get?_after_eq_none_iff :
    (c.after lines).pool.get? name = none ↔
      c.Untouched lines name ∧ c.pool.get? name = none := by
  rcases c.untouched_or_lastAssigns lines name with untouched | ⟨value, last⟩
  · simp [get?_after_of_untouched untouched, untouched]
  · have touched : ¬ c.Untouched lines name := fun untouched => untouched.not_lastAssigns last
    simp [get?_after_of_lastAssigns last, touched]

end Lines

section Recall

variable {name : String} {before after : List Char}

theorem ofText_asked (h : Token.IsIdentifier name)
    (blank : ∀ c ∈ before ++ after, Token.isSpacing c = true) :
    Token.ofText (asked before name after) = .ok [Token.nameAt before.length name.toList] := by
  have blankBefore : ∀ c ∈ before, Token.isSpacing c = true := by
    intro c inside
    exact blank c (List.mem_append_left after inside)
  have blankAfter : ∀ c ∈ after, Token.isSpacing c = true := by
    intro c inside
    exact blank c (List.mem_append_right before inside)
  rw [Token.ofText_eq_ok_iff, asked, String.toList_ofList, List.append_assoc,
    Token.scan_spacing_append blankBefore, Token.scan_identifier h blankAfter, Nat.zero_add]

theorem result_run_asked (c : Calculator) (h : Token.IsIdentifier name)
    (blank : ∀ c ∈ before ++ after, Token.isSpacing c = true) :
    (c.run (asked before name after)).1.result =
      match c.pool.get? name with
      | some value => .ok ⟨Pool.answer, value⟩
      | none =>
        .error (.error
          { cause := .evaluating (.undefinedVariable name)
            span := Token.spanAt before.length name.length
            text := asked before name after }) := by
  rw [fst_run, outcome_of_parse (ofText_asked h blank) (Expr.parse_identifier rfl),
    Expr.evaluate_leaf rfl]
  have lexeme : (Token.nameAt before.length name.toList).lexeme = name := by
    simp [Token.nameAt]
  rw [lexeme]
  cases c.pool.get? name with
  | some value => rfl
  | none =>
    simp [Except.mapError, Expr.failAt, FormulaError.evaluating, Token.nameAt,
      ← String.length_toList]

end Recall

theorem get?_initial (name : String) :
    initial.pool.get? name = if name = Pool.answer then some 0.0 else none := by
  by_cases here : name = Pool.answer
  · simp [initial, Pool.initial, Pool.get?, here]
  · simp [initial, Pool.initial, Pool.get?, here, Ne.symm here]

theorem isIdentifier_of_get? {lines : List String} {name : String} {value : Float}
    (h : (initial.after lines).pool.get? name = some value) : Token.IsIdentifier name := by
  rcases get?_after_eq_some_iff.1 h with last | ⟨_, first⟩
  · exact last.isIdentifier
  · by_cases here : name = Pool.answer
    · exact here ▸ Token.isIdentifier_answer
    · simp [get?_initial, here] at first

structure Remembers (lines : List String) (c : Calculator) : Prop where
  get?_eq_some_iff : ∀ (name : String) (value : Float), c.pool.get? name = some value ↔
    initial.LastAssigns lines name value ∨
      (initial.Untouched lines name ∧ name = Pool.answer ∧ value = 0.0)
  get?_eq_none_iff : ∀ name : String, c.pool.get? name = none ↔
    initial.Untouched lines name ∧ name ≠ Pool.answer
  isIdentifier_of_contains : ∀ name : String, c.pool.contains name = true →
    Token.IsIdentifier name
  unchanged_of_failure : ∀ (text : String) (failure : Failure FormulaError),
    (c.run text).1.result = .error failure → (c.run text).2 = c
  recalls_iff : ∀ (before after : List Char) (name : String), Token.IsIdentifier name →
    (∀ blank ∈ before ++ after, Token.isSpacing blank = true) → ∀ value : Float,
    (c.run (asked before name after)).1.result = .ok ⟨Pool.answer, value⟩ ↔
      c.pool.get? name = some value
  misses_iff : ∀ (before after : List Char) (name : String), Token.IsIdentifier name →
    (∀ blank ∈ before ++ after, Token.isSpacing blank = true) →
    ((∃ e : FormulaError, e.kind = .undefinedVariable ∧
        (c.run (asked before name after)).1.result = .error (.error e)) ↔
      c.pool.get? name = none)

/-- Whatever lines a new calculator has run, each name has the value of the last line that assigned
to it, and only such names have values, besides `ans`. -/
theorem remembers_after (lines : List String) : Remembers lines (initial.after lines) where
  get?_eq_some_iff := by
    intro name value
    rw [get?_after_eq_some_iff, get?_initial]
    by_cases here : name = Pool.answer
    · simp [here, eq_comm]
    · simp [here]
  get?_eq_none_iff := by
    intro name
    rw [get?_after_eq_none_iff, get?_initial]
    by_cases here : name = Pool.answer
    · simp [here]
    · simp [here]
  isIdentifier_of_contains := by
    intro name bound
    obtain ⟨value, found⟩ := Option.isSome_iff_exists.1 bound
    exact isIdentifier_of_get? found
  unchanged_of_failure := by
    intro text failure failed
    rw [snd_run, ← fst_run, failed, store_error]
  recalls_iff := by
    intro before after name named blank value
    rw [result_run_asked _ named blank]
    cases (initial.after lines).pool.get? name with
    | some stored => simp
    | none => simp
  misses_iff := by
    intro before after name named blank
    rw [result_run_asked _ named blank]
    cases (initial.after lines).pool.get? name with
    | some stored => simp
    | none => simp [FormulaError.kind, Cause.kind, EvalCause.kind]

end Calculator

end Reckoner
