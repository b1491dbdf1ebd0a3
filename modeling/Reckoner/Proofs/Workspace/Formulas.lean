import Reckoner.Proofs.Calculator.Outcome
import Reckoner.Proofs.Evaluation.InPlace
import Reckoner.Workspace

/-!
# The formulas of a workspace

Reading a text adds a tree to the store, and calculating adds a copy of one and rewrites the copy: no
step touches a node that has been there. So, whatever steps have been taken, every formula of a
workspace holds the tree of its own text, or none if that text cannot be read; and calculating gives
what a new formula with the same text would give in the pool as it stands.
-/

set_option autoImplicit false

namespace Reckoner

def Expr.IsReadFrom (tree : Expr) (text : String) : Prop :=
  ∃ tokens : List Token, Token.ofText text = .ok tokens ∧ Expr.parse tokens = .ok tree

theorem Expr.IsReadFrom.unique {text : String} {tree other : Expr} (h : tree.IsReadFrom text)
    (h' : other.IsReadFrom text) : tree = other :=
  Except.ok.inj ((ofText_eq_ok_iff.2 h).symm.trans (ofText_eq_ok_iff.2 h'))

theorem Expr.exists_isReadFrom_or (text : String) :
    (∃ tree : Expr, tree.IsReadFrom text) ∨ ∀ tree : Expr, ¬ tree.IsReadFrom text := by
  rw [← not_exists]
  exact Classical.em _

theorem Expr.exists_error_of_unread {text : String} (h : ∀ tree : Expr, ¬ tree.IsReadFrom text) :
    ∃ e : FormulaError, e.text = text ∧ (ofText text).result = .error e := by
  rw [result_ofText]
  cases scanned : Token.ofText text with
  | error e =>
    obtain ⟨wrong, _, rfl⟩ := Token.ofText_eq_error_iff.1 scanned
    exact ⟨_, rfl, rfl⟩
  | ok tokens =>
    cases parsed : Expr.parse tokens with
    | error wrong => exact ⟨.parsing text wrong, rfl, by simp [Except.bind, parsed, Except.mapError]⟩
    | ok tree => exact absurd ⟨tokens, scanned, parsed⟩ (h tree)

namespace Formula

/-- The formula holds what its text is read as, and nothing if that text cannot be read. -/
structure UpToDate (f : Formula) : Prop where
  tree_eq : ∀ tree : Expr, tree.IsReadFrom f.text → f.tree = tree
  tree_eq_nil : (∀ tree : Expr, ¬ tree.IsReadFrom f.text) → f.tree = .nil

theorem upToDate_of_read {text : String} {tree : Expr} (h : tree.IsReadFrom text) :
    UpToDate ⟨text, tree⟩ where
  tree_eq _ again := h.unique again
  tree_eq_nil unread := absurd h (unread tree)

theorem upToDate_of_unread {text : String} (h : ∀ tree : Expr, ¬ tree.IsReadFrom text) :
    UpToDate ⟨text, .nil⟩ where
  tree_eq tree read := absurd read (h tree)
  tree_eq_nil _ := rfl

theorem upToDate_empty : empty.UpToDate := by
  apply upToDate_of_unread
  intro tree read
  have fails : (Expr.ofText "").result.toOption = none := by decide +kernel
  rw [Expr.ofText_eq_ok_iff.2 read] at fails
  cases fails

/-- The text alone determines a formula. -/
theorem UpToDate.eq_of_text_eq {f g : Formula} (hf : f.UpToDate) (hg : g.UpToDate)
    (same : f.text = g.text) : f = g := by
  have trees : f.tree = g.tree := by
    obtain ⟨tree, read⟩ | unread := Expr.exists_isReadFrom_or f.text
    · rw [hf.tree_eq tree read, hg.tree_eq tree (same ▸ read)]
    · rw [hf.tree_eq_nil unread, hg.tree_eq_nil (same ▸ unread)]
  cases f
  cases g
  cases same
  cases trees
  rfl

end Formula

namespace StoredFormula

variable {f : StoredFormula} {store next : Forest Token} {text : String}

def IsIn (f : StoredFormula) (store : Forest Token) : Prop := ∀ n ∈ f.root?, store.has n = true

theorem formula_of_grows (grows : store.Grows next) (before : store.IsForest) (after : next.IsForest)
    (known : f.IsIn store) : f.formula next = f.formula store := by
  rw [formula, formula, grows.treeIn_eq before after known]

theorem formula_of_rootless (text : String) (store : Forest Token) :
    formula ⟨text, none⟩ store = ⟨text, .nil⟩ := by
  rw [formula, Forest.treeIn_none]

theorem exists_ofText_of_read (forest : store.IsForest) {tree : Expr} (h : tree.IsReadFrom text) :
    ∃ (f : StoredFormula) (next : Forest Token), ofText text store = .ok (f, next) ∧
      store.Grows next ∧ next.IsForest ∧ f.IsIn next ∧ f.formula next = ⟨text, tree⟩ := by
  have planted := forest.planted_plant tree
  refine ⟨⟨text, (store.plant tree).1⟩, (store.plant tree).2, ?_, planted.grows, planted.forest,
    planted.has, ?_⟩
  · rw [ofText, Expr.ofText_eq_ok_iff.2 h]
    rfl
  · rw [formula, planted.forest.treeIn_eq planted.carries]

theorem exists_ofText_of_unread (store : Forest Token) (h : ∀ tree : Expr, ¬ tree.IsReadFrom text) :
    ∃ e : FormulaError, e.text = text ∧ ofText text store = .error e := by
  obtain ⟨e, stamped, refused⟩ := Expr.exists_error_of_unread h
  refine ⟨e, stamped, ?_⟩
  rw [ofText, refused]
  rfl

/-- What calculating comes to; every node that was in the store is as it was. -/
theorem calculate_eq (f : StoredFormula) (forest : store.IsForest) (pool : Pool) :
    (f.calculate pool store).1 = ((f.formula store).calculate pool).result ∧
      store.Grows (f.calculate pool store).2 ∧ (f.calculate pool store).2.IsForest := by
  obtain ⟨outcome, grows, after⟩ := (forest.planted_copy f.root?).evaluate forest pool
  exact ⟨congrArg (Except.mapError _) outcome, grows, after⟩

end StoredFormula

/-- The slot whose formula a step replaces. -/
def Step.slot? : Step → Option String
  | .new slot | .fromText slot _ | .reread slot _ => some slot
  | .run _ | .get _ | .contains _ | .insert _ | .calculate _ => none

namespace Workspace

def after (w : Workspace) (steps : List Step) : Workspace :=
  steps.foldl (fun w step => (w.step step).2) w

def formula (w : Workspace) (slot : String) : Formula := (w.formula? slot).getD .empty

/-- The roots of the formulas are in the store, and the formulas hold what their texts are read as. -/
structure Sound (w : Workspace) : Prop where
  forest : w.store.IsForest
  known : ∀ (slot : String) (f : StoredFormula), w.stored? slot = some f → f.IsIn w.store
  upToDate : ∀ (slot : String) (f : Formula), w.formula? slot = some f → f.UpToDate

variable {w w' : Workspace} {s : Step}

theorem stored?_put (w : Workspace) (slot other : String) (f : StoredFormula) :
    (w.put slot f).stored? other = if other = slot then some f else w.stored? other := by
  unfold put stored?
  by_cases here : other = slot
  · simp [here]
  · rw [if_neg here, List.lookup_cons]
    have apart : (other == slot) = false := by simpa using here
    simp only [apart]
    induction w.slots with
    | nil => rfl
    | cons entry rest ih =>
      obtain ⟨name, held⟩ := entry
      by_cases dropped : name = slot
      · simp [dropped, List.lookup_cons, ih, apart]
      · simp [dropped, List.lookup_cons, ih]

/-- What a step does to the store and the slots: the store grows, and if the step is about a slot then
that slot may get a formula which holds what its text is read as. -/
structure Leads (w : Workspace) (s : Step) (w' : Workspace) : Prop where
  grows : w.store.Grows w'.store
  forest : w'.store.IsForest
  slots : ∀ slot : String, w'.stored? slot = w.stored? slot ∨
    s.slot? = some slot ∧ ∃ f : StoredFormula, w'.stored? slot = some f ∧ f.IsIn w'.store ∧
      (f.formula w'.store).UpToDate

section Step

theorem leads_of_slots_eq (grows : w.store.Grows w'.store) (forest : w'.store.IsForest)
    (same : w'.slots = w.slots) : w.Leads s w' where
  grows := grows
  forest := forest
  slots slot := .inl (by rw [stored?, stored?, same])

theorem leads_put {slot : String} {f : StoredFormula} (about : s.slot? = some slot)
    (grows : w.store.Grows w'.store) (forest : w'.store.IsForest) (known : f.IsIn w'.store)
    (current : (f.formula w'.store).UpToDate) (same : w'.slots = (w.put slot f).slots) :
    w.Leads s w' where
  grows := grows
  forest := forest
  slots other := by
    have written : w'.stored? other = if other = slot then some f else w.stored? other := by
      rw [← stored?_put, stored?, same]
      rfl
    rw [written]
    by_cases here : other = slot
    · subst here
      exact .inr ⟨about, f, if_pos rfl, known, current⟩
    · exact .inl (if_neg here)

theorem slots_put_put (w : Workspace) (slot : String) (f g : StoredFormula) :
    ((w.put slot f).put slot g).slots = (w.put slot g).slots := by
  simp [put, List.filter_filter]

/-- Whatever the step, no node changes that has been in the store. -/
theorem leads_step (h : w.Sound) (s : Step) : w.Leads s (w.step s).2 := by
  cases s with
  | get | contains | insert => exact leads_of_slots_eq (.refl _) h.forest rfl
  | new slot =>
    refine leads_put rfl (.refl _) h.forest (by rintro n ⟨⟩) ?_ rfl
    rw [StoredFormula.empty, StoredFormula.formula_of_rootless]
    exact Formula.upToDate_empty
  | calculate slot =>
    obtain ⟨-, grows, forest⟩ :=
      ((w.stored? slot).getD .empty).calculate_eq h.forest w.calculator.pool
    exact leads_of_slots_eq grows forest rfl
  | run text =>
    obtain ⟨tree, read⟩ | unread := Expr.exists_isReadFrom_or text
    · obtain ⟨f, next, planted, grows, forest, -⟩ :=
        StoredFormula.exists_ofText_of_read h.forest read
      obtain ⟨-, later, forest⟩ := f.calculate_eq forest w.calculator.pool
      rw [step, planted]
      exact leads_of_slots_eq (grows.trans later) forest rfl
    · obtain ⟨e, -, refused⟩ := StoredFormula.exists_ofText_of_unread w.store unread
      rw [step, refused]
      exact leads_of_slots_eq (.refl _) h.forest rfl
  | fromText slot text =>
    obtain ⟨tree, read⟩ | unread := Expr.exists_isReadFrom_or text
    · obtain ⟨f, next, planted, grows, forest, known, stands⟩ :=
        StoredFormula.exists_ofText_of_read h.forest read
      rw [step, planted]
      exact leads_put rfl grows forest known (stands ▸ Formula.upToDate_of_read read) rfl
    · obtain ⟨e, -, refused⟩ := StoredFormula.exists_ofText_of_unread w.store unread
      rw [step, refused]
      exact leads_of_slots_eq (.refl _) h.forest rfl
  | reread slot text =>
    obtain ⟨tree, read⟩ | unread := Expr.exists_isReadFrom_or text
    · obtain ⟨f, next, planted, grows, forest, known, stands⟩ :=
        StoredFormula.exists_ofText_of_read h.forest read
      rw [step, planted]
      exact leads_put rfl grows forest known (stands ▸ Formula.upToDate_of_read read)
        (w.slots_put_put slot _ f)
    · obtain ⟨e, -, refused⟩ := StoredFormula.exists_ofText_of_unread w.store unread
      rw [step, refused]
      refine leads_put rfl (.refl _) h.forest (by rintro n ⟨⟩) ?_ rfl
      rw [StoredFormula.formula_of_rootless]
      exact Formula.upToDate_of_unread unread

end Step

section Leads

variable (leads : w.Leads s w') (h : w.Sound)
include leads h

theorem Leads.formula?_eq {slot : String} (same : w'.stored? slot = w.stored? slot) :
    w'.formula? slot = w.formula? slot := by
  rw [formula?, formula?, same]
  cases found : w.stored? slot with
  | none => rfl
  | some f =>
    have known := h.known slot f found
    exact congrArg some (StoredFormula.formula_of_grows leads.grows h.forest leads.forest known)

theorem Leads.sound : w'.Sound where
  forest := leads.forest
  known slot f found := by
    obtain same | ⟨-, g, put, known, -⟩ := leads.slots slot
    · rw [same] at found
      exact fun n root => leads.grows.has n (h.known slot f found n root)
    · rw [put] at found
      cases found
      exact known
  upToDate slot f found := by
    obtain same | ⟨-, g, put, -, current⟩ := leads.slots slot
    · rw [leads.formula?_eq h same] at found
      exact h.upToDate slot f found
    · rw [formula?, put] at found
      cases found
      exact current

end Leads

theorem sound_ofPool (pool : Pool) : (ofPool pool).Sound :=
  ⟨.empty, by rintro slot f ⟨⟩, by rintro slot f ⟨⟩⟩

theorem Sound.formula?_step (h : w.Sound) {slot : String} (elsewhere : s.slot? ≠ some slot) :
    (w.step s).2.formula? slot = w.formula? slot := by
  have leads := leads_step h s
  obtain same | ⟨about, -⟩ := leads.slots slot
  · exact leads.formula?_eq h same
  · exact absurd about elsewhere

theorem Sound.after (h : w.Sound) (steps : List Step) : (w.after steps).Sound := by
  unfold Workspace.after
  induction steps generalizing w with
  | nil => exact h
  | cons s steps ih => exact ih ((leads_step h s).sound h)

/-- In a whole run no node changes that has been in the store. -/
theorem Sound.grows_after (h : w.Sound) (steps : List Step) :
    w.store.Grows (w.after steps).store := by
  unfold Workspace.after
  induction steps generalizing w with
  | nil => exact .refl w.store
  | cons s steps ih =>
    have leads := leads_step h s
    exact leads.grows.trans (ih (leads.sound h))

theorem Sound.formula?_after (h : w.Sound) {slot : String} {steps : List Step}
    (elsewhere : ∀ s ∈ steps, s.slot? ≠ some slot) :
    (w.after steps).formula? slot = w.formula? slot := by
  unfold Workspace.after
  induction steps generalizing w with
  | nil => rfl
  | cons s steps ih =>
    obtain ⟨here, later⟩ := List.forall_mem_cons.1 elsewhere
    exact (ih ((leads_step h s).sound h) later).trans (h.formula?_step here)

theorem Sound.upToDate_formula (h : w.Sound) (slot : String) : (w.formula slot).UpToDate := by
  unfold formula
  cases found : w.formula? slot with
  | none => exact Formula.upToDate_empty
  | some f => exact h.upToDate slot f found

/-- The outcome of the working copy is that of the formula. -/
theorem Sound.fst_step_calculate (h : w.Sound) (slot : String) :
    (w.step (.calculate slot)).1 =
      ((w.formula slot).calculate w.calculator.pool).result.map .bound := by
  have worked : ((w.stored? slot).getD .empty).formula w.store = w.formula slot := by
    rw [formula, formula?]
    cases w.stored? slot with
    | none => exact StoredFormula.formula_of_rootless "" w.store
    | some f => rfl
  obtain ⟨outcome, -⟩ := ((w.stored? slot).getD .empty).calculate_eq h.forest w.calculator.pool
  rw [worked] at outcome
  exact congrArg (Except.map Answer.bound) outcome

theorem Sound.step_run (h : w.Sound) (text : String) :
    (w.step (.run text)).1 = (w.calculator.run text).1.result.map .bound ∧
      (w.step (.run text)).2.calculator = (w.calculator.run text).2 := by
  rw [Calculator.fst_run, Calculator.snd_run, Calculator.result_outcome, step, StoredFormula.ofText]
  cases (Expr.ofText text).result with
  | error e => exact ⟨rfl, rfl⟩
  | ok tree =>
    have planted := h.forest.planted_plant tree
    obtain ⟨outcome, -⟩ := StoredFormula.calculate_eq ⟨text, (w.store.plant tree).1⟩ planted.forest
      w.calculator.pool
    rw [StoredFormula.formula, planted.forest.treeIn_eq planted.carries] at outcome
    exact ⟨congrArg (Except.map Answer.bound) outcome, congrArg w.calculator.store outcome⟩

theorem formula?_put_self (w : Workspace) (slot : String) (f : StoredFormula) :
    (w.put slot f).formula? slot = some (f.formula w.store) := by
  rw [formula?, stored?_put, if_pos rfl]
  rfl

theorem calculator_step (w : Workspace) {s : Step} (writes : s.slot? ≠ none) :
    (w.step s).2.calculator = w.calculator := by
  cases s with
  | run | get | contains | insert | calculate => exact absurd rfl writes
  | new => rfl
  | fromText | reread =>
    rw [step]
    split <;> rfl

theorem Sound.step_fromText_of_read (h : w.Sound) (slot : String) {text : String} {tree : Expr}
    (read : tree.IsReadFrom text) : (w.step (.fromText slot text)).1 = .ok .done ∧
      (w.step (.fromText slot text)).2.formula? slot = some ⟨text, tree⟩ := by
  obtain ⟨f, next, planted, -, -, -, stands⟩ := StoredFormula.exists_ofText_of_read h.forest read
  rw [step, planted]
  exact ⟨rfl, (formula?_put_self _ slot f).trans (congrArg some stands)⟩

theorem Sound.step_reread_of_read (h : w.Sound) (slot : String) {text : String} {tree : Expr}
    (read : tree.IsReadFrom text) : (w.step (.reread slot text)).1 = .ok .done ∧
      (w.step (.reread slot text)).2.formula? slot = some ⟨text, tree⟩ := by
  obtain ⟨f, next, planted, -, -, -, stands⟩ := StoredFormula.exists_ofText_of_read h.forest read
  rw [step, planted]
  exact ⟨rfl, (formula?_put_self _ slot f).trans (congrArg some stands)⟩

theorem step_reread_of_unread (w : Workspace) (slot : String) {text : String}
    (unread : ∀ tree : Expr, ¬ tree.IsReadFrom text) :
    ∃ e : FormulaError, e.text = text ∧ (w.step (.reread slot text)).1 = .error (.error e) ∧
      (w.step (.reread slot text)).2.formula? slot = some ⟨text, .nil⟩ := by
  obtain ⟨e, stamped, refused⟩ := StoredFormula.exists_ofText_of_unread w.store unread
  refine ⟨e, stamped, ?_⟩
  rw [step, refused]
  refine ⟨rfl, (w.formula?_put_self slot _).trans ?_⟩
  rw [StoredFormula.formula_of_rootless]

theorem Sound.text_of_reread (h : w.Sound) (slot text : String) :
    ((w.step (.reread slot text)).2.formula slot).text = text := by
  obtain ⟨tree, read⟩ | unread := Expr.exists_isReadFrom_or text
  · rw [formula, (h.step_reread_of_read slot read).2]
    rfl
  · obtain ⟨_, _, _, written⟩ := w.step_reread_of_unread slot unread
    rw [formula, written]
    rfl

/-- What is known of a workspace, whatever steps have been taken in it. -/
structure Consistent (w : Workspace) : Prop where
  upToDate : ∀ (slot : String) (f : Formula), w.formula? slot = some f → f.UpToDate
  unchanged_elsewhere : ∀ (s : Step) (slot : String), s.slot? ≠ some slot →
    (w.step s).2.formula? slot = w.formula? slot
  calculator_unchanged : ∀ s : Step, s.slot? ≠ none → (w.step s).2.calculator = w.calculator
  new_empty : ∀ slot : String, (w.step (.new slot)).2.formula? slot = some .empty
  fromText_of_read : ∀ (slot text : String) (tree : Expr), tree.IsReadFrom text →
    (w.step (.fromText slot text)).1 = .ok .done ∧
      (w.step (.fromText slot text)).2.formula? slot = some ⟨text, tree⟩
  /-- The slot stays as it was. -/
  fromText_of_unread : ∀ slot text : String, (∀ tree : Expr, ¬ tree.IsReadFrom text) →
    ∃ e : FormulaError, e.text = text ∧ w.step (.fromText slot text) = (.error (.error e), w)
  reread_of_read : ∀ (slot text : String) (tree : Expr), tree.IsReadFrom text →
    (w.step (.reread slot text)).1 = .ok .done ∧
      (w.step (.reread slot text)).2.formula? slot = some ⟨text, tree⟩
  /-- The slot has the new text, and no tree. -/
  reread_of_unread : ∀ slot text : String, (∀ tree : Expr, ¬ tree.IsReadFrom text) →
    ∃ e : FormulaError, e.text = text ∧ (w.step (.reread slot text)).1 = .error (.error e) ∧
      (w.step (.reread slot text)).2.formula? slot = some ⟨text, .nil⟩
  /-- The working copy is all that is rewritten. -/
  unchanged_by_calculate : ∀ slot : String,
    (w.step (.calculate slot)).2.calculator = w.calculator ∧
      ∀ other : String, (w.step (.calculate slot)).2.formula? other = w.formula? other
  nodes_unchanged : ∀ later : List Step, w.store.Grows (w.after later).store
  unchanged_until_written : ∀ (slot : String) (later : List Step),
    (∀ s ∈ later, s.slot? ≠ some slot) → (w.after later).formula? slot = w.formula? slot
  /-- A new formula with the same text has the same value or error. -/
  calculate_eq_fresh : ∀ slot fresh : String,
    (w.step (.calculate slot)).1 =
      (((ofPool w.calculator.pool).after [.reread fresh (w.formula slot).text]).step
        (.calculate fresh)).1
  calculate_of_read : ∀ (slot : String) (tree : Expr), tree.IsReadFrom (w.formula slot).text →
    (w.step (.calculate slot)).1 =
      ((Expr.evaluate w.calculator.pool tree).result.mapError
        (Failure.map (FormulaError.evaluating (w.formula slot).text))).map .bound
  calculate_of_unread : ∀ slot : String,
    (∀ tree : Expr, ¬ tree.IsReadFrom (w.formula slot).text) →
    (w.step (.calculate slot)).1 =
      .error (.error ⟨.evaluating .noTree, .empty, (w.formula slot).text⟩)
  run_eq : ∀ text : String,
    (w.step (.run text)).1 = (w.calculator.run text).1.result.map .bound ∧
      (w.step (.run text)).2.calculator = (w.calculator.run text).2

theorem Sound.consistent (h : w.Sound) : w.Consistent where
  upToDate := h.upToDate
  unchanged_elsewhere _ _ elsewhere := h.formula?_step elsewhere
  calculator_unchanged _ writes := w.calculator_step writes
  new_empty slot := by
    rw [step, formula?_put_self, StoredFormula.empty, StoredFormula.formula_of_rootless]
    rfl
  fromText_of_read slot _ _ read := h.step_fromText_of_read slot read
  fromText_of_unread := by
    intro slot text unread
    obtain ⟨e, stamped, refused⟩ := StoredFormula.exists_ofText_of_unread w.store unread
    refine ⟨e, stamped, ?_⟩
    rw [step, refused]
  reread_of_read slot _ _ read := h.step_reread_of_read slot read
  reread_of_unread slot _ unread := w.step_reread_of_unread slot unread
  unchanged_by_calculate _ := ⟨rfl, fun _ => h.formula?_step (Option.some_ne_none _).symm⟩
  nodes_unchanged := h.grows_after
  unchanged_until_written _ _ elsewhere := h.formula?_after elsewhere
  calculate_eq_fresh := by
    intro slot fresh
    have start := sound_ofPool w.calculator.pool
    have other := start.after [.reread fresh (w.formula slot).text]
    have text := start.text_of_reread fresh (w.formula slot).text
    have same := (other.upToDate_formula fresh).eq_of_text_eq (h.upToDate_formula slot) text
    have pool : ((ofPool w.calculator.pool).after
        [.reread fresh (w.formula slot).text]).calculator = w.calculator :=
      calculator_step _ (Option.some_ne_none _)
    rw [h.fst_step_calculate, other.fst_step_calculate, same, pool]
  calculate_of_read := by
    intro slot tree read
    rw [h.fst_step_calculate, ← (h.upToDate_formula slot).tree_eq tree read]
    rfl
  calculate_of_unread := by
    intro slot unread
    rw [h.fst_step_calculate, Formula.calculate, (h.upToDate_formula slot).tree_eq_nil unread]
    rfl
  run_eq := h.step_run

/-- After any steps on a new workspace every formula holds what its text is read as. Whatever step comes
next leaves it so, and calculating, which rewrites a copy, changes no formula and no pool. -/
theorem consistent_after (pool : Pool) (steps : List Step) :
    ((ofPool pool).after steps).Consistent :=
  ((sound_ofPool pool).after steps).consistent

example : (((ofPool ⟨[⟨"x", 1⟩]⟩).after
    [.fromText "sum" "x + 1", .calculate "sum", .insert ⟨"x", 2⟩]).step (.calculate "sum")).1 =
      .ok (.bound ⟨"ans", 3⟩) := by decide +kernel

end Workspace

end Reckoner
