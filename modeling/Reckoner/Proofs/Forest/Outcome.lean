import Reckoner.Proofs.Forest.Search
import Reckoner.Proofs.Forest.Writes

/-!
# How a change of links ends

Filling a slot that is filled is refused for that reason. Otherwise a node is refused as a child just
if it has a parent, is the new parent or has it below itself. What is refused changes nothing, what
has been written on the way included. What is done changes one slot, and the marks of the child that
leaves the slot and of the one that enters it.
-/

set_option autoImplicit false

namespace Reckoner

def Edit.nodes {α : Type} : Edit α → List NodeId
  | .fresh _ => []
  | .attach _ n x | .replace _ n x => [n, x]
  | .create _ n _ | .take _ n => [n]
  | .assign _ n x? => n :: x?.toList

namespace Forest

variable {α : Type} {f g : Forest α} {side : Side} {n x : NodeId} {entering : Option NodeId}
  {change : Edit α} {result : EStateM.Result Refusal (Forest α) Unit}

/-- `g` differs from `f` at most in one slot of `n`, which holds `entering` now, and in the marks of
the child that has left the slot and of the one that has entered it. -/
structure Relinked (f g : Forest α) (side : Side) (n : NodeId) (entering : Option NodeId) :
    Prop where
  value?_eq : ∀ m : NodeId, g.value? m = f.value? m
  child?_eq : ∀ (other : Side) (m : NodeId),
    g.child? other m = if n = m ∧ side = other then entering else f.child? other m
  isOwned_eq : ∀ m : NodeId, g.isOwned m =
    if entering = some m then true
    else if f.child? side n = some m then false
    else f.isOwned m

/-- `x` is to become the child of `n` on a side: there is an objection and nothing changes, or there is
none, as it has no parent, is not `n` and does not have it below, and it enters the slot. -/
inductive Adoption (f : Forest α) (side : Side) (n x : NodeId) :
    EStateM.Result Refusal (Forest α) Unit → Prop where
  | refused {r : Refusal} : f.Objection n x r → Adoption f side n x (.error r f)
  | done {g : Forest α} : ¬ ((∃ m : NodeId, f.HasChild m x) ∨ x = n ∨ f.Below x n) →
    f.Relinked g side n (some x) → Adoption f side n x (.ok () g)

/-- How a change ends, and with which store. -/
inductive Outcome (f : Forest α) : Edit α → EStateM.Result Refusal (Forest α) Unit → Prop where
  | fresh {value : α} : Outcome f (.fresh value) (.ok () (f.fresh value))
  | attachOccupied {side : Side} {n x child : NodeId} : f.child? side n = some child →
    Outcome f (.attach side n x) (.error (.slotOccupied side) f)
  | attach {side : Side} {n x : NodeId} {result : EStateM.Result Refusal (Forest α) Unit} :
    f.child? side n = none → f.Adoption side n x result → Outcome f (.attach side n x) result
  | createOccupied {side : Side} {n child : NodeId} {value : α} : f.child? side n = some child →
    Outcome f (.create side n value) (.error (.slotOccupied side) f)
  | create {side : Side} {n : NodeId} {value : α} {g : Forest α} : f.child? side n = none →
    (f.fresh value).Relinked g side n (some f.nextId) → Outcome f (.create side n value) (.ok () g)
  | replaceSame {side : Side} {n x : NodeId} : f.child? side n = some x →
    Outcome f (.replace side n x) (.ok () f)
  | replace {side : Side} {n x : NodeId} {result : EStateM.Result Refusal (Forest α) Unit} :
    f.child? side n ≠ some x → f.Adoption side n x result → Outcome f (.replace side n x) result
  | take {side : Side} {n : NodeId} {g : Forest α} : f.Relinked g side n none →
    Outcome f (.take side n) (.ok () g)
  | assign {side : Side} {n x : NodeId} {result : EStateM.Result Refusal (Forest α) Unit} :
    Outcome f (.replace side n x) result → Outcome f (.assign side n (some x)) result
  | clear {side : Side} {n : NodeId} {result : EStateM.Result Refusal (Forest α) Unit} :
    Outcome f (.take side n) result → Outcome f (.assign side n none) result

section Relinking

theorem value?_modify (change : Cell α → Cell α)
    (keeps : ∀ cell : Cell α, (change cell).value = cell.value) (m : NodeId) :
    (f.modify n change).value? m = f.value? m := by
  rw [value?, value?, cell?_modify]
  split
  · cases f.cell? m with
    | none => rfl
    | some cell => exact congrArg some (keeps cell)
  · rfl

@[simp] theorem value?_setChild (child : Option NodeId) (m : NodeId) :
    (f.setChild side n child).value? m = f.value? m :=
  value?_modify _ (fun _ => by cases side <;> rfl) m

@[simp] theorem value?_setOwned (owned : Bool) (m : NodeId) :
    (f.setOwned n owned).value? m = f.value? m :=
  value?_modify (fun cell => { cell with owned }) (fun _ => rfl) m

@[simp] theorem value?_take (m : NodeId) : (f.take side n).value? m = f.value? m := by
  rw [Forest.take]
  split
  · rw [value?_setOwned, value?_setChild]
  · rfl

@[simp] theorem value?_link (m : NodeId) : (f.link side n x).value? m = f.value? m := by
  rw [link, value?_setChild, value?_setOwned]

/-- Values, children and marks are all there is to a store. -/
theorem eq_of_views (values : ∀ m : NodeId, f.value? m = g.value? m)
    (children : ∀ (side : Side) (m : NodeId), f.child? side m = g.child? side m)
    (marks : ∀ m : NodeId, f.isOwned m = g.isOwned m) : f = g := by
  apply eq_of_cell?
  intro m
  have sameValue := values m
  have sameLeft := children .left m
  have sameRight := children .right m
  have sameMark := marks m
  unfold value? at sameValue
  unfold child? at sameLeft sameRight
  unfold isOwned at sameMark
  cases here : f.cell? m with
  | none =>
    rw [here] at sameValue
    exact (Option.map_eq_none_iff.1 sameValue.symm).symm
  | some cell =>
    rw [here] at sameValue sameLeft sameRight sameMark
    obtain ⟨other, there, value⟩ := Option.map_eq_some_iff.1 sameValue.symm
    rw [there] at sameLeft sameRight sameMark ⊢
    obtain ⟨_, _, _, _⟩ := cell
    obtain ⟨_, _, _, _⟩ := other
    simp only [Option.bind_some, Option.any_some, Cell.child] at value sameLeft sameRight sameMark
    rw [value, sameLeft, sameRight, sameMark]

theorem Relinked.unique {g' : Forest α} (h : f.Relinked g side n entering)
    (h' : f.Relinked g' side n entering) : g = g' := by
  apply eq_of_views
  · intro m
    rw [h.value?_eq, h'.value?_eq]
  · intro other m
    rw [h.child?_eq, h'.child?_eq]
  · intro m
    rw [h.isOwned_eq, h'.isOwned_eq]

theorem relinked_take : f.Relinked (f.take side n) side n none where
  value?_eq := value?_take
  child?_eq other m := child?_take f side other n m
  isOwned_eq m := by
    rw [isOwned_take]
    by_cases leaves : f.child? side n = some m
    · simp [leaves]
    · simp [leaves]

theorem relinked_link (parent : f.has n = true) (child : f.has x = true) :
    f.Relinked ((f.take side n).link side n x) side n (some x) where
  value?_eq m := by rw [value?_link, value?_take]
  child?_eq other m := by
    rw [child?_link side other m (by rwa [has_take]), child?_take]
    split <;> rfl
  isOwned_eq m := by
    rw [isOwned_link side m (by rwa [has_take]), isOwned_take]
    by_cases enters : x = m
    · simp [enters]
    · rw [beq_false_of_ne enters, Bool.false_or, if_neg (by simpa using enters)]
      by_cases leaves : f.child? side n = some m
      · simp [leaves]
      · simp [leaves]

end Relinking

theorem exists_adoption (side : Side) (parent : f.has n = true) (child : f.has x = true) :
    ∃ result : EStateM.Result Refusal (Forest α) Unit, f.Adoption side n x result := by
  by_cases objection : ∃ r : Refusal, f.Objection n x r
  · obtain ⟨r, reason⟩ := objection
    exact ⟨_, .refused reason⟩
  · rw [exists_objection_iff] at objection
    exact ⟨_, .done objection (relinked_link parent child)⟩

theorem exists_outcome (known : ∀ m ∈ change.nodes, f.has m = true) :
    ∃ result : EStateM.Result Refusal (Forest α) Unit, f.Outcome change result := by
  have replaced (side : Side) {n x : NodeId} (parent : f.has n = true) (child : f.has x = true) :
      ∃ result, f.Outcome (.replace side n x) result := by
    by_cases same : f.child? side n = some x
    · exact ⟨_, .replaceSame same⟩
    · obtain ⟨result, adoption⟩ := exists_adoption side parent child
      exact ⟨result, .replace same adoption⟩
  cases change with
  | fresh value => exact ⟨_, .fresh⟩
  | attach side n x =>
    cases slot : f.child? side n with
    | some child => exact ⟨_, .attachOccupied slot⟩
    | none =>
      obtain ⟨parent, child⟩ : f.has n = true ∧ f.has x = true := by simpa [Edit.nodes] using known
      obtain ⟨result, adoption⟩ := exists_adoption side parent child
      exact ⟨result, .attach slot adoption⟩
  | create side n value =>
    cases slot : f.child? side n with
    | some child => exact ⟨_, .createOccupied slot⟩
    | none =>
      have parent : f.has n = true := by simpa [Edit.nodes] using known
      exact ⟨_, .create slot (relinked_link (by simp [parent]) (by simp))⟩
  | replace side n x =>
    obtain ⟨parent, child⟩ : f.has n = true ∧ f.has x = true := by simpa [Edit.nodes] using known
    exact replaced side parent child
  | take side n => exact ⟨_, .take relinked_take⟩
  | assign side n x? =>
    cases x? with
    | none => exact ⟨_, .clear (.take relinked_take)⟩
    | some x =>
      obtain ⟨parent, child⟩ : f.has n = true ∧ f.has x = true := by simpa [Edit.nodes] using known
      obtain ⟨result, outcome⟩ := replaced side parent child
      exact ⟨result, .assign outcome⟩

namespace IsForest

theorem settle_of_adoption (h : f.IsForest) (parent : f.has n = true) (child : f.has x = true)
    (adoption : f.Adoption side n x result) :
    f.settle ((f.adoptable n x).map fun _ => (f.take side n).link side n x) = result := by
  cases adoption with
  | refused reason =>
    rw [(h.adoptable_eq_error_iff parent child).2 reason]
    rfl
  | done free relinked =>
    rw [← exists_objection_iff, not_exists] at free
    rw [(h.adoptable_eq_ok_iff parent child).2 free, relinked.unique (relinked_link parent child)]
    rfl

theorem adoptable_fresh (h : f.IsForest) (parent : f.has n = true) (value : α) :
    (f.fresh value).adoptable n f.nextId = .ok () := by
  have absent : f.has f.nextId = false := by simp [has, nextId]
  rw [(h.fresh value).adoptable_eq_ok_iff (by simp [parent]) (by simp)]
  rintro r (⟨side, link⟩ | ⟨_, above⟩)
  · rw [child?_fresh] at link
    rw [h.has_of_child link] at absent
    cases absent
  · have below : (f.fresh value).Below f.nextId n := by
      rcases above with same | path
      · exact same ▸ .refl
      · exact path
    rcases below_cases below with same | ⟨x, ⟨side, link⟩, _⟩
    · rw [same, absent] at parent
      cases parent
    · rw [child?_fresh, child?, cell?_of_not_has absent] at link
      cases link

theorem settle_of_outcome (h : f.IsForest) (known : ∀ m ∈ change.nodes, f.has m = true)
    (outcome : f.Outcome change result) : f.settle (change.apply f) = result := by
  induction outcome with
  | fresh => rfl
  | @attachOccupied side n x child slot =>
    rw [Edit.apply, Forest.attach, slot]
    rfl
  | @attach side n x result slot adoption =>
    obtain ⟨parent, child⟩ : f.has n = true ∧ f.has x = true := by simpa [Edit.nodes] using known
    rw [← h.settle_of_adoption parent child adoption, Edit.apply, Forest.attach, slot,
      take_of_vacant slot]
    rfl
  | @createOccupied side n child value slot =>
    rw [Edit.apply, Forest.create, Forest.attach, child?_fresh, slot]
    rfl
  | @create side n value g slot relinked =>
    have parent : f.has n = true := by simpa [Edit.nodes] using known
    have vacant : (f.fresh value).child? side n = none := by rwa [child?_fresh]
    have same := relinked.unique (relinked_link (by simp [parent]) (by simp))
    rw [take_of_vacant vacant] at same
    rw [Edit.apply, Forest.create, Forest.attach, vacant, h.adoptable_fresh parent, same]
    rfl
  | replaceSame same =>
    rw [Edit.apply, Forest.replace, if_pos same]
    rfl
  | @replace side n x result apart adoption =>
    obtain ⟨parent, child⟩ : f.has n = true ∧ f.has x = true := by simpa [Edit.nodes] using known
    rw [Edit.apply, Forest.replace, if_neg apart]
    exact h.settle_of_adoption parent child adoption
  | take relinked =>
    rw [relinked.unique relinked_take]
    rfl
  | assign _ ih => exact ih known
  | clear _ ih => exact ih known

theorem perform_run_eq_iff (h : f.IsForest) (known : ∀ m ∈ change.nodes, f.has m = true) :
    change.perform.run f = result ↔ f.Outcome change result := by
  rw [change.perform_run]
  constructor
  -- Some outcome there is, and each one is what happens: hence this one.
  · obtain ⟨actual, outcome⟩ := exists_outcome known
    rw [h.settle_of_outcome known outcome]
    rintro rfl
    exact outcome
  · exact h.settle_of_outcome known

end IsForest

/-- Whatever has been done to an empty store, refused changes among it, the next change ends as the
links of its nodes tell. Made write by write it comes to the same as if made as a whole. -/
theorem outcome_of_performed (changes : List (Edit α)) (change : Edit α)
    (known : ∀ m ∈ change.nodes, ((empty : Forest α).performAll changes).has m = true) :
    let f := (empty : Forest α).performAll changes
    change.perform.run f = f.settle (change.apply f) ∧
      ∀ result : EStateM.Result Refusal (Forest α) Unit,
        change.perform.run f = result ↔ f.Outcome change result := by
  have forest : ((empty : Forest α).performAll changes).IsForest := by
    rw [performAll_eq_editAll]
    exact IsForest.empty.editAll changes
  exact ⟨change.perform_run, fun _ => forest.perform_run_eq_iff known⟩

/-- A child is to be replaced by a node above it, which leaves it in its place, and by a free node. -/
theorem outcome_of_performed_twice :
    let f := (empty : Forest Int).performAll
      [.fresh 1, .create .left 0 2, .create .left 1 3, .create .right 1 4, .fresh 5,
        .attach .left 0 4, .replace .left 0 0]
    let above : Edit Int := .replace .left 1 0
    let free : Edit Int := .replace .left 1 4
    ((∀ m ∈ above.nodes, f.has m = true) ∧ f.Outcome above (.error .beneathItself f)) ∧
      (∀ m ∈ free.nodes, f.has m = true) ∧
        ∃ g : Forest Int, f.Outcome free (.ok () g) ∧ g.child? .left 1 = some 4 ∧
          g.isOwned 2 = false := by
  intro f above free
  have knownAbove : ∀ m ∈ above.nodes, f.has m = true := by decide
  have knownFree : ∀ m ∈ free.nodes, f.has m = true := by decide
  refine ⟨⟨knownAbove, ?_⟩, knownFree, ?_⟩
  · exact ((outcome_of_performed _ above knownAbove).2 _).1 rfl
  · exact ⟨_, ((outcome_of_performed _ free knownFree).2 _).1 rfl, rfl, rfl⟩

end Forest

end Reckoner
