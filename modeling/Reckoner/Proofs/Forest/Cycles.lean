import Reckoner.Proofs.Forest.Sweep

/-!
# Links that would close a cycle

Before a node is linked below another one, the search looks for the new parent below it. In every
store that can be reached this search ends. A link below `n` closes a cycle just if `n` is the new
child or below it already, because a way down to `n` does not use the slot of `n` that is filled. So
the guard, which saves the search for leaves, refuses exactly the links that would close a cycle.
-/

set_option autoImplicit false

namespace Reckoner.Forest

variable {α : Type} {f : Forest α} {side : Side} {n x : NodeId}

/-- The stores that changes of links, refused ones among them, and writes of values make of the empty
store, in any order. A sweep is a row of such writes. -/
inductive Reached : Forest α → Prop where
  | empty : Reached empty
  | edit {f : Forest α} (change : Edit α) : Reached f → Reached (f.edit change)
  | write {f : Forest α} (n : NodeId) (value : α) : Reached f → Reached (f.setValue n value)

theorem sameBut_setValue (n : NodeId) (value : α) : f.SameBut n (f.setValue n value) where
  size_eq := size_setValue f n value
  child?_eq _ k := child?_setValue f n k value
  isOwned_eq k := isOwned_setValue f n k value
  value?_eq k apart := by
    rw [value?_setValue, if_neg]
    rintro rfl
    exact apart .refl

theorem Reached.isForest (h : f.Reached) : f.IsForest := by
  induction h with
  | empty => exact .empty
  | edit change _ ih => exact ih.edit change
  | write n value _ ih => exact (sameBut_setValue n value).isForest ih

theorem Reached.editAll (h : f.Reached) (changes : List (Edit α)) :
    (f.editAll changes).Reached := by
  induction changes generalizing f with
  | nil => exact h
  | cons change rest ih => exact ih (h.edit change)

def ClosesCycle (f : Forest α) (side : Side) (n x : NodeId) : Prop :=
  ∃ m : NodeId, Relation.TransGen ((f.take side n).link side n x).HasChild m m

theorem hasChild_relink_of_ne {m y : NodeId} (parent : f.has n = true) (other : m ≠ n)
    (link : f.HasChild m y) : ((f.take side n).link side n x).HasChild m y := by
  obtain ⟨slot, link⟩ := link
  refine ⟨slot, ?_⟩
  have elsewhere : ¬ (n = m ∧ side = slot) := fun here => other here.1.symm
  rw [child?_link side slot m (by rwa [has_take]), if_neg elsewhere, child?_take, if_neg elsewhere]
  exact link

theorem below_relink {m : NodeId} (parent : f.has n = true) (path : f.Below m n) :
    ((f.take side n).link side n x).Below m n := by
  induction path using Relation.ReflTransGen.head_induction_on with
  | refl => exact .refl
  | @head m y link _ ih =>
    by_cases there : m = n
    · rw [there]
      exact .refl
    · exact HasChild.below (hasChild_relink_of_ne parent there link) ih

namespace IsForest

theorem closesCycle_iff (h : f.IsForest) (parent : f.has n = true) :
    f.ClosesCycle side n x ↔ f.Below x n := by
  have present : (f.take side n).has n = true := by rwa [has_take]
  constructor
  · rintro ⟨m, cycle⟩
    rcases transGen_of_link (fun _ _ => hasChild_of_link present) cycle with old | ⟨above, below⟩
    · exact absurd old ((h.take side n).acyclic m)
    · exact Relation.ReflTransGen.mono hasChild_take_le _ _ (below.trans above)
  · intro path
    have link : ((f.take side n).link side n x).HasChild n x := by
      refine ⟨side, ?_⟩
      rw [child?_link side side n present, if_pos ⟨rfl, rfl⟩]
    exact ⟨n, .head' link (below_relink parent path)⟩

theorem adoptable_of_unowned (h : f.IsForest) (side : Side) (parent : f.has n = true)
    (child : f.has x = true) (unowned : f.isOwned x = false) :
    (f.adoptable n x = .error .beneathItself ↔ f.ClosesCycle side n x) ∧
      (f.adoptable n x = .ok () ↔ ¬ f.ClosesCycle side n x) := by
  have guarded : f.adoptable n x =
      if x = n ∨ f.isBelow x n then .error .beneathItself else .ok () := by
    rw [adoptable, if_neg (by simp [parent, child]), if_neg (by simp [unowned])]
  have exact := h.isBelow_iff (n := n) child
  rw [guarded, h.closesCycle_iff parent]
  by_cases above : x = n ∨ f.isBelow x n = true
  · simp [if_pos above, exact.1 above]
  · simp [if_neg above, mt exact.2 above]

end IsForest

/-- In every store that can be reached, the search for `n` among `x` and what is below it ends, with a
turn for each node of the store or with more, and finds `n` just if it is there. The guard, which does
not search leaves, holds just for the links that would close a cycle, on either side. So `x` is refused
for that reason just if it has no parent and its link would close a cycle, and accepted just if it has
none and its link would not. -/
theorem guard_refuses_exactly_cycles (reached : f.Reached) (parent : f.has n = true)
    (child : f.has x = true) :
    (∃ found : Bool, f.contains? x n = some found ∧
      (∀ turns : Nat, f.size ≤ turns → f.finds? n turns [x] = some found) ∧
      (found = true ↔ f.Below x n)) ∧
    ∀ side : Side,
      (x = n ∨ f.isBelow x n = true ↔ f.ClosesCycle side n x) ∧
      (f.adoptable n x = .error .beneathItself ↔
        f.isOwned x = false ∧ f.ClosesCycle side n x) ∧
      (f.adoptable n x = .ok () ↔ f.isOwned x = false ∧ ¬ f.ClosesCycle side n x) := by
  have forest := reached.isForest
  constructor
  · obtain ⟨found, ended, exact⟩ := forest.exists_contains? child n
    refine ⟨found, ended, fun turns enough => ?_, exact⟩
    obtain ⟨again, ended', exact'⟩ := forest.exists_finds? child n enough
    rw [ended', Option.some.injEq, Bool.eq_iff_iff, exact, exact']
  · intro side
    refine ⟨(forest.isBelow_iff child).trans (forest.closesCycle_iff parent).symm, ?_⟩
    cases owned : f.isOwned x with
    | true =>
      have refused : f.adoptable n x = .error .alreadyAttached := by
        rw [adoptable, if_neg (by simp [parent, child]), if_pos owned]
      simp [refused]
    | false =>
      obtain ⟨refused, accepted⟩ := forest.adoptable_of_unowned side parent child owned
      simp [refused, accepted]

/-- The root of a tree that bends to and fro is searched, and the last node below it found. Of two nodes
without a parent the root may not come below that node, and the other one may. -/
theorem guard_refuses_exactly_cycles_bent :
    let f := (((empty : Forest Int).editAll
      [.fresh 1, .create .left 0 2, .create .right 1 4, .create .left 2 5, .fresh 6,
        .attach .left 3 0]).setValue 2 7)
    f.Reached ∧ f.contains? 0 3 = some true ∧ f.Below 0 3 ∧ f.ClosesCycle .right 3 0 ∧
      f.contains? 4 3 = some false ∧ ¬ f.ClosesCycle .right 3 4 := by
  intro f
  have reached : f.Reached := (Reached.empty.editAll _).write 2 7
  have hasLast : f.has 3 = true := by decide
  have hasRoot : f.has 0 = true := by decide
  have hasOther : f.has 4 = true := by decide
  obtain ⟨⟨found, ended, _, exact⟩, guards⟩ := guard_refuses_exactly_cycles reached hasLast hasRoot
  obtain ⟨⟨found', ended', _, exact'⟩, guards'⟩ :=
    guard_refuses_exactly_cycles reached hasLast hasOther
  have searched : f.contains? 0 3 = some true := by decide
  have searched' : f.contains? 4 3 = some false := by decide
  have refused : f.adoptable 3 0 = .error .beneathItself := by decide
  have accepted : f.adoptable 3 4 = .ok () := by decide
  obtain rfl : found = true := Option.some.inj (ended.symm.trans searched)
  exact ⟨reached, searched, exact.1 rfl, ((guards .right).2.1.1 refused).2, searched',
    ((guards' .right).2.2.1 accepted).2⟩

end Reckoner.Forest
