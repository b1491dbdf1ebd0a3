import Reckoner.Proofs.Forest.Outcome
import Reckoner.Proofs.Forest.Traversal

/-!
# Sweeps call a function on every node in turn

A sweep changes values while its walk is still under way. The walk follows children alone, so it does
not notice; and since it comes to no node twice, what it finds in a node is the value that was there
before the sweep. Hence a sweep comes to the calls for the values in walk order, one after the other,
and then to writing all of the results. The function may have effects of its own: nothing is asked of
it but that it runs in a lawful monad.
-/

set_option autoImplicit false

namespace Reckoner.Forest

variable {α : Type} {f g : Forest α} {order : Order} {side : Side} {n k : NodeId}
  {nodes : List NodeId} {results : List α}

def setValues (f : Forest α) : List NodeId → List α → Forest α
  | n :: nodes, value :: values => (f.setValue n value).setValues nodes values
  | _, _ => f

section Writes

variable (f n k)

@[simp] theorem size_setValue (value : α) : (f.setValue n value).size = f.size :=
  size_modify f n _

@[simp] theorem has_setValue (value : α) : (f.setValue n value).has k = f.has k := by
  simp [has]

@[simp] theorem child?_setValue (value : α) :
    (f.setValue n value).child? side k = f.child? side k := by
  unfold child? setValue
  rw [cell?_modify]
  by_cases here : n = k
  · cases side <;> cases f.cell? k <;> simp [here, Cell.child]
  · simp [here]

@[simp] theorem isOwned_setValue (value : α) :
    (f.setValue n value).isOwned k = f.isOwned k := by
  unfold isOwned setValue
  rw [cell?_modify]
  by_cases here : n = k
  · cases f.cell? k <;> simp [here]
  · simp [here]

theorem value?_setValue (value : α) :
    (f.setValue n value).value? k = if n = k then (f.value? k).map fun _ => value else f.value? k := by
  unfold value? setValue
  rw [cell?_modify]
  by_cases here : n = k
  · simp only [if_pos here, Option.map_map]
    rfl
  · simp [here]

variable {f n k}

theorem isSome_value? : (f.value? n).isSome = f.has n := by
  rw [value?, Option.isSome_map, isSome_cell?]

theorem exists_value? (present : f.has n = true) : ∃ value : α, f.value? n = some value := by
  rw [← isSome_value?] at present
  exact Option.isSome_iff_exists.1 present

@[simp] theorem size_setValues (nodes : List NodeId) (values : List α) :
    (f.setValues nodes values).size = f.size := by
  fun_induction setValues f nodes values with
  | case1 f n nodes value values ih => rw [ih, size_setValue]
  | case2 => rfl

@[simp] theorem child?_setValues (nodes : List NodeId) (values : List α) :
    (f.setValues nodes values).child? side k = f.child? side k := by
  fun_induction setValues f nodes values with
  | case1 f n nodes value values ih => rw [ih, child?_setValue]
  | case2 => rfl

@[simp] theorem isOwned_setValues (nodes : List NodeId) (values : List α) :
    (f.setValues nodes values).isOwned k = f.isOwned k := by
  fun_induction setValues f nodes values with
  | case1 f n nodes value values ih => rw [ih, isOwned_setValue]
  | case2 => rfl

theorem value?_setValues_of_not_mem (nodes : List NodeId) (values : List α) (h : k ∉ nodes) :
    (f.setValues nodes values).value? k = f.value? k := by
  fun_induction setValues f nodes values with
  | case1 f n nodes value values ih =>
    obtain ⟨other, later⟩ := not_or.1 (mt List.mem_cons.2 h)
    rw [ih later, value?_setValue, if_neg (Ne.symm other)]
  | case2 => rfl

/-- Where no node occurs twice, no value is written over. -/
theorem map_value?_setValues (nodup : nodes.Nodup) (known : ∀ x ∈ nodes, f.has x = true)
    (length : results.length = nodes.length) :
    nodes.map (f.setValues nodes results).value? = results.map some := by
  induction nodes generalizing f results with
  | nil =>
    rw [List.eq_nil_of_length_eq_zero length]
    rfl
  | cons n nodes ih =>
    obtain ⟨value, results, rfl⟩ := List.exists_cons_of_length_eq_add_one length
    obtain ⟨once, nodup⟩ := List.nodup_cons.1 nodup
    obtain ⟨here, known⟩ := List.forall_mem_cons.1 known
    obtain ⟨old, found⟩ := exists_value? here
    have written : ((f.setValue n value).setValues nodes results).value? n = some value := by
      rw [value?_setValues_of_not_mem nodes results once, value?_setValue, if_pos rfl, found]
      rfl
    have others := ih (f := f.setValue n value) nodup (by simpa using known)
      (Nat.succ.inj length)
    rw [setValues, List.map_cons, List.map_cons, written, others]

end Writes

section Walk

/-- A walk depends on nothing but the children. -/
theorem visited?_congr (same : ∀ (side : Side) (k : NodeId), g.child? side k = f.child? side k)
    (turns : Nat) (agenda : List Task) :
    g.visited? order turns agenda = f.visited? order turns agenda := by
  fun_induction visited? f order turns agenda with
  | case1 turns => cases turns <;> rfl
  | case2 => rfl
  | case3 turns n rest ih => rw [visited?, ih]
  | case4 turns n rest ih =>
    have unfolded : g.tasks order n = f.tasks order n := by rw [tasks, tasks, same, same]
    rw [visited?, unfolded, ih]

theorem walk_congr (size : g.size = f.size)
    (same : ∀ (side : Side) (k : NodeId), g.child? side k = f.child? side k) :
    g.walk order n = f.walk order n := by
  rw [walk, walk, turns, turns, size, visited?_congr same]

@[simp] theorem walk_setValues (nodes : List NodeId) (values : List α) :
    (f.setValues nodes values).walk order n = f.walk order n :=
  walk_congr (size_setValues nodes values) fun _ _ => child?_setValues nodes values

namespace IsForest

theorem exists_walk (h : f.IsForest) (present : f.has n = true) (order : Order) :
    ∃ t : Tree NodeId, f.Hangs (some n) t ∧ f.walk order n = t.visits order ∧
      f.visited? order f.turns [.enter n] = some (t.visits order) := by
  obtain ⟨t, hangs⟩ := h.exists_hangs present
  have ends : f.visited? order f.turns [.enter n] = some (t.visits order) :=
    hangs.does.visited? (Nat.mul_le_mul_left 2 (h.size_le hangs))
  refine ⟨t, hangs, ?_, ends⟩
  rw [walk]
  exact congrArg (Option.getD · []) ends

theorem visited?_turns (h : f.IsForest) (present : f.has n = true) (order : Order) :
    f.visited? order f.turns [.enter n] = some (f.walk order n) := by
  obtain ⟨t, _, walked, ends⟩ := h.exists_walk present order
  rw [walked, ends]

theorem nodup_walk (h : f.IsForest) (present : f.has n = true) (order : Order) :
    (f.walk order n).Nodup := by
  obtain ⟨t, hangs, walked, _⟩ := h.exists_walk present order
  exact walked ▸ h.nodup_visits hangs order

theorem mem_walk (h : f.IsForest) (present : f.has n = true) (order : Order) :
    k ∈ f.walk order n ↔ f.Below n k := by
  obtain ⟨t, hangs, walked, _⟩ := h.exists_walk present order
  rw [walked, (t.visits_perm order).mem_iff, hangs.mem_visits]
  simp

theorem has_of_mem_walk (h : f.IsForest) (present : f.has n = true) (order : Order) :
    ∀ k ∈ f.walk order n, f.has k = true := by
  obtain ⟨t, hangs, walked, _⟩ := h.exists_walk present order
  intro k inside
  rw [walked, (t.visits_perm order).mem_iff] at inside
  exact hangs.has k inside

end IsForest

theorem map_some_filterMap_value? (known : ∀ k ∈ nodes, f.has k = true) :
    (nodes.filterMap f.value?).map some = nodes.map f.value? := by
  induction nodes with
  | nil => rfl
  | cons n nodes ih =>
    obtain ⟨here, known⟩ := List.forall_mem_cons.1 known
    obtain ⟨value, found⟩ := exists_value? here
    rw [List.filterMap_cons, found, List.map_cons, List.map_cons, found, ih known]

theorem length_filterMap_value? (known : ∀ k ∈ nodes, f.has k = true) :
    (nodes.filterMap f.value?).length = nodes.length := by
  simpa using congrArg List.length (map_some_filterMap_value? known)

end Walk

section Sweep

variable {m : Type → Type} [Monad m] [LawfulMonad m]

/-- Whatever is still on the agenda, the rest of a sweep calls the function on the values that its
nodes have now, and then they have the results. -/
theorem sweptM?_eq (change : α → m α) {turns : Nat} {agenda : List Task}
    (ends : f.visited? order turns agenda = some nodes) (nodup : nodes.Nodup)
    (known : ∀ k ∈ nodes, f.has k = true) :
    sweptM? order change turns agenda f = do
      let results ← (nodes.filterMap f.value?).mapM change
      return some (f.setValues nodes results) := by
  induction turns generalizing f agenda nodes with
  | zero =>
    cases agenda with
    | nil =>
      cases ends
      simp [sweptM?, setValues]
    | cons => cases ends
  | succ turns ih =>
    cases agenda with
    | nil =>
      cases ends
      simp [sweptM?, setValues]
    | cons task rest =>
      cases task with
      | enter n => exact ih ends nodup known
      | visit n =>
        obtain ⟨later, ends, rfl⟩ := Option.map_eq_some_iff.1 ends
        obtain ⟨once, nodup⟩ := List.nodup_cons.1 nodup
        obtain ⟨here, known⟩ := List.forall_mem_cons.1 known
        obtain ⟨value, found⟩ := exists_value? here
        rw [sweptM?, found, List.filterMap_cons, found]
        simp only [List.mapM_cons, bind_assoc, pure_bind]
        congr 1
        funext changed
        -- The nodes that are still to come have kept their values.
        have kept : later.filterMap (f.setValue n changed).value? = later.filterMap f.value? := by
          apply List.filterMap_congr
          intro k inside
          rw [value?_setValue, if_neg]
          rintro rfl
          exact once inside
        rw [ih (by rwa [visited?_congr fun side k => child?_setValue f n k changed]) nodup
          (by simpa using known), kept]
        rfl

theorem sweepM_eq (h : f.IsForest) (present : f.has n = true) (order : Order) (change : α → m α) :
    f.sweepM order n change = do
      let results ← (f.values order n).mapM change
      return f.setValues (f.walk order n) results := by
  rw [sweepM, sweptM?_eq change (h.visited?_turns present order) (h.nodup_walk present order)
    (h.has_of_mem_walk present order)]
  simp [values]

/-- There are as many results as calls. -/
theorem mapM_bind_congr {β γ : Type} (change : α → m β) (values : List α)
    {next next' : List β → m γ}
    (same : ∀ results : List β, results.length = values.length → next results = next' results) :
    values.mapM change >>= next = values.mapM change >>= next' := by
  induction values generalizing next next' with
  | nil => simp [same [] rfl]
  | cons value values ih =>
    simp only [List.mapM_cons, bind_assoc, pure_bind]
    congr 1
    funext result
    exact ih fun results length => same (result :: results) (by simp [length])

end Sweep

/-- Where the children are the same, what has been changed at every node below a slot has been changed
all over the tree in it. -/
theorem toDepth_map {change : α → α}
    (same : ∀ (side : Side) (k : NodeId), g.child? side k = f.child? side k) {slot : Option NodeId}
    (changed : ∀ k : NodeId, (∃ x ∈ slot, f.Below x k) → g.value? k = (f.value? k).map change)
    (depth : Nat) : g.toDepth depth slot = (f.toDepth depth slot).map change := by
  induction depth generalizing slot with
  | zero => cases slot <;> rfl
  | succ depth ih =>
    cases slot with
    | none => rfl
    | some x =>
      have below (side : Side) : g.toDepth depth (f.child? side x) =
          (f.toDepth depth (f.child? side x)).map change := by
        apply ih
        rintro k ⟨child, link, path⟩
        exact changed k ⟨x, rfl, HasChild.below ⟨side, link⟩ path⟩
      rw [toDepth, toDepth, changed x ⟨x, rfl, .refl⟩, same, same]
      cases f.value? x with
      | none => rfl
      | some value =>
        simp only [Option.map_some, below]
        rfl

/-- `g` is `f` but for the values of nodes below `n`. -/
structure SameBut (f : Forest α) (n : NodeId) (g : Forest α) : Prop where
  size_eq : g.size = f.size
  child?_eq : ∀ (side : Side) (k : NodeId), g.child? side k = f.child? side k
  isOwned_eq : ∀ k : NodeId, g.isOwned k = f.isOwned k
  value?_eq : ∀ k : NodeId, ¬ f.Below n k → g.value? k = f.value? k

namespace SameBut

theorem refl (f : Forest α) (n : NodeId) : f.SameBut n f :=
  ⟨rfl, fun _ _ => rfl, fun _ => rfl, fun _ _ => rfl⟩

variable (same : f.SameBut n g)
include same

theorem above {x : NodeId} (path : f.Below x n) : f.SameBut x g where
  size_eq := same.size_eq
  child?_eq := same.child?_eq
  isOwned_eq := same.isOwned_eq
  value?_eq k apart := same.value?_eq k fun below => apart (Relation.ReflTransGen.trans path below)

theorem has_eq (k : NodeId) : g.has k = f.has k := by
  rw [has, has, same.size_eq]

theorem hasChild_eq : g.HasChild = f.HasChild := by
  funext x y
  simp only [HasChild, same.child?_eq]

theorem below_iff {x : NodeId} : g.Below x k ↔ f.Below x k := by
  rw [Below, same.hasChild_eq, Below]

theorem isForest (h : f.IsForest) : g.IsForest where
  has_of_child link := by
    rw [same.child?_eq] at link
    rw [same.has_eq]
    exact h.has_of_child link
  place_unique link link' := by
    rw [same.child?_eq] at link link'
    exact h.place_unique link link'
  owned_iff x := by
    simp only [same.isOwned_eq, same.child?_eq]
    exact h.owned_iff x
  acyclic := by
    rw [same.hasChild_eq]
    exact h.acyclic

theorem trans {g' : Forest α} (same' : g.SameBut n g') : f.SameBut n g' where
  size_eq := same'.size_eq.trans same.size_eq
  child?_eq side k := (same'.child?_eq side k).trans (same.child?_eq side k)
  isOwned_eq k := (same'.isOwned_eq k).trans (same.isOwned_eq k)
  value?_eq k apart :=
    (same'.value?_eq k (mt same.below_iff.1 apart)).trans (same.value?_eq k apart)

theorem eq {g' : Forest α} (same' : f.SameBut n g')
    (values : ∀ k : NodeId, f.Below n k → g.value? k = g'.value? k) : g = g' := by
  apply eq_of_views
  · intro k
    by_cases below : f.Below n k
    · exact values k below
    · rw [same.value?_eq k below, same'.value?_eq k below]
  · intro side k
    rw [same.child?_eq, same'.child?_eq]
  · intro k
    rw [same.isOwned_eq, same'.isOwned_eq]

end SameBut

namespace IsForest

variable (h : f.IsForest) (present : f.has n = true)
include h present

theorem sameBut_setValues (order : Order) (results : List α) :
    f.SameBut n (f.setValues (f.walk order n) results) where
  size_eq := size_setValues _ results
  child?_eq _ _ := child?_setValues _ results
  isOwned_eq _ := isOwned_setValues _ results
  value?_eq _ apart :=
    value?_setValues_of_not_mem _ results (mt (h.mem_walk present order).1 apart)

theorem map_some_values (order : Order) :
    (f.values order n).map some = (f.walk order n).map f.value? :=
  map_some_filterMap_value? (h.has_of_mem_walk present order)

theorem map_value?_walk (length : results.length = (f.values order n).length) :
    (f.walk order n).map (f.setValues (f.walk order n) results).value? = results.map some := by
  have known := h.has_of_mem_walk present order
  exact map_value?_setValues (h.nodup_walk present order) known
    (length.trans (length_filterMap_value? known))

theorem values_setValues (length : results.length = (f.values order n).length) :
    (f.setValues (f.walk order n) results).values order n = results := by
  have written := congrArg (List.filterMap id) (h.map_value?_walk present length)
  simpa [values] using written

theorem sweep_eq (order : Order) (change : α → α) :
    f.sweep order n change =
      f.setValues (f.walk order n) ((f.values order n).map change) := by
  rw [sweep, sweepM_eq h present]
  simp

theorem value?_sweep_of_below (order : Order) (change : α → α) (below : f.Below n k) :
    (f.sweep order n change).value? k = (f.value? k).map change := by
  have all : (f.walk order n).map (f.sweep order n change).value? =
      (f.walk order n).map fun x => (f.value? x).map change := by
    calc (f.walk order n).map (f.sweep order n change).value?
        = ((f.values order n).map change).map some := by
          rw [h.sweep_eq present, h.map_value?_walk present (List.length_map _)]
      _ = ((f.values order n).map some).map (Option.map change) := by simp
      _ = (f.walk order n).map fun x => (f.value? x).map change := by
          rw [h.map_some_values present, List.map_map]
          rfl
  exact List.map_inj_left.1 all k ((h.mem_walk present order).2 below)

theorem sameBut_sweep (order : Order) (change : α → α) :
    f.SameBut n (f.sweep order n change) := by
  rw [h.sweep_eq present]
  exact h.sameBut_setValues present order _

theorem tree_sweep (order : Order) (change : α → α) :
    (f.sweep order n change).tree n = (f.tree n).map change := by
  have same := h.sameBut_sweep present order change
  rw [tree, tree, same.size_eq]
  apply toDepth_map same.child?_eq
  rintro k ⟨_, ⟨⟩, below⟩
  exact h.value?_sweep_of_below present order change below

/-- Without effects the order of the calls leaves no trace. -/
theorem sweep_eq_sweep (order order' : Order) (change : α → α) :
    f.sweep order n change = f.sweep order' n change := by
  apply (h.sameBut_sweep present order change).eq (h.sameBut_sweep present order' change)
  intro k below
  rw [h.value?_sweep_of_below present order change below,
    h.value?_sweep_of_below present order' change below]

theorem sweep_sweep (order : Order) (change change' : α → α) :
    (f.sweep order n change).sweep order n change' = f.sweep order n (change' ∘ change) := by
  have first := h.sameBut_sweep present order change
  have forest := first.isForest h
  have there : (f.sweep order n change).has n = true := by rwa [first.has_eq]
  have second := forest.sameBut_sweep there order change'
  apply (first.trans second).eq (h.sameBut_sweep present order (change' ∘ change))
  intro k below
  rw [forest.value?_sweep_of_below there order change' (first.below_iff.2 below),
    h.value?_sweep_of_below present order change below,
    h.value?_sweep_of_below present order (change' ∘ change) below, Option.map_map]

end IsForest

/-- A sweep calls the function once for each node below, in walk order, on the value that the node has
had before. Afterwards the values in that order are the results, whatever else the calls have done.
Links, marks and all other values are as they were. Without effects the order does not matter. -/
theorem sweepM_calls_in_walk_order (h : f.IsForest) (present : f.has n = true) (order : Order) :
    (f.walk order n).Nodup ∧
      (∀ k : NodeId, k ∈ f.walk order n ↔ f.Below n k) ∧
      (f.walk order n).map f.value? = (f.values order n).map some ∧
      (∀ (m : Type → Type) [Monad m] [LawfulMonad m] (change : α → m α),
        (do
          let g ← f.sweepM order n change
          return (g, g.values order n) : m (Forest α × List α)) =
        (do
          let results ← (f.values order n).mapM change
          return (f.setValues (f.walk order n) results, results))) ∧
      (∀ results : List α, f.SameBut n (f.setValues (f.walk order n) results)) ∧
      ∀ (change : α → α) (order' : Order), f.sweep order n change = f.sweep order' n change := by
  refine ⟨h.nodup_walk present order, fun k => h.mem_walk present order,
    (h.map_some_values present order).symm, fun m _ _ change => ?_,
    h.sameBut_setValues present order,
    fun change order' => h.sweep_eq_sweep present order order' change⟩
  rw [sweepM_eq h present, bind_assoc]
  simp only [pure_bind]
  apply mapM_bind_congr
  intro results length
  rw [h.values_setValues present length]

/-- Counting up from seven, in the order of the walk, in a tree that bends to and fro. -/
theorem sweepM_counts_bent :
    let f := (empty : Forest Int).editAll
      [.fresh 1, .create .left 0 2, .fresh 3, .create .right 1 4, .create .left 3 5, .create .right 0 6]
    let count : Int → StateM Int Int := fun _ => modifyGet fun next => (next, next + 1)
    f.IsForest ∧ f.has 0 = true ∧ f.values .inorder 0 = [2, 5, 4, 1, 6] ∧
      ((f.sweepM .inorder 0 count).run 7).1.values .inorder 0 = [7, 8, 9, 10, 11] := by
  intro f count
  have forest : f.IsForest := IsForest.empty.editAll _
  have present : f.has 0 = true := by decide
  obtain ⟨_, _, _, calls, _⟩ := sweepM_calls_in_walk_order forest present .inorder
  have before : f.values .inorder 0 = [2, 5, 4, 1, 6] := by decide
  have counted : (List.mapM count [2, 5, 4, 1, 6]).run 7 = pure ([7, 8, 9, 10, 11], 12) := rfl
  -- From here on the forest must not be computed.
  clear_value f count
  have results := congrArg (fun swept => (swept.run 7).1.2) (calls (StateM Int) count)
  simp only [before, StateT.run_bind, StateT.run_pure, counted, pure_bind] at results
  exact ⟨forest, present, before, results⟩

end Reckoner.Forest
