import Reckoner.Forest.Copy
import Reckoner.Proofs.Forest.Trees

/-!
# Trees that are put together in a store

A new node, and two trees joined below a new node: both leave what was in the store as it was, and
make one more tree whose root has no parent. So the trees of two operands can be attached to a node
for their operator without a refusal, wherever in the store they are, and any tree can be planted.
-/

set_option autoImplicit false

namespace Reckoner.Forest

variable {α : Type} {f g h : Forest α} {side : Side} {n x y : NodeId} {slot x? y? : Option NodeId}
  {value : α} {left right t : Tree α}

/-- What was in `f` is in `g` as it was. -/
structure Grows (f g : Forest α) : Prop where
  has : ∀ m : NodeId, f.has m = true → g.has m = true
  value?_eq : ∀ m : NodeId, f.has m = true → g.value? m = f.value? m
  child?_eq : ∀ (side : Side) (m : NodeId), f.has m = true → g.child? side m = f.child? side m
  isOwned_eq : ∀ m : NodeId, f.has m = true → g.isOwned m = f.isOwned m

theorem Grows.refl (f : Forest α) : f.Grows f :=
  ⟨fun _ there => there, fun _ _ => rfl, fun _ _ _ => rfl, fun _ _ => rfl⟩

theorem Grows.trans (first : f.Grows g) (second : g.Grows h) : f.Grows h where
  has m there := second.has m (first.has m there)
  value?_eq m there := (second.value?_eq m (first.has m there)).trans (first.value?_eq m there)
  child?_eq side m there :=
    (second.child?_eq side m (first.has m there)).trans (first.child?_eq side m there)
  isOwned_eq m there :=
    (second.isOwned_eq m (first.has m there)).trans (first.isOwned_eq m there)

/-- The store has grown by the tree in the slot, whose root is new and has no parent. -/
structure Planted (f g : Forest α) (slot : Option NodeId) (t : Tree α) : Prop where
  forest : g.IsForest
  grows : f.Grows g
  carries : g.Carries slot t
  new : ∀ n ∈ slot, f.has n = false
  unowned : ∀ n ∈ slot, g.isOwned n = false

section Fresh

theorem not_has_nextId (f : Forest α) : f.has f.nextId = false := by
  simp [has, nextId]

theorem ne_nextId {m : NodeId} (there : f.has m = true) : m ≠ f.nextId := by
  rintro rfl
  rw [not_has_nextId] at there
  cases there

theorem value?_fresh (f : Forest α) (value : α) (m : NodeId) :
    (f.fresh value).value? m = if m = f.nextId then some value else f.value? m := by
  unfold value?
  rw [cell?_fresh]
  split <;> rfl

theorem child?_nextId (f : Forest α) (side : Side) : f.child? side f.nextId = none := by
  rw [child?, cell?_of_not_has f.not_has_nextId]
  rfl

theorem isOwned_nextId (f : Forest α) : f.isOwned f.nextId = false := by
  rw [isOwned, cell?_of_not_has f.not_has_nextId]
  rfl

theorem grows_fresh (f : Forest α) (value : α) : f.Grows (f.fresh value) where
  has m there := by simp [there]
  value?_eq m there := by rw [value?_fresh, if_neg (ne_nextId there)]
  child?_eq side m _ := child?_fresh f side m value
  isOwned_eq m _ := isOwned_fresh f m value

theorem planted_fresh (forest : f.IsForest) (value : α) :
    f.Planted (f.fresh value) (some f.nextId) (.leaf value) where
  forest := forest.fresh value
  grows := f.grows_fresh value
  new := by
    rintro n ⟨⟩
    exact f.not_has_nextId
  unowned := by
    rintro n ⟨⟩
    rw [isOwned_fresh, isOwned_nextId]
  carries := by
    apply Carries.node
    · rw [value?_fresh, if_pos rfl]
    · rw [child?_fresh, child?_nextId]
      exact .vacant
    · rw [child?_fresh, child?_nextId]
      exact .vacant

end Fresh

theorem IsForest.attach_of_unowned (forest : f.IsForest) (parent : f.has n = true)
    (child : f.has x = true) (apart : x ≠ n) (top : f.isOwned n = false)
    (unowned : f.isOwned x = false) (vacant : f.child? side n = none) :
    f.attach side n x = .ok (f.link side n x) := by
  have rootless {m : NodeId} (unowned : f.isOwned m = false) (k : NodeId) : ¬ f.HasChild k m := by
    intro link
    rw [forest.isOwned_iff.2 ⟨k, link⟩] at unowned
    cases unowned
  have accepted : f.adoptable n x = .ok () := by
    rw [forest.adoptable_eq_ok_iff parent child]
    rintro r (link | ⟨_, same | path⟩)
    · exact rootless unowned _ link
    · exact apart same
    · rcases Relation.ReflTransGen.cases_tail path with same | ⟨k, _, link⟩
      · exact apart same.symm
      · exact rootless top k link
  rw [Forest.attach, vacant, accepted]
  rfl

section Join

variable (f side n x? y? value)

@[simp] theorem has_hang (m : NodeId) : (f.hang side n x?).has m = f.has m := by
  cases x? with
  | none => rfl
  | some x => exact has_link f side n m x

@[simp] theorem value?_hang (m : NodeId) : (f.hang side n x?).value? m = f.value? m := by
  cases x? with
  | none => rfl
  | some x => exact value?_link m

theorem has_join (m : NodeId) : (f.join value x? y?).has m = (f.fresh value).has m := by
  rw [join, has_hang, has_hang]

theorem value?_join (m : NodeId) : (f.join value x? y?).value? m = (f.fresh value).value? m := by
  rw [join, value?_hang, value?_hang]

variable {f side n x? y? value}

theorem child?_hang (present : f.has n = true) (vacant : f.child? side n = none)
    (x? : Option NodeId) (other : Side) (m : NodeId) :
    (f.hang side n x?).child? other m =
      if n = m ∧ side = other then x? else f.child? other m := by
  cases x? with
  | none =>
    by_cases here : n = m ∧ side = other
    · obtain ⟨rfl, rfl⟩ := here
      simpa [hang] using vacant
    · rw [if_neg here, hang]
  | some x => exact child?_link side other m present

theorem isOwned_hang (known : ∀ x ∈ x?, f.has x = true) (m : NodeId) :
    (f.hang side n x?).isOwned m = (x? == some m || f.isOwned m) := by
  cases x? with
  | none => rfl
  | some x => exact isOwned_link side m (known x rfl)

theorem child?_join (side : Side) (m : NodeId) :
    (f.join value x? y?).child? side m =
      if f.nextId = m then (match side with | .left => x? | .right => y?) else f.child? side m := by
  have here : (f.fresh value).has f.nextId = true := by simp
  have vacant (side : Side) : (f.fresh value).child? side f.nextId = none := by
    rw [child?_fresh, child?_nextId]
  have first := child?_hang here (vacant .left) x?
  rw [join, child?_hang (by rwa [has_hang]) (by rw [first, if_neg (by simp), vacant]), first,
    child?_fresh]
  cases side <;> by_cases there : f.nextId = m <;> simp [there]

theorem isOwned_join (hx : ∀ x ∈ x?, f.has x = true) (hy : ∀ y ∈ y?, f.has y = true)
    (m : NodeId) : (f.join value x? y?).isOwned m = (y? == some m || (x? == some m || f.isOwned m)) := by
  have later {k : NodeId} (there : f.has k = true) : (f.fresh value).has k = true := by simp [there]
  rw [join, isOwned_hang fun y found => by rw [has_hang, later (hy y found)],
    isOwned_hang fun x found => later (hx x found), isOwned_fresh]

end Join

/-- What is in the slot may become the child of a node on one side: neither has a parent. -/
structure Fits (f : Forest α) (side : Side) (n : NodeId) (slot : Option NodeId) : Prop where
  parent : f.has n = true
  top : f.isOwned n = false
  vacant : f.child? side n = none
  known : ∀ x ∈ slot, f.has x = true
  unowned : ∀ x ∈ slot, f.isOwned x = false
  apart : ∀ x ∈ slot, x ≠ n

theorem Fits.attach (h : f.Fits side n (some x)) (forest : f.IsForest) :
    f.attach side n x = .ok (f.link side n x) :=
  forest.attach_of_unowned h.parent (h.known x rfl) (h.apart x rfl) h.top (h.unowned x rfl) h.vacant

theorem Fits.isForest (h : f.Fits side n x?) (forest : f.IsForest) :
    (f.hang side n x?).IsForest := by
  cases x? with
  | none => exact forest
  | some x => exact forest.attach (h.attach forest)

theorem Planted.has (planted : f.Planted g slot t) : ∀ n ∈ slot, g.has n = true := by
  rintro n ⟨⟩
  exact planted.carries.has

section Operands

variable (first : f.Planted g x? left) (second : g.Planted h y? right)
include first second

theorem Planted.fits_left (value : α) : (h.fresh value).Fits .left h.nextId x? where
  parent := by simp
  top := by rw [isOwned_fresh, isOwned_nextId]
  vacant := by rw [child?_fresh, child?_nextId]
  known x found := by simp [second.grows.has x (first.has x found)]
  unowned x found := by
    rw [isOwned_fresh, second.grows.isOwned_eq x (first.has x found), first.unowned x found]
  apart x found := ne_nextId (second.grows.has x (first.has x found))

theorem Planted.fits_right (value : α) :
    ((h.fresh value).hang .left h.nextId x?).Fits .right h.nextId y? := by
  have fits := first.fits_left second value
  constructor
  · rw [has_hang, fits.parent]
  · rw [isOwned_hang fits.known, fits.top, Bool.or_false]
    apply beq_false_of_ne
    rintro rfl
    exact fits.apart h.nextId rfl rfl
  · rw [child?_hang fits.parent fits.vacant, if_neg (by simp), child?_fresh, child?_nextId]
  · intro y found
    simp [second.has y found]
  · intro y found
    rw [isOwned_hang fits.known, isOwned_fresh, second.unowned y found, Bool.or_false]
    apply beq_false_of_ne
    rintro rfl
    have old := first.has y rfl
    rw [second.new y found] at old
    cases old
  · exact fun y found => ne_nextId (second.has y found)

/-- The marks of the operands are the only change to what has been in the last store. -/
theorem Planted.grows_join (value : α) : f.Grows (h.join value x? y?) := by
  have grown := first.grows.trans second.grows
  constructor
  · intro m there
    rw [has_join]
    exact (grows_fresh h value).has m (grown.has m there)
  · intro m there
    have later := grown.has m there
    rw [value?_join, value?_fresh, if_neg (ne_nextId later), grown.value?_eq m there]
  · intro side m there
    have later := grown.has m there
    rw [child?_join, if_neg (ne_nextId later).symm, grown.child?_eq side m there]
  · intro m there
    have notX : x? ≠ some m := by
      rintro rfl
      rw [first.new m rfl] at there
      cases there
    have notY : y? ≠ some m := by
      rintro rfl
      have early := first.grows.has m there
      rw [second.new m rfl] at early
      cases early
    rw [isOwned_join (fun x found => second.grows.has x (first.has x found)) second.has,
      beq_false_of_ne notX, beq_false_of_ne notY, grown.isOwned_eq m there]
    rfl

/-- The trees of the operands are as they were, since only their roots have got a mark. -/
theorem Planted.carries_join (value : α) :
    (h.join value x? y?).Carries (some h.nextId) (.node value left right) := by
  have kept {slot : Option NodeId} {t : Tree α} (carries : h.Carries slot t) :
      (h.join value x? y?).Carries slot t := by
    apply carries.mono
    · intro m there
      rw [value?_join, value?_fresh, if_neg (ne_nextId there)]
    · intro side m there
      rw [child?_join, if_neg (ne_nextId there).symm]
  apply Carries.node
  · rw [value?_join, value?_fresh, if_pos rfl]
  · rw [child?_join, if_pos rfl]
    exact kept (first.carries.mono second.grows.value?_eq second.grows.child?_eq)
  · rw [child?_join, if_pos rfl]
    exact kept second.carries

theorem Planted.join (value : α) :
    f.Planted (h.join value x? y?) (some h.nextId) (.node value left right) where
  forest := by
    have below := (first.fits_left second value).isForest (second.forest.fresh value)
    exact (first.fits_right second value).isForest below
  grows := first.grows_join second value
  carries := first.carries_join second value
  new := by
    rintro n ⟨⟩
    by_contra old
    exact ne_nextId ((first.grows.trans second.grows).has _ (eq_true_of_ne_false old)) rfl
  unowned := by
    rintro n ⟨⟩
    have fits := first.fits_right second value
    have apart : y? ≠ some h.nextId := by
      rintro rfl
      exact fits.apart h.nextId rfl rfl
    rw [Forest.join, isOwned_hang fits.known, fits.top, beq_false_of_ne apart]
    rfl

end Operands

theorem IsForest.planted_plant (forest : f.IsForest) (t : Tree α) :
    f.Planted (f.plant t).2 (f.plant t).1 t := by
  induction t generalizing f with
  | nil => exact ⟨forest, .refl f, .vacant, by rintro n ⟨⟩, by rintro n ⟨⟩⟩
  | node value left right ihLeft ihRight =>
    have first := ihLeft forest
    have second := ihRight first.forest
    exact first.join second value

theorem IsForest.planted_copy (forest : f.IsForest) (slot : Option NodeId) :
    f.Planted (f.copy slot).2 (f.copy slot).1 (f.treeIn slot) :=
  forest.planted_plant (f.treeIn slot)

/-- Nothing that was in the store before is below a new node. -/
theorem Grows.new_of_below (grows : f.Grows g) (before : f.IsForest) (after : g.IsForest)
    (new : f.has n = false) {m : NodeId} (path : g.Below n m) : f.has m = false := by
  induction path with
  | refl => exact new
  | @tail k m _ link ih =>
    by_contra old
    have there := eq_true_of_ne_false old
    -- An old child has its parent among the old nodes, and no other.
    have owned : f.isOwned m = true := by
      rw [← grows.isOwned_eq m there]
      exact after.isOwned_iff.2 ⟨k, link⟩
    obtain ⟨parent, side, first⟩ := before.isOwned_iff.1 owned
    obtain ⟨side', second⟩ := link
    have known : f.has parent = true := by
      by_contra absent
      rw [child?, cell?_of_not_has (eq_false_of_ne_true absent)] at first
      cases first
    rw [← grows.child?_eq side parent known] at first
    obtain ⟨rfl, -⟩ := after.place_unique first second
    rw [ih] at known
    cases known

theorem Grows.treeIn_eq (grows : f.Grows g) (before : f.IsForest) (after : g.IsForest)
    (known : ∀ n ∈ slot, f.has n = true) : g.treeIn slot = f.treeIn slot :=
  after.treeIn_eq ((before.carries_treeIn known).mono grows.value?_eq grows.child?_eq)

/-- What is rewritten below a new node leaves the old nodes alone. -/
theorem Grows.rewritten (grows : f.Grows g) (before : f.IsForest) (after : g.IsForest)
    (new : f.has n = false) (same : g.SameBut n h) : f.Grows h where
  has m there := by rw [same.has_eq, grows.has m there]
  value?_eq m there := by
    rw [same.value?_eq m, grows.value?_eq m there]
    intro path
    rw [grows.new_of_below before after new path] at there
    cases there
  child?_eq side m there := by rw [same.child?_eq, grows.child?_eq side m there]
  isOwned_eq m there := by rw [same.isOwned_eq, grows.isOwned_eq m there]

end Reckoner.Forest
