import Reckoner.Forest.Copy
import Reckoner.Proofs.Forest.Sweep

/-!
# Trees of values

The tree of values in a slot follows the children, however many levels they go down. `Forest.tree`
goes down as many levels as the store has nodes, and in a forest that is deep enough. So the tree
below a node holds the values that a walk comes by, and it stays where values and children stay.
-/

set_option autoImplicit false

namespace Reckoner.Forest

variable {α : Type} {f g : Forest α} {n : NodeId} {slot : Option NodeId} {t : Tree α}
  {shape : Tree NodeId}

/-- The tree consists of the values of the nodes that hang in a slot, each at its place. -/
inductive Carries (f : Forest α) : Option NodeId → Tree α → Prop where
  | vacant : Carries f none .nil
  | node {n : NodeId} {value : α} {left right : Tree α} :
    f.value? n = some value → Carries f (f.child? .left n) left →
    Carries f (f.child? .right n) right → Carries f (some n) (.node value left right)

theorem has_of_value? {value : α} (h : f.value? n = some value) : f.has n = true := by
  rw [← isSome_value?, h]
  rfl

theorem Carries.has (h : f.Carries (some n) t) : f.has n = true := by
  cases h with
  | node here _ _ => exact has_of_value? here

theorem Carries.mono (h : f.Carries slot t)
    (values : ∀ m : NodeId, f.has m = true → g.value? m = f.value? m)
    (children : ∀ (side : Side) (m : NodeId), f.has m = true → g.child? side m = f.child? side m) :
    g.Carries slot t := by
  induction h with
  | vacant => exact .vacant
  | @node n value left right here _ _ ihLeft ihRight =>
    have present := has_of_value? here
    rw [← children .left n present] at ihLeft
    rw [← children .right n present] at ihRight
    exact .node ((values n present).trans here) ihLeft ihRight

theorem Carries.toDepth (h : f.Carries slot t) {depth : Nat} (deep : t.size ≤ depth) :
    f.toDepth depth slot = t := by
  induction h generalizing depth with
  | vacant => cases depth <;> rfl
  | @node n value left right here _ _ ihLeft ihRight =>
    rw [Tree.size] at deep
    obtain ⟨rest, rfl⟩ := Nat.exists_eq_add_one.2 (Nat.lt_of_lt_of_le (Nat.succ_pos _) deep)
    rw [Forest.toDepth, here, ihLeft (by omega), ihRight (by omega)]

theorem Carries.exists_hangs (h : f.Carries slot t) :
    ∃ shape : Tree NodeId, f.Hangs slot shape ∧ shape.size = t.size := by
  induction h with
  | vacant => exact ⟨.nil, .vacant, rfl⟩
  | @node n value left right here _ _ ihLeft ihRight =>
    obtain ⟨shapeLeft, hangsLeft, sameLeft⟩ := ihLeft
    obtain ⟨shapeRight, hangsRight, sameRight⟩ := ihRight
    refine ⟨.node n shapeLeft shapeRight, .node (has_of_value? here) hangsLeft hangsRight, ?_⟩
    rw [Tree.size, Tree.size, sameLeft, sameRight]

theorem Hangs.exists_carries (h : f.Hangs slot shape) :
    ∃ t : Tree α, f.Carries slot t ∧
      ∀ order : Order, t.values order = (shape.visits order).filterMap f.value? := by
  induction h with
  | vacant =>
    refine ⟨.nil, .vacant, fun order => ?_⟩
    rw [Tree.visits_nil]
    rfl
  | @node n shapeLeft shapeRight present _ _ ihLeft ihRight =>
    obtain ⟨value, here⟩ := exists_value? present
    obtain ⟨left, carriesLeft, sameLeft⟩ := ihLeft
    obtain ⟨right, carriesRight, sameRight⟩ := ihRight
    refine ⟨.node value left right, .node here carriesLeft carriesRight, fun order => ?_⟩
    cases order <;>
      simp [Tree.values, Order.arrange, Tree.visits, sameLeft, sameRight, here]

theorem tree_eq_treeIn (f : Forest α) (n : NodeId) : f.tree n = f.treeIn (some n) := rfl

@[simp] theorem treeIn_none (f : Forest α) : f.treeIn none = .nil := by
  rw [treeIn]
  cases f.size <;> rfl

namespace IsForest

theorem treeIn_eq (h : f.IsForest) (carries : f.Carries slot t) : f.treeIn slot = t := by
  obtain ⟨shape, hangs, same⟩ := carries.exists_hangs
  exact carries.toDepth (same ▸ h.size_le hangs)

theorem tree_eq (h : f.IsForest) (carries : f.Carries (some n) t) : f.tree n = t :=
  h.treeIn_eq carries

theorem carries_treeIn (h : f.IsForest) (known : ∀ n ∈ slot, f.has n = true) :
    f.Carries slot (f.treeIn slot) := by
  have exists_carries : ∃ t : Tree α, f.Carries slot t := by
    cases slot with
    | none => exact ⟨.nil, .vacant⟩
    | some n =>
      obtain ⟨_, hangs⟩ := h.exists_hangs (known n rfl)
      obtain ⟨t, carries, _⟩ := hangs.exists_carries
      exact ⟨t, carries⟩
  obtain ⟨t, carries⟩ := exists_carries
  rwa [h.treeIn_eq carries]

theorem treeIn_some (h : f.IsForest) {value : α} (here : f.value? n = some value) :
    f.treeIn (some n) =
      .node value (f.treeIn (f.child? .left n)) (f.treeIn (f.child? .right n)) := by
  have below (side : Side) : f.Carries (f.child? side n) (f.treeIn (f.child? side n)) :=
    h.carries_treeIn fun _ link => h.has_of_child link
  exact h.treeIn_eq (.node here (below .left) (below .right))

theorem values_tree (h : f.IsForest) (present : f.has n = true) (order : Order) :
    (f.tree n).values order = f.values order n := by
  obtain ⟨shape, hangs, walked, _⟩ := h.exists_walk present order
  obtain ⟨t, carries, same⟩ := hangs.exists_carries
  rw [h.tree_eq carries, same, values, walked]

end IsForest

/-- A tree of which no node has been rewritten is as it was. -/
theorem SameBut.treeIn_eq (same : f.SameBut n g)
    (apart : ∀ x ∈ slot, ∀ k : NodeId, f.Below x k → ¬ f.Below n k) :
    g.treeIn slot = f.treeIn slot := by
  rw [treeIn, treeIn, same.size_eq, ← Tree.map_id (f.toDepth f.size slot)]
  apply toDepth_map same.child?_eq
  rintro k ⟨x, found, below⟩
  rw [same.value?_eq k (apart x found k below), Option.map_id, id]

end Reckoner.Forest
