import Reckoner.Forest.Walk
import Reckoner.Proofs.Forest.Subtree

/-!
# Walks are the recursive orders

A walk works off an agenda. Whatever comes later on the agenda waits until what comes before is done,
and so what is done for two parts of an agenda is what is done for the one and then for the other. By
induction on the tree below a node, to enter the node is to visit the tree in the order that recursion
gives. Each node takes two turns, one to enter it and one to visit it.
-/

set_option autoImplicit false

namespace Reckoner.Forest

variable {α : Type} {f : Forest α} {order : Order} {n : NodeId}
  {agenda agenda' : List Task} {nodes nodes' : List NodeId} {cost cost' : Nat}

/-- Whatever comes after it, the agenda visits these nodes first and takes so many turns for that. -/
def Does (f : Forest α) (order : Order) (agenda : List Task) (nodes : List NodeId) (cost : Nat) :
    Prop :=
  ∀ (turns : Nat) (rest : List Task),
    f.visited? order (turns + cost) (agenda ++ rest) =
      (f.visited? order turns rest).map (nodes ++ ·)

namespace Does

theorem nil : f.Does order [] [] 0 := by
  intro turns rest
  exact Option.map_id'.symm

theorem append (h : f.Does order agenda nodes cost) (h' : f.Does order agenda' nodes' cost') :
    f.Does order (agenda ++ agenda') (nodes ++ nodes') (cost + cost') := by
  intro turns rest
  calc f.visited? order (turns + (cost + cost')) (agenda ++ agenda' ++ rest)
      = f.visited? order (turns + cost' + cost) (agenda ++ (agenda' ++ rest)) := by
        rw [Nat.add_assoc, Nat.add_comm cost', List.append_assoc]
    _ = ((f.visited? order turns rest).map (nodes' ++ ·)).map (nodes ++ ·) := by
        rw [h, h']
    _ = (f.visited? order turns rest).map (nodes ++ nodes' ++ ·) := by
        rw [Option.map_map]
        congr 1
        funext later
        exact (List.append_assoc nodes nodes' later).symm

theorem visit (n : NodeId) : f.Does order [.visit n] [n] 1 :=
  fun _ _ => rfl

theorem enter (h : f.Does order (f.tasks order n) nodes cost) :
    f.Does order [.enter n] nodes (cost + 1) :=
  fun turns rest => h turns rest

theorem of_cost (h : f.Does order agenda nodes cost) (same : cost = cost') :
    f.Does order agenda nodes cost' :=
  same ▸ h

theorem visited? (h : f.Does order agenda nodes cost) {turns : Nat} (enough : cost ≤ turns) :
    f.visited? order turns agenda = some nodes := by
  obtain ⟨spare, rfl⟩ := Nat.exists_eq_add_of_le' enough
  have done : f.visited? order spare [] = some [] := by cases spare <;> rfl
  have all := h spare []
  rwa [done, List.append_nil, Option.map_some, List.append_nil] at all

end Does

/-- To enter a slot is to visit the tree in it, node by node in the order of the walk. -/
theorem Hangs.does {slot : Option NodeId} {t : Tree NodeId} (h : f.Hangs slot t) :
    f.Does order (slot.toList.map .enter) (t.visits order) (2 * t.size) := by
  induction h with
  | vacant =>
    rw [Tree.visits_nil]
    exact .nil
  | @node n left right _ _ _ ihLeft ihRight =>
    rw [Tree.size, Nat.mul_add, Nat.mul_add, Nat.mul_one]
    apply Does.enter
    cases order with
    | preorder => exact (((Does.visit n).append ihLeft).append ihRight).of_cost (by omega)
    | inorder =>
      rw [Tree.visits, List.append_cons]
      exact ((ihLeft.append (.visit n)).append ihRight).of_cost (by omega)
    | postorder => exact (ihLeft.append ihRight).append (.visit n)

/-- Below every node of a forest hangs a tree. A walk ends within two turns for each node of the tree,
which the store always leaves it. It visits the nodes as the recursive order does, hence every node
below once and no other. -/
theorem walk_eq_visits (h : f.IsForest) (present : f.has n = true) (order : Order) :
    ∃ t : Tree NodeId, f.Hangs (some n) t ∧
      (∀ turns : Nat, 2 * t.size ≤ turns → f.visited? order turns [.enter n] = some (t.visits order)) ∧
      2 * t.size ≤ f.turns ∧
      f.walk order n = t.visits order ∧
      (f.walk order n).Nodup ∧
      ∀ m : NodeId, m ∈ f.walk order n ↔ f.Below n m := by
  obtain ⟨t, hangs⟩ := h.exists_hangs present
  have enough : 2 * t.size ≤ f.turns := Nat.mul_le_mul_left 2 (h.size_le hangs)
  have ends {turns : Nat} (enough : 2 * t.size ≤ turns) :
      f.visited? order turns [.enter n] = some (t.visits order) := hangs.does.visited? enough
  have walked : f.walk order n = t.visits order := by rw [walk, ends enough, Option.getD_some]
  refine ⟨t, hangs, fun _ => ends, enough, walked, ?_, fun m => ?_⟩
  · rw [walked]
    exact h.nodup_visits hangs order
  · rw [walked, (t.visits_perm order).mem_iff, hangs.mem_visits]
    simp

/-- A tree that bends to and fro, beside another one. -/
theorem walk_eq_visits_bent :
    let f := (empty : Forest Int).editAll
      [.fresh 1, .create .left 0 2, .fresh 3, .create .right 1 4, .create .left 3 5, .create .right 0 6]
    f.IsForest ∧ f.has 0 = true ∧
      ∃ t : Tree NodeId, f.Hangs (some 0) t ∧ f.walk .inorder 0 = t.visits .inorder ∧
        t.visits .inorder = [1, 4, 3, 0, 5] := by
  intro f
  have forest : f.IsForest := IsForest.empty.editAll _
  have present : f.has 0 = true := by decide
  obtain ⟨t, hangs, _, _, walked, _⟩ := walk_eq_visits forest present .inorder
  have nodes : f.walk .inorder 0 = [1, 4, 3, 0, 5] := by decide
  exact ⟨forest, present, t, hangs, walked, walked ▸ nodes⟩

end Reckoner.Forest
