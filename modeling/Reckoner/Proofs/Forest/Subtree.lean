import Mathlib.Data.Set.Card
import Reckoner.Proofs.Forest.Ownership

/-!
# What hangs below a node

Below every node of a forest hangs a finite tree: no node is below itself, so going down one leaves
fewer and fewer nodes below. Because a node has one place only, no node occurs twice in the tree. It
has therefore no more nodes than the store, which bounds every loop over it.
-/

set_option autoImplicit false

namespace Reckoner

namespace Tree

variable {α : Type}

/-- The three orders by recursion: the node before, between or after its subtrees. -/
def visits : Order → Tree α → List α
  | _, nil => []
  | .preorder, node value left right =>
    value :: (visits .preorder left ++ visits .preorder right)
  | .inorder, node value left right => visits .inorder left ++ value :: visits .inorder right
  | .postorder, node value left right =>
    visits .postorder left ++ visits .postorder right ++ [value]

def size : Tree α → Nat
  | nil => 0
  | node _ left right => left.size + right.size + 1

theorem visits_nil (order : Order) : (nil : Tree α).visits order = [] := by
  cases order <;> rfl

theorem visits_perm (order : Order) (t : Tree α) : (t.visits order).Perm (t.visits .preorder) := by
  induction t with
  | nil => rw [visits_nil, visits_nil]
  | node value left right ihLeft ihRight =>
    have both := ihLeft.append ihRight
    cases order with
    | preorder => exact .refl _
    | inorder => exact List.perm_middle.trans (both.cons value)
    | postorder => exact (List.perm_append_singleton value _).trans (both.cons value)

theorem length_visits (order : Order) (t : Tree α) : (t.visits order).length = t.size := by
  rw [(t.visits_perm order).length_eq]
  induction t with
  | nil => rfl
  | node value left right ihLeft ihRight =>
    rw [visits, List.length_cons, List.length_append, ihLeft, ihRight, size]

end Tree

namespace Forest

variable {α : Type} {f : Forest α} {n x m : NodeId} {slot : Option NodeId} {t : Tree NodeId}

/-- The tree consists of the nodes that hang in a slot, each at its place. -/
inductive Hangs (f : Forest α) : Option NodeId → Tree NodeId → Prop where
  | vacant : Hangs f none .nil
  | node {n : NodeId} {left right : Tree NodeId} :
    f.has n = true → Hangs f (f.child? .left n) left → Hangs f (f.child? .right n) right →
    Hangs f (some n) (.node n left right)

/-- The nodes below a node, without itself. -/
def descendants (f : Forest α) (n : NodeId) : Set NodeId := {m | Relation.TransGen f.HasChild n m}

theorem HasChild.below (h : f.HasChild n x) (path : f.Below x m) : f.Below n m :=
  Relation.ReflTransGen.head h path

theorem below_cases (h : f.Below n m) : m = n ∨ ∃ x : NodeId, f.HasChild n x ∧ f.Below x m := by
  rcases Relation.ReflTransGen.cases_head h with same | ⟨x, link, path⟩
  · exact .inl same.symm
  · exact .inr ⟨x, link, path⟩

theorem Hangs.mem_visits (h : f.Hangs slot t) :
    m ∈ t.visits .preorder ↔ ∃ n ∈ slot, f.Below n m := by
  induction h with
  | vacant => simp [Tree.visits]
  | @node n left right _ _ _ ihLeft ihRight =>
    rw [Tree.visits, List.mem_cons, List.mem_append, ihLeft, ihRight]
    constructor
    · rintro (rfl | ⟨x, link, path⟩ | ⟨x, link, path⟩)
      · exact ⟨m, rfl, .refl⟩
      · exact ⟨n, rfl, HasChild.below ⟨.left, link⟩ path⟩
      · exact ⟨n, rfl, HasChild.below ⟨.right, link⟩ path⟩
    · rintro ⟨_, ⟨⟩, path⟩
      rcases below_cases path with same | ⟨x, ⟨side, link⟩, path⟩
      · exact .inl same
      · cases side with
        | left => exact .inr (.inl ⟨x, link, path⟩)
        | right => exact .inr (.inr ⟨x, link, path⟩)

theorem Hangs.has (h : f.Hangs slot t) : ∀ m ∈ t.visits .preorder, f.has m = true := by
  induction h with
  | vacant => simp [Tree.visits]
  | node present _ _ ihLeft ihRight =>
    rw [Tree.visits]
    intro m member
    rcases List.mem_cons.1 member with rfl | member
    · exact present
    · rcases List.mem_append.1 member with member | member
      · exact ihLeft m member
      · exact ihRight m member

namespace IsForest

theorem finite_descendants (h : f.IsForest) (n : NodeId) : (f.descendants n).Finite := by
  refine (Set.finite_lt_nat f.size).subset fun m path => ?_
  obtain ⟨_, _, side, link⟩ := Relation.TransGen.tail'_iff.1 path
  exact of_decide_eq_true (h.has_of_child link)

theorem ncard_descendants_lt (h : f.IsForest) (link : f.HasChild n x) :
    (f.descendants x).ncard < (f.descendants n).ncard := by
  refine Set.ncard_lt_ncard ⟨fun m path => .head link path, fun all => ?_⟩
    (h.finite_descendants n)
  exact h.acyclic x (all (.single link))

theorem wellFounded (h : f.IsForest) : WellFounded fun x n => f.HasChild n x :=
  Subrelation.wf h.ncard_descendants_lt (measure fun n => (f.descendants n).ncard).wf

theorem exists_hangs (h : f.IsForest) (present : f.has n = true) :
    ∃ t : Tree NodeId, f.Hangs (some n) t := by
  induction n using h.wellFounded.induction with
  | _ n ih =>
    have below (side : Side) : ∃ t : Tree NodeId, f.Hangs (f.child? side n) t := by
      cases link : f.child? side n with
      | none => exact ⟨.nil, .vacant⟩
      | some x => exact ih x ⟨side, link⟩ (h.has_of_child link)
    obtain ⟨left, hangsLeft⟩ := below .left
    obtain ⟨right, hangsRight⟩ := below .right
    exact ⟨.node n left right, .node present hangsLeft hangsRight⟩

theorem below_or_below (h : f.IsForest) {a b : NodeId} (first : f.Below a m)
    (second : f.Below b m) : f.Below a b ∨ f.Below b a := by
  induction first with
  | refl => exact .inr second
  | @tail parent m path link ih =>
    rcases Relation.ReflTransGen.cases_tail second with same | ⟨other, path', link'⟩
    · exact .inl (same ▸ path.tail link)
    · obtain ⟨side, link⟩ := link
      obtain ⟨side', link'⟩ := link'
      obtain ⟨rfl, _⟩ := h.place_unique link link'
      exact ih path'

theorem not_below_of_hasChild (h : f.IsForest) (link : f.HasChild n x) : ¬ f.Below x n :=
  fun path => h.acyclic n (.head' link path)

theorem not_below_both (h : f.IsForest) {left right : NodeId}
    (linkLeft : f.child? .left n = some left) (linkRight : f.child? .right n = some right)
    (first : f.Below left m) : ¬ f.Below right m := by
  intro second
  have distinct : left ≠ right := by
    rintro rfl
    cases (h.place_unique linkLeft linkRight).2
  -- A way from one child to the other would lead through their parent.
  have apart {x y : NodeId} {side side' : Side} (link : f.child? side n = some x)
      (link' : f.child? side' n = some y) (path : f.Below x y) : x = y := by
    rcases Relation.ReflTransGen.cases_tail path with same | ⟨parent, path, _, last⟩
    · exact same.symm
    · obtain ⟨rfl, _⟩ := h.place_unique last link'
      exact absurd path (h.not_below_of_hasChild ⟨side, link⟩)
  rcases h.below_or_below first second with path | path
  · exact distinct (apart linkLeft linkRight path)
  · exact distinct (apart linkRight linkLeft path).symm

theorem nodup_visits (h : f.IsForest) (hangs : f.Hangs slot t) (order : Order) :
    (t.visits order).Nodup := by
  rw [(t.visits_perm order).nodup_iff]
  induction hangs with
  | vacant => exact List.nodup_nil
  | @node n left right present hangsLeft hangsRight ihLeft ihRight =>
    have above {side : Side} {t : Tree NodeId} (hangs : f.Hangs (f.child? side n) t) :
        n ∉ t.visits .preorder := by
      rw [hangs.mem_visits]
      rintro ⟨x, link, path⟩
      exact h.not_below_of_hasChild ⟨side, link⟩ path
    rw [Tree.visits, List.nodup_cons, List.mem_append, List.nodup_append]
    refine ⟨?_, ihLeft, ihRight, ?_⟩
    · rintro (inside | inside)
      · exact above hangsLeft inside
      · exact above hangsRight inside
    · rintro m first _ second rfl
      obtain ⟨_, linkLeft, path⟩ := hangsLeft.mem_visits.1 first
      obtain ⟨_, linkRight, path'⟩ := hangsRight.mem_visits.1 second
      exact h.not_below_both linkLeft linkRight path path'

theorem size_le (h : f.IsForest) (hangs : f.Hangs slot t) : t.size ≤ f.size := by
  have inside : (t.visits .preorder) ⊆ List.range f.size := fun m member =>
    List.mem_range.2 (of_decide_eq_true (hangs.has m member))
  have short := ((h.nodup_visits hangs .preorder).subperm inside).length_le
  rwa [Tree.length_visits, List.length_range] at short

end IsForest

end Forest

end Reckoner
