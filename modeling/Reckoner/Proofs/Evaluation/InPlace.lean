import Reckoner.Proofs.Evaluation.Substitution
import Reckoner.Proofs.Forest.Growth

/-!
# Evaluation in place

To evaluate a tree in its store comes to what evaluating the tree by itself does, and leaves the
rewritten tree behind; nothing but values below the root is changed. So the tree of a copy can be
evaluated while all the trees that were there before stay as they are.
-/

set_option autoImplicit false

namespace Reckoner.Forest

variable {f g : Forest Token} {pool : Pool} {n x : NodeId} {slot : Option NodeId} {root : Token}

section Value

variable (h : f.IsForest) (pool : Pool)
include h

theorem IsForest.fst_valueOf (known : ∀ x ∈ slot, f.has x = true) :
    (f.valueOf pool slot).1 = Expr.valueOf pool (f.treeIn slot) := by
  cases slot with
  | none =>
    rw [treeIn_none]
    rfl
  | some x =>
    have present := known x rfl
    obtain ⟨root, here⟩ := exists_value? present
    have rewritten : (f.valueOf pool (some x)).1 = Expr.calculate (Expr.substitute pool (f.tree x)) :=
      congrArg Expr.calculate (tree_substitute h present pool)
    rw [rewritten, tree_eq_treeIn, h.treeIn_some here]
    rfl

theorem IsForest.treeIn_valueOf (known : ∀ x ∈ slot, f.has x = true) :
    (f.valueOf pool slot).2.treeIn slot = Expr.substitute pool (f.treeIn slot) := by
  cases slot with
  | none =>
    rw [treeIn_none, treeIn_none]
    rfl
  | some x => exact tree_substitute h (known x rfl) pool

end Value

section Root

variable (here : f.value? n = some root)
include here

theorem evaluate_assignment (assigns : root.kind = .operator .equal) :
    f.evaluate pool (some n) =
      ((f.valueOf pool (f.child? .right n)).1.bind fun value =>
        (Expr.target root ((f.valueOf pool (f.child? .right n)).2.treeIn
          ((f.valueOf pool (f.child? .right n)).2.child? .left n))).map fun name => ⟨name, value⟩,
        (f.valueOf pool (f.child? .right n)).2) := by
  rw [evaluate]
  simp only [here, assigns]

theorem evaluate_whole (plain : Expr.isPlain root.kind = true) :
    f.evaluate pool (some n) =
      ((f.valueOf pool (some n)).1.map fun value => ⟨Pool.answer, value⟩,
        (f.valueOf pool (some n)).2) := by
  rw [evaluate]
  simp only [here]
  cases kind : root.kind with
  | number | identifier => rfl
  | opening | closing => rw [kind] at plain; cases plain
  | operator op =>
    rw [kind] at plain
    cases op with
    | plus | minus | star | slash => rfl
    | percent | equal => cases plain

theorem evaluate_unsupported (assigns : root.kind ≠ .operator .equal)
    (plain : Expr.isPlain root.kind = false) :
    f.evaluate pool (some n) = (Expr.failAt .unsupportedRoot root.span, f) := by
  rw [evaluate]
  simp only [here]
  cases kind : root.kind with
  | number | identifier => rw [kind] at plain; cases plain
  | opening | closing => rfl
  | operator op =>
    rw [kind] at plain assigns
    cases op with
    | plus | minus | star | slash => cases plain
    | percent => rfl
    | equal => exact absurd rfl assigns

end Root

/-- Neither the root of an assignment nor its left side is rewritten. -/
theorem IsForest.valueOf_right (h : f.IsForest) (pool : Pool) (here : f.value? n = some root) :
    f.SameBut n (f.valueOf pool (f.child? .right n)).2 ∧
      (f.valueOf pool (f.child? .right n)).2.value? n = some root ∧
      (f.valueOf pool (f.child? .right n)).2.treeIn (f.child? .left n) =
        f.treeIn (f.child? .left n) := by
  cases link : f.child? .right n with
  | none => exact ⟨.refl f n, here, rfl⟩
  | some x =>
    have parent : f.HasChild n x := ⟨.right, link⟩
    have same := h.sameBut_sweep (h.has_of_child link) .preorder (Token.substitute pool)
    refine ⟨same.above (parent.below .refl), ?_, same.treeIn_eq ?_⟩
    · exact (same.value?_eq n (h.not_below_of_hasChild parent)).trans here
    · intro y found k first second
      exact h.not_below_both found link first second

/-- The outcome is that of the tree, the tree is rewritten as the outcome says, and only values of the
tree are changed. -/
theorem IsForest.evaluate_eq (h : f.IsForest) (present : f.has n = true) (pool : Pool) :
    (f.evaluate pool (some n)).1 = (Expr.evaluate pool (f.tree n)).result ∧
      (f.evaluate pool (some n)).2.tree n = (Expr.evaluate pool (f.tree n)).tree ∧
      f.SameBut n (f.evaluate pool (some n)).2 := by
  obtain ⟨root, here⟩ := exists_value? present
  have divided := h.treeIn_some here
  have known (side : Side) : ∀ x ∈ f.child? side n, f.has x = true := fun _ link =>
    h.has_of_child link
  by_cases assigns : root.kind = .operator .equal
  · obtain ⟨same, kept, left⟩ := h.valueOf_right pool here
    have right := h.treeIn_valueOf pool (known .right)
    have value := h.fst_valueOf pool (known .right)
    rw [evaluate_assignment here assigns, tree_eq_treeIn, tree_eq_treeIn, divided,
      Expr.evaluate_assignment assigns, (same.isForest h).treeIn_some kept, same.child?_eq,
      same.child?_eq, left, right, value]
    exact ⟨rfl, rfl, same⟩
  cases plain : Expr.isPlain root.kind with
  | true =>
    have all : ∀ x ∈ some n, f.has x = true := by
      rintro x ⟨⟩
      exact present
    have value := h.fst_valueOf pool all
    have rewritten := h.treeIn_valueOf pool all
    rw [evaluate_whole here plain, tree_eq_treeIn, tree_eq_treeIn, value, rewritten, divided,
      Expr.evaluate_whole plain]
    exact ⟨rfl, rfl, h.sameBut_sweep present .preorder (Token.substitute pool)⟩
  | false =>
    rw [evaluate_unsupported here assigns plain, tree_eq_treeIn, divided,
      Expr.evaluate_unsupported assigns plain]
    exact ⟨rfl, rfl, .refl f n⟩

/-- Evaluating a tree that has been planted, such as a copy, leaves everything as it was that had been
in the store before. -/
theorem Planted.evaluate {tree : Expr} (planted : f.Planted g slot tree) (before : f.IsForest)
    (pool : Pool) :
    (g.evaluate pool slot).1 = (Expr.evaluate pool tree).result ∧
      f.Grows (g.evaluate pool slot).2 ∧ (g.evaluate pool slot).2.IsForest := by
  cases slot with
  | none =>
    cases planted.carries
    exact ⟨rfl, planted.grows, planted.forest⟩
  | some n =>
    obtain ⟨outcome, -, same⟩ := planted.forest.evaluate_eq planted.carries.has pool
    rw [planted.forest.tree_eq planted.carries] at outcome
    have kept := planted.grows.rewritten before planted.forest (planted.new n rfl) same
    exact ⟨outcome, kept, same.isForest planted.forest⟩

end Reckoner.Forest
