import Reckoner.Proofs.Forest.Subtree

/-!
# The search for a node below another

The search takes one turn for each node it looks at, and looks at no node twice. So in a forest it
ends before its turns run out, and finds the node just if it is there. This makes the refusals exact:
a node may become a child just if it has no place and the new parent is not below it.
-/

set_option autoImplicit false

namespace Reckoner.Forest

variable {α : Type} {f : Forest α} {n x target : NodeId}

/-- The agenda and all that is below it have so many nodes, each counted for every way to it. -/
inductive Weighs (f : Forest α) : List NodeId → Nat → Prop where
  | nil : Weighs f [] 0
  | cons {n : NodeId} {t : Tree NodeId} {rest : List NodeId} {weight : Nat} :
    f.Hangs (some n) t → Weighs f rest weight → Weighs f (n :: rest) (t.size + weight)

theorem Weighs.append {slot : Option NodeId} {t : Tree NodeId} {rest : List NodeId} {weight : Nat}
    (hangs : f.Hangs slot t) (h : f.Weighs rest weight) :
    f.Weighs (slot.toList ++ rest) (t.size + weight) := by
  cases slot with
  | none =>
    cases hangs
    simpa [Tree.size] using h
  | some n => exact .cons hangs h

theorem finds?_ne_none {turns weight : Nat} {agenda : List NodeId} (h : f.Weighs agenda weight)
    (enough : weight ≤ turns) : f.finds? target turns agenda ≠ none := by
  induction turns generalizing agenda weight with
  | zero =>
    cases h with
    | nil => simp [finds?]
    | cons hangs _ =>
      cases hangs
      simp [Tree.size] at enough
  | succ turns ih =>
    cases h with
    | nil => simp [finds?]
    | cons hangs later =>
      cases hangs with
      | node _ left right =>
        rw [finds?]
        split
        · simp
        · rw [List.append_assoc]
          refine ih ((later.append left).append right) ?_
          simp only [Tree.size] at enough
          omega

theorem below_of_finds? {turns : Nat} {agenda : List NodeId}
    (h : f.finds? target turns agenda = some true) : ∃ m ∈ agenda, f.Below m target := by
  induction turns generalizing agenda with
  | zero => cases agenda <;> cases h
  | succ turns ih =>
    cases agenda with
    | nil => cases h
    | cons m rest =>
      rw [finds?] at h
      split at h
      · rename_i found
        exact ⟨m, List.mem_cons_self, found ▸ .refl⟩
      · obtain ⟨other, inside, path⟩ := ih h
        simp only [List.mem_append, Option.mem_toList] at inside
        rcases inside with (link | link) | later
        · exact ⟨m, List.mem_cons_self, HasChild.below ⟨.right, link⟩ path⟩
        · exact ⟨m, List.mem_cons_self, HasChild.below ⟨.left, link⟩ path⟩
        · exact ⟨other, List.mem_cons_of_mem m later, path⟩

namespace IsForest

theorem exists_finds? (h : f.IsForest) (present : f.has x = true) (n : NodeId) {turns : Nat}
    (enough : f.size ≤ turns) :
    ∃ found : Bool, f.finds? n turns [x] = some found ∧ (found = true ↔ f.Below x n) := by
  obtain ⟨t, hangs⟩ := h.exists_hangs present
  have ends : f.finds? n turns [x] ≠ none :=
    finds?_ne_none (.cons hangs .nil) (Nat.le_trans (h.size_le hangs) enough)
  obtain ⟨found, ended⟩ := Option.ne_none_iff_exists'.1 ends
  refine ⟨found, ended, ?_⟩
  constructor
  · rintro rfl
    obtain ⟨m, member, path⟩ := below_of_finds? ended
    obtain rfl := List.mem_singleton.1 member
    exact path
  · intro path
    by_contra missed
    rw [Bool.eq_false_of_not_eq_true missed] at ended
    exact not_below_of_finds? ended x List.mem_cons_self path

theorem exists_contains? (h : f.IsForest) (present : f.has x = true) (n : NodeId) :
    ∃ found : Bool, f.contains? x n = some found ∧ (found = true ↔ f.Below x n) :=
  h.exists_finds? present n (Nat.le_refl f.size)

/-- Leaving out the search for a leaf does no harm: only the leaf itself is below it. -/
theorem isBelow_iff (h : f.IsForest) (present : f.has x = true) :
    (x = n ∨ f.isBelow x n = true) ↔ f.Below x n := by
  constructor
  · rintro (rfl | found)
    · exact .refl
    · obtain ⟨answer, ended, exact⟩ := h.exists_contains? present n
      rw [isBelow, ended, Option.getD_some, Bool.and_eq_true] at found
      exact exact.1 found.2
  · intro path
    by_contra other
    obtain ⟨apart, missed⟩ := not_or.1 other
    exact not_below_of_isBelow apart (Bool.eq_false_of_not_eq_true missed) path

theorem isOwned_iff (h : f.IsForest) : f.isOwned x = true ↔ ∃ m : NodeId, f.HasChild m x := by
  rw [h.owned_iff]
  constructor
  · rintro ⟨side, m, link⟩
    exact ⟨m, side, link⟩
  · rintro ⟨m, side, link⟩
    exact ⟨side, m, link⟩

end IsForest

/-- Why a node cannot become a child of another: it has a parent, or it is that node or has it in its
subtree. -/
inductive Objection (f : Forest α) (n x : NodeId) : Refusal → Prop where
  | attached {m : NodeId} : f.HasChild m x → Objection f n x .alreadyAttached
  | beneath : (∀ m : NodeId, ¬ f.HasChild m x) → x = n ∨ f.Below x n →
    Objection f n x .beneathItself

theorem exists_objection_iff :
    (∃ r : Refusal, f.Objection n x r) ↔ (∃ m : NodeId, f.HasChild m x) ∨ x = n ∨ f.Below x n := by
  constructor
  · rintro ⟨_, link | ⟨_, above⟩⟩
    · exact .inl ⟨_, link⟩
    · exact .inr above
  · by_cases parent : ∃ m : NodeId, f.HasChild m x
    · obtain ⟨m, link⟩ := parent
      exact fun _ => ⟨_, .attached link⟩
    · rintro (link | above)
      · exact absurd link parent
      · exact ⟨_, .beneath (not_exists.1 parent) above⟩

theorem Objection.unique {r r' : Refusal} (h : f.Objection n x r) (h' : f.Objection n x r') :
    r = r' := by
  cases h with
  | attached link =>
    cases h' with
    | attached => rfl
    | beneath none _ => exact absurd link (none _)
  | beneath none _ =>
    cases h' with
    | attached link => exact absurd link (none _)
    | beneath => rfl

namespace IsForest

variable {r : Refusal}

theorem adoptable_eq_error_iff (h : f.IsForest) (parent : f.has n = true) (child : f.has x = true) :
    f.adoptable n x = .error r ↔ f.Objection n x r := by
  have objection {r : Refusal} (refused : f.adoptable n x = .error r) : f.Objection n x r := by
    rw [adoptable, if_neg (by simp [parent, child])] at refused
    split at refused
    · rename_i owned
      cases refused
      obtain ⟨m, link⟩ := h.isOwned_iff.1 owned
      exact .attached link
    · rename_i unowned
      split at refused
      · rename_i above
        cases refused
        exact .beneath (fun m link => unowned (h.isOwned_iff.2 ⟨m, link⟩))
          (.inr ((h.isBelow_iff child).1 above))
      · cases refused
  refine ⟨objection, fun reason => ?_⟩
  cases allowed : f.adoptable n x with
  | error other => rw [(objection allowed).unique reason]
  | ok _ =>
    -- What is adoptable may be linked, and there is no reason against that.
    have free := linkable_of_adoptable allowed
    cases reason with
    | attached link =>
      have owned := h.isOwned_iff.2 ⟨_, link⟩
      rw [free.unowned] at owned
      cases owned
    | beneath _ above =>
      rcases above with rfl | path
      · exact absurd .refl free.apart
      · exact absurd path free.apart

theorem adoptable_eq_ok_iff (h : f.IsForest) (parent : f.has n = true) (child : f.has x = true) :
    f.adoptable n x = .ok () ↔ ∀ r : Refusal, ¬ f.Objection n x r := by
  simp only [← h.adoptable_eq_error_iff parent child]
  cases f.adoptable n x <;> simp

end IsForest

end Reckoner.Forest
