import Mathlib.Logic.Relation
import Reckoner.Forest.Edit

/-!
# Stores of nodes are forests

Whatever changes are made to an empty store, refused ones among them, it stays a forest: no node
has two places, a node is marked just if it has one, and no node is below itself. Only two things
happen to links. A child is taken out, which loses links, or a node without a place is linked below
another one that the search has not found below it, and so the new link closes no cycle.
-/

set_option autoImplicit false

namespace Reckoner.Forest

variable {α : Type} {f : Forest α} {side : Side} {n x : NodeId}

def HasChild (f : Forest α) (n x : NodeId) : Prop := ∃ side : Side, f.child? side n = some x

/-- `x` is `n` or can be reached from it through children. -/
def Below (f : Forest α) (n x : NodeId) : Prop := Relation.ReflTransGen f.HasChild n x

structure IsForest (f : Forest α) : Prop where
  has_of_child : ∀ {side : Side} {n x : NodeId}, f.child? side n = some x → f.has x = true
  place_unique : ∀ {side side' : Side} {n n' x : NodeId},
    f.child? side n = some x → f.child? side' n' = some x → n = n' ∧ side = side'
  owned_iff : ∀ x : NodeId,
    f.isOwned x = true ↔ ∃ (side : Side) (n : NodeId), f.child? side n = some x
  acyclic : ∀ n : NodeId, ¬ Relation.TransGen f.HasChild n n

structure Linkable (f : Forest α) (n x : NodeId) : Prop where
  has_parent : f.has n = true
  has_child : f.has x = true
  unowned : f.isOwned x = false
  apart : ¬ f.Below x n

section Search

theorem not_below_of_finds? {target : NodeId} {turns : Nat} {agenda : List NodeId}
    (h : f.finds? target turns agenda = some false) :
    ∀ m ∈ agenda, ¬ f.Below m target := by
  induction turns generalizing agenda with
  | zero =>
    cases agenda with
    | nil => simp
    | cons m rest => cases h
  | succ turns ih =>
    cases agenda with
    | nil => simp
    | cons m rest =>
      rw [finds?] at h
      by_cases found : m = target
      · simp [found] at h
      · rw [if_neg found] at h
        have searched := ih h
        intro other inside
        rcases List.mem_cons.1 inside with rfl | later
        · intro below
          rcases Relation.ReflTransGen.cases_head below with same | ⟨child, ⟨side, link⟩, path⟩
          · exact found same
          · apply searched child _ path
            cases side <;> simp [link]
        · exact searched other (by simp [later])

theorem not_below_of_isBelow (apart : x ≠ n) (h : f.isBelow x n = false) : ¬ f.Below x n := by
  unfold isBelow at h
  cases leaf : f.isLeaf x with
  | true =>
    -- A leaf is not searched: nothing but itself is below it.
    simp only [isLeaf, Bool.and_eq_true, Option.isNone_iff_eq_none] at leaf
    intro below
    rcases Relation.ReflTransGen.cases_head below with same | ⟨child, ⟨side, link⟩, _⟩
    · exact apart same
    · cases side
      · rw [leaf.1] at link
        cases link
      · rw [leaf.2] at link
        cases link
  | false =>
    have ended : f.finds? n f.size [x] = some false := by
      unfold contains? at h
      cases found : f.finds? n f.size [x] with
      | none => simp [leaf, found] at h
      | some answer => simpa [leaf, found] using h
    exact not_below_of_finds? ended x (by simp)

theorem linkable_of_adoptable (h : f.adoptable n x = .ok ()) : f.Linkable n x := by
  unfold adoptable at h
  by_cases known : (!f.has n || !f.has x) = true
  · simp [known] at h
  rw [if_neg known] at h
  by_cases owned : f.isOwned x = true
  · simp [owned] at h
  rw [if_neg owned] at h
  by_cases above : x = n ∨ f.isBelow x n = true
  · simp [above] at h
  obtain ⟨apart, below⟩ := not_or.1 above
  simp only [Bool.not_eq_true, Bool.or_eq_false_iff, Bool.not_eq_false'] at known
  exact ⟨known.1, known.2, eq_false_of_ne_true owned,
    not_below_of_isBelow apart (eq_false_of_ne_true below)⟩

end Search

/-- A new link adds only those paths that lead through it. -/
theorem transGen_of_link {r r' : NodeId → NodeId → Prop}
    (step : ∀ a b : NodeId, r' a b → r a b ∨ (a = n ∧ b = x)) {a b : NodeId}
    (h : Relation.TransGen r' a b) :
    Relation.TransGen r a b ∨ (Relation.ReflTransGen r a n ∧ Relation.ReflTransGen r x b) := by
  induction h with
  | single link =>
    rcases step _ _ link with old | ⟨rfl, rfl⟩
    · exact .inl (.single old)
    · exact .inr ⟨.refl, .refl⟩
  | tail _ link ih =>
    rcases step _ _ link with old | ⟨rfl, rfl⟩
    · rcases ih with path | ⟨above, below⟩
      · exact .inl (path.tail old)
      · exact .inr ⟨above, below.tail old⟩
    · rcases ih with path | ⟨above, _⟩
      · exact .inr ⟨path.to_reflTransGen, .refl⟩
      · exact .inr ⟨above, .refl⟩

theorem hasChild_take_le : (f.take side n).HasChild ≤ f.HasChild := by
  rintro m y ⟨other, link⟩
  rw [child?_take] at link
  split at link
  · cases link
  · exact ⟨other, link⟩

theorem hasChild_of_link (present : f.has n = true) {m y : NodeId}
    (h : (f.link side n x).HasChild m y) : f.HasChild m y ∨ (m = n ∧ y = x) := by
  obtain ⟨other, link⟩ := h
  rw [child?_link side other m present] at link
  split at link
  · rename_i here
    cases link
    exact .inr ⟨here.1.symm, rfl⟩
  · exact .inl ⟨other, link⟩

theorem Linkable.take (h : f.Linkable n x) : (f.take side n).Linkable n x where
  has_parent := by rw [has_take]; exact h.has_parent
  has_child := by rw [has_take]; exact h.has_child
  unowned := by rw [isOwned_take, h.unowned, Bool.false_and]
  apart := fun below => h.apart (Relation.ReflTransGen.mono hasChild_take_le _ _ below)

namespace IsForest

theorem empty : (Forest.empty : Forest α).IsForest where
  has_of_child := by simp [child?, cell?, Forest.empty]
  place_unique := by simp [child?, cell?, Forest.empty]
  owned_iff := by simp [isOwned, child?, cell?, Forest.empty]
  acyclic := by
    intro n path
    obtain ⟨m, ⟨side, link⟩, _⟩ := Relation.TransGen.head'_iff.1 path
    simp [child?, cell?, Forest.empty] at link

theorem fresh (h : f.IsForest) (value : α) : (f.fresh value).IsForest where
  has_of_child := by
    intro side n x link
    rw [child?_fresh] at link
    simp [h.has_of_child link]
  place_unique := by
    intro side side' n n' x link link'
    rw [child?_fresh] at link link'
    exact h.place_unique link link'
  owned_iff := by
    intro x
    simp only [isOwned_fresh, child?_fresh]
    exact h.owned_iff x
  acyclic := by
    have same : (f.fresh value).HasChild = f.HasChild := by
      funext n x
      simp [HasChild]
    rw [same]
    exact h.acyclic

theorem take (h : f.IsForest) (side : Side) (n : NodeId) : (f.take side n).IsForest where
  has_of_child := by
    intro other m x link
    obtain ⟨side', old⟩ := hasChild_take_le m x ⟨other, link⟩
    rw [has_take]
    exact h.has_of_child old
  place_unique := by
    intro side₁ side₂ m₁ m₂ x link₁ link₂
    rw [child?_take] at link₁ link₂
    split at link₁
    · cases link₁
    · split at link₂
      · cases link₂
      · exact h.place_unique link₁ link₂
  owned_iff := by
    intro x
    simp only [isOwned_take, child?_take, Bool.and_eq_true, bne_iff_ne, ne_eq]
    constructor
    · rintro ⟨owned, kept⟩
      obtain ⟨other, m, link⟩ := (h.owned_iff x).1 owned
      refine ⟨other, m, ?_⟩
      rw [if_neg]
      · exact link
      · rintro ⟨rfl, rfl⟩
        exact kept link
    · rintro ⟨other, m, link⟩
      split at link
      · cases link
      · rename_i elsewhere
        refine ⟨(h.owned_iff x).2 ⟨other, m, link⟩, ?_⟩
        intro taken
        exact elsewhere (h.place_unique taken link)
  acyclic := fun m path => h.acyclic m (Relation.TransGen.mono hasChild_take_le _ _ path)

theorem link (h : f.IsForest) (vacant : f.child? side n = none) (free : f.Linkable n x) :
    (f.link side n x).IsForest where
  has_of_child := by
    intro other m y link
    rw [has_link]
    rcases hasChild_of_link free.has_parent ⟨other, link⟩ with ⟨side', old⟩ | ⟨_, rfl⟩
    · exact h.has_of_child old
    · exact free.has_child
  place_unique := by
    -- The new child had no place, so it has the new one only.
    have placeless (other : Side) (m : NodeId) : f.child? other m ≠ some x := by
      intro link
      have owned := (h.owned_iff x).2 ⟨other, m, link⟩
      rw [free.unowned] at owned
      cases owned
    intro side₁ side₂ m₁ m₂ y link₁ link₂
    rw [child?_link side _ _ free.has_parent] at link₁ link₂
    split at link₁ <;> split at link₂
    · rename_i here₁ here₂
      exact ⟨here₁.1.symm.trans here₂.1, here₁.2.symm.trans here₂.2⟩
    · cases link₁
      exact absurd link₂ (placeless _ _)
    · cases link₂
      exact absurd link₁ (placeless _ _)
    · exact h.place_unique link₁ link₂
  owned_iff := by
    intro y
    rw [isOwned_link side y free.has_child, Bool.or_eq_true, beq_iff_eq]
    simp only [child?_link side _ _ free.has_parent]
    constructor
    · rintro (rfl | owned)
      · exact ⟨side, n, by simp⟩
      · obtain ⟨other, m, link⟩ := (h.owned_iff y).1 owned
        refine ⟨other, m, ?_⟩
        rw [if_neg]
        · exact link
        · rintro ⟨rfl, rfl⟩
          rw [vacant] at link
          cases link
    · rintro ⟨other, m, link⟩
      split at link
      · cases link
        exact .inl rfl
      · exact .inr ((h.owned_iff y).2 ⟨other, m, link⟩)
  acyclic := by
    intro m path
    rcases transGen_of_link (fun _ _ => hasChild_of_link free.has_parent) path with
      old | ⟨above, below⟩
    · exact h.acyclic m old
    · exact free.apart (below.trans above)

/-- What was in the place before is taken out. -/
theorem relink (h : f.IsForest) (side : Side) (free : f.Linkable n x) :
    ((f.take side n).link side n x).IsForest := by
  apply (h.take side n).link _ free.take
  rw [child?_take, if_pos ⟨rfl, rfl⟩]

theorem attach {g : Forest α} (h : f.IsForest) (done : f.attach side n x = .ok g) :
    g.IsForest := by
  unfold Forest.attach at done
  by_cases occupied : (f.child? side n).isSome = true
  · simp [occupied] at done
  rw [if_neg occupied] at done
  cases allowed : f.adoptable n x with
  | error refusal => simp [allowed, Except.map] at done
  | ok _ =>
    simp only [allowed, Except.map, Except.ok.injEq] at done
    subst done
    exact h.link (by simpa using occupied) (linkable_of_adoptable allowed)

theorem replace {g : Forest α} (h : f.IsForest) (done : f.replace side n x = .ok g) :
    g.IsForest := by
  unfold Forest.replace at done
  by_cases present : f.child? side n = some x
  · rw [if_pos present] at done
    cases done
    exact h
  rw [if_neg present] at done
  cases allowed : f.adoptable n x with
  | error refusal => simp [allowed, Except.map] at done
  | ok _ =>
    simp only [allowed, Except.map, Except.ok.injEq] at done
    subst done
    exact h.relink side (linkable_of_adoptable allowed)

theorem apply {g : Forest α} (h : f.IsForest) {change : Edit α} (done : change.apply f = .ok g) :
    g.IsForest := by
  cases change with
  | fresh value =>
    cases done
    exact h.fresh value
  | attach side n x => exact h.attach done
  | create side n value => exact (h.fresh value).attach done
  | replace side n x => exact h.replace done
  | take side n =>
    cases done
    exact h.take side n
  | assign side n x? =>
    cases x? with
    | none =>
      cases done
      exact h.take side n
    | some x => exact h.replace done

/-- A refused change leaves the forest as it is. -/
theorem edit (h : f.IsForest) (change : Edit α) : (f.edit change).IsForest := by
  unfold Forest.edit
  cases result : change.apply f with
  | ok changed => exact h.apply result
  | error refusal => exact h

theorem editAll (h : f.IsForest) (changes : List (Edit α)) : (f.editAll changes).IsForest := by
  unfold Forest.editAll
  induction changes generalizing f with
  | nil => exact h
  | cons change rest ih => exact ih (h.edit change)

end IsForest

/-- Every store that changes make of the empty one is a forest. -/
theorem isForest_of_reached (changes : List (Edit α)) :
    ((empty : Forest α).editAll changes).IsForest :=
  IsForest.empty.editAll changes

end Reckoner.Forest
