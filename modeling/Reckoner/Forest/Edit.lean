import Reckoner.Forest.Basic

/-!
Changes to the links of a store of nodes. A node is the child of at most one node, and of that one
on one side only: what is to become a child must not be one already, and must not have its new
parent below it. A refused change changes nothing.
-/

set_option autoImplicit false

namespace Reckoner

inductive Refusal where
  | slotOccupied (side : Side)
  | alreadyAttached
  | beneathItself
  | unknownNode
  deriving DecidableEq, Repr

namespace Refusal

def message : Refusal → String
  | slotOccupied .left => "Left node already exists"
  | slotOccupied .right => "Right node already exists"
  | alreadyAttached => "Node is already attached to another parent"
  | beneathItself => "Node can not be attached beneath itself"
  | unknownNode => "Node does not exist"

end Refusal

namespace Forest

variable {α : Type}

/-- Whether `target` is among the nodes still to be looked at or below one of them, the latest
found first; nothing if the turns do not suffice. -/
def finds? (f : Forest α) (target : NodeId) : (turns : Nat) → List NodeId → Option Bool
  | _, [] => some false
  | 0, _ :: _ => none
  | turns + 1, n :: rest =>
    if n = target then some true
    else
      finds? f target turns
        ((f.child? .right n).toList ++ (f.child? .left n).toList ++ rest)

/-- Whether `target` is `root` or below it. One turn for each node is enough in a forest. -/
def contains? (f : Forest α) (root target : NodeId) : Option Bool :=
  f.finds? target f.size [root]

/-- A search that does not end counts as one that finds. A leaf need not be searched. -/
def isBelow (f : Forest α) (root target : NodeId) : Bool :=
  !f.isLeaf root && (f.contains? root target).getD true

/-- Whether `x` may become a child of `n`. -/
def adoptable (f : Forest α) (n x : NodeId) : Except Refusal Unit :=
  if !f.has n || !f.has x then .error .unknownNode
  else if f.isOwned x then .error .alreadyAttached
  else if x = n ∨ f.isBelow x n then .error .beneathItself
  else .ok ()

def link (f : Forest α) (side : Side) (n x : NodeId) : Forest α :=
  (f.setOwned x true).setChild side n (some x)

def take (f : Forest α) (side : Side) (n : NodeId) : Forest α :=
  match f.child? side n with
  | some child => (f.setChild side n none).setOwned child false
  | none => f

def attach (f : Forest α) (side : Side) (n x : NodeId) : Except Refusal (Forest α) :=
  if (f.child? side n).isSome then .error (.slotOccupied side)
  else (f.adoptable n x).map fun _ => f.link side n x

def create (f : Forest α) (side : Side) (n : NodeId) (value : α) : Except Refusal (Forest α) :=
  (f.fresh value).attach side n f.nextId

/-- Puts `x` in the place of the child; the present child stays if it is `x`. -/
def replace (f : Forest α) (side : Side) (n x : NodeId) : Except Refusal (Forest α) :=
  if f.child? side n = some x then .ok f
  else (f.adoptable n x).map fun _ => (f.take side n).link side n x

def assign (f : Forest α) (side : Side) (n : NodeId) : Option NodeId → Except Refusal (Forest α)
  | some x => f.replace side n x
  | none => .ok (f.take side n)

section Links

variable (f : Forest α) (side other : Side) (n m x : NodeId)

@[simp] theorem has_take : (f.take side n).has m = f.has m := by
  unfold take
  split <;> simp

theorem child?_take :
    (f.take side n).child? other m =
      if n = m ∧ side = other then none else f.child? other m := by
  unfold take
  cases found : f.child? side n with
  | none =>
    by_cases here : n = m ∧ side = other
    · obtain ⟨rfl, rfl⟩ := here
      simp [found]
    · simp [here]
  | some child =>
    have present : f.has n = true := by
      rw [← isSome_cell?]
      unfold child? at found
      cases cell : f.cell? n with
      | none => simp [cell] at found
      | some _ => rfl
    simp [child?_setChild, present]

theorem isOwned_take :
    (f.take side n).isOwned m = (f.isOwned m && f.child? side n != some m) := by
  unfold take
  cases found : f.child? side n with
  | none => simp
  | some child =>
    rw [isOwned_setOwned, isOwned_setChild, has_setChild]
    by_cases same : child = m
    · subst same
      cases present : f.has child with
      | true => simp
      | false => simp [isOwned, cell?_of_not_has present]
    · simp [same]

@[simp] theorem has_link : (f.link side n x).has m = f.has m := by
  simp [link]

variable {f} {n x}

theorem child?_link (present : f.has n = true) :
    (f.link side n x).child? other m =
      if n = m ∧ side = other then some x else f.child? other m := by
  simp [link, child?_setChild, present]

theorem isOwned_link (present : f.has x = true) :
    (f.link side n x).isOwned m = (x == m || f.isOwned m) := by
  rw [link, isOwned_setChild, isOwned_setOwned]
  by_cases same : x = m
  · subst same
    simp [present]
  · simp [same]

end Links

end Forest

inductive Edit (α : Type) where
  | fresh (value : α)
  | attach (side : Side) (n x : NodeId)
  | create (side : Side) (n : NodeId) (value : α)
  | replace (side : Side) (n x : NodeId)
  | take (side : Side) (n : NodeId)
  | assign (side : Side) (n : NodeId) (x? : Option NodeId)
  deriving DecidableEq, Repr

namespace Edit

variable {α : Type}

def apply (f : Forest α) : Edit α → Except Refusal (Forest α)
  | .fresh value => .ok (f.fresh value)
  | .attach side n x => f.attach side n x
  | .create side n value => f.create side n value
  | .replace side n x => f.replace side n x
  | .take side n => .ok (f.take side n)
  | .assign side n x? => f.assign side n x?

/-- The node that the change hands out: one that is new, newly attached or taken out. -/
def result? (f : Forest α) : Edit α → Option NodeId
  | .fresh _ | .create .. => some f.nextId
  | .attach _ _ x => some x
  | .take side n => f.child? side n
  | .replace .. | .assign .. => none

end Edit

namespace Forest

variable {α : Type}

/-- The forest after a change, which is the same forest if the change is refused. -/
def edit (f : Forest α) (change : Edit α) : Forest α :=
  match change.apply f with
  | .ok changed => changed
  | .error _ => f

def editAll (f : Forest α) (changes : List (Edit α)) : Forest α := changes.foldl edit f

end Forest

end Reckoner
