import Reckoner.Tree.Basic

/-!
A store of binary nodes. A node has a value, room for a child on either side, and a mark that says
whether it is itself a child of some node. Nodes are known by their number in the store; a node
that is not there has no children and no mark.
-/

set_option autoImplicit false

namespace Reckoner

abbrev NodeId := Nat

inductive Side where
  | left
  | right
  deriving DecidableEq, Repr

structure Cell (α : Type) where
  value : α
  left : Option NodeId
  right : Option NodeId
  owned : Bool
  deriving DecidableEq, Repr

namespace Cell

variable {α : Type}

def single (value : α) : Cell α := ⟨value, none, none, false⟩

def child (cell : Cell α) : Side → Option NodeId
  | .left => cell.left
  | .right => cell.right

def setChild (cell : Cell α) (side : Side) (child : Option NodeId) : Cell α :=
  match side with
  | .left => { cell with left := child }
  | .right => { cell with right := child }

@[simp] theorem child_setChild (cell : Cell α) (side : Side) (child : Option NodeId) :
    (cell.setChild side child).child side = child := by
  cases side <;> rfl

theorem child_setChild_of_ne (cell : Cell α) {side other : Side} (child : Option NodeId)
    (h : other ≠ side) : (cell.setChild side child).child other = cell.child other := by
  cases side <;> cases other <;> first | rfl | exact absurd rfl h

end Cell

structure Forest (α : Type) where
  cells : Array (Cell α)
  deriving DecidableEq, Repr

namespace Forest

variable {α : Type}

def empty : Forest α := ⟨#[]⟩

def size (f : Forest α) : Nat := f.cells.size

def has (f : Forest α) (n : NodeId) : Bool := n < f.size

def cell? (f : Forest α) (n : NodeId) : Option (Cell α) := f.cells[n]?

def value? (f : Forest α) (n : NodeId) : Option α := (f.cell? n).map Cell.value

def child? (f : Forest α) (side : Side) (n : NodeId) : Option NodeId :=
  (f.cell? n).bind fun cell => cell.child side

def isOwned (f : Forest α) (n : NodeId) : Bool := (f.cell? n).any Cell.owned

def isLeaf (f : Forest α) (n : NodeId) : Bool :=
  (f.child? .left n).isNone && (f.child? .right n).isNone

def modify (f : Forest α) (n : NodeId) (change : Cell α → Cell α) : Forest α :=
  ⟨f.cells.modify n change⟩

def setValue (f : Forest α) (n : NodeId) (value : α) : Forest α :=
  f.modify n fun cell => { cell with value }

def setChild (f : Forest α) (side : Side) (n : NodeId) (child : Option NodeId) : Forest α :=
  f.modify n fun cell => cell.setChild side child

def setOwned (f : Forest α) (n : NodeId) (owned : Bool) : Forest α :=
  f.modify n fun cell => { cell with owned }

/-- The number of the node that `fresh` makes. -/
def nextId (f : Forest α) : NodeId := f.size

/-- One more node, without children and not a child. -/
def fresh (f : Forest α) (value : α) : Forest α := ⟨f.cells.push (.single value)⟩

@[simp] theorem size_modify (f : Forest α) (n : NodeId) (change : Cell α → Cell α) :
    (f.modify n change).size = f.size := by
  simp [size, modify]

@[simp] theorem size_fresh (f : Forest α) (value : α) : (f.fresh value).size = f.size + 1 := by
  simp [size, fresh]

theorem cell?_modify (f : Forest α) (n m : NodeId) (change : Cell α → Cell α) :
    (f.modify n change).cell? m = if n = m then (f.cell? m).map change else f.cell? m := by
  simp [cell?, modify, Array.getElem?_modify]

theorem cell?_fresh (f : Forest α) (value : α) (m : NodeId) :
    (f.fresh value).cell? m = if m = f.nextId then some (.single value) else f.cell? m := by
  show (f.cells.push _)[m]? = _
  rw [Array.getElem?_push]
  rfl

theorem isSome_cell? (f : Forest α) (n : NodeId) : (f.cell? n).isSome = f.has n := by
  by_cases h : n < f.cells.size <;> simp [cell?, has, size, h]

theorem cell?_of_not_has {f : Forest α} {n : NodeId} (h : f.has n = false) : f.cell? n = none := by
  rw [← isSome_cell?] at h
  simpa using h

section Links

variable (f : Forest α) (side other : Side) (n m : NodeId)

@[simp] theorem has_setChild (child : Option NodeId) :
    (f.setChild side n child).has m = f.has m := by
  simp [has, setChild]

@[simp] theorem has_setOwned (owned : Bool) : (f.setOwned n owned).has m = f.has m := by
  simp [has, setOwned]

@[simp] theorem has_fresh (value : α) :
    (f.fresh value).has m = (f.has m || m == f.nextId) := by
  rw [Bool.eq_iff_iff]
  simp only [has, size_fresh, nextId, decide_eq_true_eq, Bool.or_eq_true, beq_iff_eq]
  exact Nat.lt_succ_iff_lt_or_eq

theorem child?_setChild (child : Option NodeId) :
    (f.setChild side n child).child? other m =
      if f.has n = true ∧ n = m ∧ side = other then child else f.child? other m := by
  unfold child? setChild
  rw [cell?_modify]
  by_cases here : n = m
  · subst here
    cases present : f.cell? n with
    | none =>
      have absent : f.has n = false := by rw [← isSome_cell?, present]; rfl
      simp [absent]
    | some cell =>
      have there : f.has n = true := by rw [← isSome_cell?, present]; rfl
      by_cases same : side = other
      · subst same
        simp [there]
      · simp [there, same, Cell.child_setChild_of_ne cell child (Ne.symm same)]
  · simp [here]

@[simp] theorem isOwned_setChild (child : Option NodeId) :
    (f.setChild side n child).isOwned m = f.isOwned m := by
  unfold isOwned setChild
  rw [cell?_modify]
  by_cases here : n = m
  · cases side <;> cases f.cell? m <;> simp [here, Cell.setChild]
  · simp [here]

@[simp] theorem child?_setOwned (owned : Bool) :
    (f.setOwned n owned).child? side m = f.child? side m := by
  unfold child? setOwned
  rw [cell?_modify]
  by_cases here : n = m
  · cases side <;> cases f.cell? m <;> simp [here, Cell.child]
  · simp [here]

theorem isOwned_setOwned (owned : Bool) :
    (f.setOwned n owned).isOwned m =
      if f.has n = true ∧ n = m then owned else f.isOwned m := by
  unfold isOwned setOwned
  rw [cell?_modify]
  by_cases here : n = m
  · subst here
    rw [← isSome_cell?]
    cases f.cell? n <;> simp
  · simp [here]

@[simp] theorem child?_fresh (value : α) : (f.fresh value).child? side m = f.child? side m := by
  unfold child?
  rw [cell?_fresh]
  by_cases new : m = f.nextId
  · have absent : f.cell? m = none := cell?_of_not_has (by simp [new, has, nextId])
    cases side <;> simp [new ▸ absent, new, Cell.single, Cell.child]
  · simp [new]

@[simp] theorem isOwned_fresh (value : α) : (f.fresh value).isOwned m = f.isOwned m := by
  unfold isOwned
  rw [cell?_fresh]
  by_cases new : m = f.nextId
  · have absent : f.cell? m = none := cell?_of_not_has (by simp [new, has, nextId])
    simp [new ▸ absent, new, Cell.single]
  · simp [new]

end Links

end Forest

end Reckoner
