import Reckoner.Tree.Order

/-!
Binary trees with a value at every node.
-/

set_option autoImplicit false

namespace Reckoner

inductive Tree (α : Type) where
  | nil
  | node (value : α) (left right : Tree α)
  deriving DecidableEq, Repr

namespace Tree

variable {α β : Type}

def leaf (value : α) : Tree α := node value nil nil

def isNil : Tree α → Bool
  | nil => true
  | node .. => false

def map (f : α → β) : Tree α → Tree β
  | nil => nil
  | node value left right => node (f value) (left.map f) (right.map f)

def values (order : Order) : Tree α → List α
  | nil => []
  | node value left right => order.arrange [value] (left.values order) (right.values order)

@[simp] theorem isNil_iff {t : Tree α} : t.isNil = true ↔ t = nil := by
  cases t <;> simp [isNil]

@[simp] theorem map_leaf (f : α → β) (value : α) : (leaf value).map f = leaf (f value) := rfl

@[simp] theorem map_id (t : Tree α) : t.map id = t := by
  induction t with
  | nil => rfl
  | node value left right ihl ihr => rw [map, ihl, ihr, id]

@[simp] theorem isNil_map (f : α → β) (t : Tree α) : (t.map f).isNil = t.isNil := by
  cases t <;> rfl

theorem values_map (order : Order) (f : α → β) (t : Tree α) :
    (t.map f).values order = (t.values order).map f := by
  induction t with
  | nil => rfl
  | node value left right ihl ihr =>
    cases order <;> simp [map, values, Order.arrange, ihl, ihr]

end Tree

end Reckoner
