import Reckoner.Forest.Edit
import Reckoner.Forest.Walk

/-!
Trees that are put into a store, and copies of trees that are there already. Both get nodes of their
own and leave all others alone.
-/

set_option autoImplicit false

namespace Reckoner.Forest

variable {α : Type}

/-- The tree of values in a slot. -/
def treeIn (f : Forest α) (slot : Option NodeId) : Tree α := f.toDepth f.size slot

def hang (f : Forest α) (side : Side) (n : NodeId) (slot : Option NodeId) : Forest α :=
  match slot with
  | some x => f.link side n x
  | none => f

/-- A new node, with what is in the two slots below it. -/
def join (f : Forest α) (value : α) (left right : Option NodeId) : Forest α :=
  ((f.fresh value).hang .left f.nextId left).hang .right f.nextId right

/-- New nodes for all of a tree, its root last. -/
def plant (f : Forest α) : Tree α → Option NodeId × Forest α
  | .nil => (none, f)
  | .node value left right =>
    let (x?, g) := f.plant left
    let (y?, h) := g.plant right
    (some h.nextId, h.join value x? y?)

def copy (f : Forest α) (slot : Option NodeId) : Option NodeId × Forest α :=
  f.plant (f.treeIn slot)

end Reckoner.Forest
