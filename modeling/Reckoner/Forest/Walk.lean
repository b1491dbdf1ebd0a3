import Reckoner.Forest.Basic

/-!
Walks over the nodes below a node, itself included, without recursion over the nodes: an agenda
holds what is still to be done. To enter a node is to put its own visit and the entries into its
children on the agenda, arranged by the order of the walk. `sweepM` changes values while it walks.

Every node of a subtree is entered once and visited once, so two turns for each node of the store
are enough for any walk over a forest.
-/

set_option autoImplicit false

namespace Reckoner.Forest

variable {α : Type}

inductive Task where
  | enter (n : NodeId)
  | visit (n : NodeId)
  deriving DecidableEq, Repr

/-- What entering a node puts on the agenda. -/
def tasks (f : Forest α) (order : Order) (n : NodeId) : List Task :=
  order.arrange [.visit n] ((f.child? .left n).toList.map .enter)
    ((f.child? .right n).toList.map .enter)

/-- The nodes that an agenda visits; nothing if the turns do not suffice. -/
def visited? (f : Forest α) (order : Order) : (turns : Nat) → List Task → Option (List NodeId)
  | _, [] => some []
  | 0, _ :: _ => none
  | turns + 1, .visit n :: rest => (visited? f order turns rest).map (n :: ·)
  | turns + 1, .enter n :: rest => visited? f order turns (f.tasks order n ++ rest)

def turns (f : Forest α) : Nat := 2 * f.size

def walk (f : Forest α) (order : Order) (n : NodeId) : List NodeId :=
  (f.visited? order f.turns [.enter n]).getD []

def values (f : Forest α) (order : Order) (n : NodeId) : List α :=
  (f.walk order n).filterMap f.value?

section Sweep

variable {m : Type → Type} [Monad m]

/-- Works off an agenda on the forest as it is at each turn. -/
def sweptM? (order : Order) (change : α → m α) :
    (turns : Nat) → List Task → Forest α → m (Option (Forest α))
  | _, [], f => return some f
  | 0, _ :: _, _ => return none
  | turns + 1, .visit n :: rest, f =>
    match f.value? n with
    | some value => do
      let changed ← change value
      sweptM? order change turns rest (f.setValue n changed)
    | none => sweptM? order change turns rest f
  | turns + 1, .enter n :: rest, f => sweptM? order change turns (f.tasks order n ++ rest) f

/-- Replaces the value of every node below `n`, in the order of a walk. -/
def sweepM (f : Forest α) (order : Order) (n : NodeId) (change : α → m α) : m (Forest α) :=
  return (← sweptM? order change f.turns [.enter n] f).getD f

end Sweep

def sweep (f : Forest α) (order : Order) (n : NodeId) (change : α → α) : Forest α :=
  Id.run (f.sweepM order n fun value => pure (change value))

def number (f : Forest Int) (order : Order) (n : NodeId) : Forest Int :=
  (StateT.run (m := Id) (f.sweepM order n fun _ => do
    let next ← get
    set (next + 1)
    return next) (0 : Int)).1

/-- The nodes below the node in slot `n?` as a tree, down to the given depth. -/
def toDepth (f : Forest α) : (depth : Nat) → (n? : Option NodeId) → Tree α
  | _, none => .nil
  | 0, some _ => .nil
  | depth + 1, some n =>
    match f.value? n with
    | some value =>
      .node value (f.toDepth depth (f.child? .left n)) (f.toDepth depth (f.child? .right n))
    | none => .nil

def tree (f : Forest α) (n : NodeId) : Tree α := f.toDepth f.size (some n)

def sameTree [DecidableEq α] (f : Forest α) (n m : NodeId) : Bool := f.tree n == f.tree m

end Reckoner.Forest
