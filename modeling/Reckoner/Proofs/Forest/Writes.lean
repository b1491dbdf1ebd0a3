import Reckoner.Forest.Edit

/-!
# Changes write by write

A change of links is made in a few writes: the new child is marked, the present one is let go, the
slot is filled. What has been written stays written when a later step refuses. Still a refused change
leaves the store as it was, and every other one leads to the store that the change as a whole leads
to. Whatever can refuse comes before the first write, and to mark the new child before the present
one loses its mark does no harm, since they are two nodes.
-/

set_option autoImplicit false

namespace Reckoner.Forest

variable {α : Type} {f g : Forest α} {side : Side} {n m x : NodeId}

section Cells

theorem eq_of_cell? (h : ∀ m : NodeId, f.cell? m = g.cell? m) : f = g := by
  obtain ⟨cells⟩ := f
  obtain ⟨cells'⟩ := g
  exact congrArg Forest.mk (Array.ext_getElem? h)

theorem modify_comm (first second : Cell α → Cell α)
    (h : n = m → ∀ cell : Cell α, second (first cell) = first (second cell)) :
    (f.modify n first).modify m second = (f.modify m second).modify n first := by
  apply eq_of_cell?
  intro other
  simp only [cell?_modify]
  by_cases here : n = other
  · by_cases there : m = other
    · have same := h (here.trans there.symm)
      cases f.cell? other <;> simp [here, there, same]
    · simp [there]
  · simp [here]

theorem setOwned_comm (apart : n ≠ m) (owned owned' : Bool) :
    (f.setOwned n owned).setOwned m owned' = (f.setOwned m owned').setOwned n owned :=
  modify_comm _ _ fun same => absurd same apart

theorem setOwned_setChild (owned : Bool) (child : Option NodeId) :
    (f.setOwned m owned).setChild side n child = (f.setChild side n child).setOwned m owned := by
  apply modify_comm
  intro _ cell
  cases side <;> rfl

theorem setChild_of_vacant (vacant : f.child? side n = none) : f.setChild side n none = f := by
  apply eq_of_cell?
  intro m
  rw [setChild, cell?_modify]
  split
  · rename_i here
    subst here
    unfold child? at vacant
    cases present : f.cell? n with
    | none => rfl
    | some cell =>
      rw [present] at vacant
      obtain ⟨value, left, right, owned⟩ := cell
      cases side <;> cases vacant <;> rfl
  · rfl

theorem take_of_vacant (vacant : f.child? side n = none) : f.take side n = f := by
  rw [take, vacant]

/-- The mark of a node that is not in the slot can be set before or after the slot is cleared. -/
theorem take_setOwned (apart : f.child? side n ≠ some x) (owned : Bool) :
    (f.setOwned x owned).take side n = (f.take side n).setOwned x owned := by
  rw [take, take, child?_setOwned]
  cases present : f.child? side n with
  | none => rfl
  | some child =>
    have other : x ≠ child := by
      rintro rfl
      exact apart present
    simp only [setOwned_setChild]
    exact setOwned_comm other owned false

end Cells

def dropLast (f : Forest α) : Forest α := ⟨f.cells.pop⟩

@[simp] theorem dropLast_fresh (f : Forest α) (value : α) : (f.fresh value).dropLast = f := by
  simp [dropLast, fresh]

end Forest

/-- A change in the making: the store is kept as it has been written when a step refuses. -/
abbrev Writing (α : Type) : Type → Type := EStateM Refusal (Forest α)

namespace Writing

variable {α : Type}

def adopt (n x : NodeId) : Writing α Unit := do
  let f ← get
  match f.adoptable n x with
  | .ok _ => set (f.setOwned x true)
  | .error refusal => throw refusal

def fill (side : Side) (n x : NodeId) : Writing α Unit := modify (·.setChild side n (some x))

/-- Clears a slot, and then the mark of the child that was in it. -/
def release (side : Side) (n : NodeId) : Writing α Unit := do
  let child? := (← get).child? side n
  modify (·.setChild side n none)
  match child? with
  | some child => modify (·.setOwned child false)
  | none => pure ()

def attach (side : Side) (n x : NodeId) : Writing α Unit := do
  if ((← get).child? side n).isSome then throw (.slotOccupied side)
  else do
    adopt n x
    fill side n x

/-- A new node that is refused its place is known to nobody, and so it is gone. -/
def create (side : Side) (n : NodeId) (value : α) : Writing α Unit := fun f =>
  match attach side n f.nextId (f.fresh value) with
  | .ok _ g => .ok () g
  | .error refusal g => .error refusal g.dropLast

def replace (side : Side) (n x : NodeId) : Writing α Unit := do
  if (← get).child? side n = some x then pure ()
  else do
    adopt n x
    release side n
    fill side n x

end Writing

namespace Edit

variable {α : Type}

def perform : Edit α → Writing α Unit
  | .fresh value => modify (·.fresh value)
  | .attach side n x => Writing.attach side n x
  | .create side n value => Writing.create side n value
  | .replace side n x => Writing.replace side n x
  | .take side n => Writing.release side n
  | .assign side n (some x) => Writing.replace side n x
  | .assign side n none => Writing.release side n

end Edit

/-- How a change of the store as a whole ends: a refusal leaves the store as it is. -/
def Forest.settle {α : Type} (f : Forest α) :
    Except Refusal (Forest α) → EStateM.Result Refusal (Forest α) Unit
  | .ok g => .ok () g
  | .error refusal => .error refusal f

namespace Writing

variable {α : Type} {f : Forest α} {side : Side} {n x : NodeId}

theorem adopt_run :
    (adopt n x).run f = f.settle ((f.adoptable n x).map fun _ => f.setOwned x true) := by
  rw [adopt, EStateM.run_bind, EStateM.run_get]
  dsimp only
  cases f.adoptable n x <;> rfl

theorem release_run : (release side n).run f = .ok () (f.take side n) := by
  have cleared : (release side n).run f =
      (match f.child? side n with
        | some child => modify (·.setOwned child false)
        | none => pure () : Writing α Unit).run (f.setChild side n none) := rfl
  rw [cleared, Forest.take]
  cases vacant : f.child? side n with
  | some child => rfl
  | none =>
    rw [Forest.setChild_of_vacant vacant]
    rfl

theorem attach_run : (attach side n x).run f = f.settle (f.attach side n x) := by
  rw [attach, EStateM.run_bind, EStateM.run_get, Forest.attach]
  dsimp only
  split
  · rfl
  · rw [EStateM.run_bind, adopt_run]
    cases f.adoptable n x <;> rfl

theorem create_run (value : α) :
    (create side n value).run f = f.settle (f.create side n value) := by
  have attached : attach side n f.nextId (f.fresh value) =
      (f.fresh value).settle (f.create side n value) := attach_run
  have made : (create side n value).run f =
      match attach side n f.nextId (f.fresh value) with
      | .ok _ g => .ok () g
      | .error refusal g => .error refusal g.dropLast := rfl
  rw [made, attached]
  cases f.create side n value with
  | ok g => rfl
  | error refusal => exact congrArg (EStateM.Result.error refusal) (f.dropLast_fresh value)

theorem replace_run : (replace side n x).run f = f.settle (f.replace side n x) := by
  rw [replace, EStateM.run_bind, EStateM.run_get, Forest.replace]
  dsimp only
  split
  · rfl
  · rename_i apart
    rw [EStateM.run_bind, adopt_run]
    cases f.adoptable n x with
    | error refusal => rfl
    | ok _ =>
      -- The mark is there when the slot is cleared, but it is not the mark that is lost.
      have released : (release side n).run (f.setOwned x true) =
          .ok () ((f.take side n).setOwned x true) := by
        rw [release_run, Forest.take_setOwned apart]
      dsimp only [Except.map, Forest.settle]
      rw [EStateM.run_bind, released]
      rfl

end Writing

namespace Edit

variable {α : Type} {f : Forest α}

theorem perform_run (change : Edit α) : change.perform.run f = f.settle (change.apply f) := by
  cases change with
  | fresh value => rfl
  | attach side n x => exact Writing.attach_run
  | create side n value => exact Writing.create_run value
  | replace side n x => exact Writing.replace_run
  | take side n => exact Writing.release_run
  | assign side n x? =>
    cases x? with
    | none => exact Writing.release_run
    | some x => exact Writing.replace_run

end Edit

namespace Forest

variable {α : Type}

/-- The store that is left, also by a change that was refused. -/
def storeAfter : EStateM.Result Refusal (Forest α) Unit → Forest α
  | .ok _ g => g
  | .error _ g => g

def performAll (f : Forest α) (changes : List (Edit α)) : Forest α :=
  changes.foldl (fun g change => storeAfter (change.perform.run g)) f

theorem storeAfter_perform_run (f : Forest α) (change : Edit α) :
    storeAfter (change.perform.run f) = f.edit change := by
  rw [change.perform_run, edit]
  cases change.apply f <;> rfl

theorem performAll_eq_editAll (f : Forest α) (changes : List (Edit α)) :
    f.performAll changes = f.editAll changes := by
  induction changes generalizing f with
  | nil => rfl
  | cons change rest ih =>
    rw [performAll, List.foldl_cons, storeAfter_perform_run]
    exact ih (f.edit change)

end Forest

end Reckoner
