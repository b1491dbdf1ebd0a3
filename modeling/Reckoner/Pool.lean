import Reckoner.Number.Text

/-!
The pool of variables that outlives a formula. Names keep the order in which they were first
bound; binding a name again replaces its value in place. A new pool holds `ans`, the last result
that was not assigned to a name, at zero.
-/

set_option autoImplicit false

namespace Reckoner

structure Binding where
  name : String
  value : Float
  deriving DecidableEq, Repr

def Binding.text (b : Binding) : String := s!"{b.name} = {Number.brief b.value}"

structure Pool where
  bindings : List Binding
  deriving DecidableEq, Repr

namespace Pool

/-- The name of the last plain result. -/
def answer : String := "ans"

def initial : Pool := ⟨[⟨answer, 0.0⟩]⟩

def get? (pool : Pool) (name : String) : Option Float :=
  (pool.bindings.find? (·.name == name)).map Binding.value

def contains (pool : Pool) (name : String) : Bool := (pool.get? name).isSome

def insertInto (b : Binding) : List Binding → List Binding
  | [] => [b]
  | first :: rest => if first.name = b.name then b :: rest else first :: insertInto b rest

def insert (pool : Pool) (b : Binding) : Pool := ⟨insertInto b pool.bindings⟩

theorem get?_insert (pool : Pool) (b : Binding) (name : String) :
    (pool.insert b).get? name = if b.name = name then some b.value else pool.get? name := by
  obtain ⟨bindings⟩ := pool
  induction bindings with
  | nil => by_cases h : b.name = name <;> simp [insert, insertInto, get?, h]
  | cons first rest ih =>
    simp only [insert, insertInto, get?] at ih ⊢
    by_cases here : first.name = b.name
    · by_cases h : b.name = name <;> simp [here, h]
    · rw [if_neg here]
      by_cases h : first.name = name
      · have : b.name ≠ name := fun e => here (h.trans e.symm)
        simp [h, this]
      · simpa [h] using ih

@[simp] theorem get?_insert_self (pool : Pool) (b : Binding) :
    (pool.insert b).get? b.name = some b.value := by
  rw [get?_insert, if_pos rfl]

theorem get?_insert_of_ne (pool : Pool) {b : Binding} {name : String} (h : b.name ≠ name) :
    (pool.insert b).get? name = pool.get? name := by
  rw [get?_insert, if_neg h]

end Pool

end Reckoner
