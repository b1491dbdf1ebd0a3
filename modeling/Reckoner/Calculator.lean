import Reckoner.Expression.Formula

/-!
The calculator: formulas run one after the other against one pool. A formula that succeeds stores
its result under the name it assigns to, or as the last answer; one that fails changes nothing.
-/

set_option autoImplicit false

namespace Reckoner

structure Calculator where
  pool : Pool
  deriving DecidableEq, Repr

namespace Calculator

def initial : Calculator := ⟨.initial⟩

def outcome (c : Calculator) (text : String) :
    Traced Event (Failure FormulaError) Binding := do
  let formula ← (Formula.ofText text).mapError Failure.error
  let binding ← formula.calculate c.pool
  Traced.note (.stored binding)
  return binding

def store (c : Calculator) (result : Except (Failure FormulaError) Binding) : Calculator :=
  match result with
  | .ok binding => ⟨c.pool.insert binding⟩
  | .error _ => c

def run (c : Calculator) (text : String) :
    Traced Event (Failure FormulaError) Binding × Calculator :=
  let outcome := c.outcome text
  (outcome, c.store outcome.result)

@[simp] theorem store_ok (c : Calculator) (binding : Binding) :
    c.store (.ok binding) = ⟨c.pool.insert binding⟩ := rfl

@[simp] theorem store_error (c : Calculator) (e : Failure FormulaError) :
    c.store (.error e) = c := rfl

end Calculator

end Reckoner
