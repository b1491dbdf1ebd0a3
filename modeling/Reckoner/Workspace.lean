import Reckoner.Calculator
import Reckoner.Expression.InPlace

/-!
A workspace: one calculator and any number of formulas in named slots, worked on step by step. The
trees of the formulas are kept in one store. Since evaluation rewrites a tree, a formula is calculated
on a copy of its own.
-/

set_option autoImplicit false

namespace Reckoner

/-- The root is missing if the text could not be read. -/
structure StoredFormula where
  text : String
  root? : Option NodeId
  deriving DecidableEq, Repr

namespace StoredFormula

def empty : StoredFormula := ⟨"", none⟩

def formula (f : StoredFormula) (store : Forest Token) : Formula := ⟨f.text, store.treeIn f.root?⟩

def ofText (text : String) (store : Forest Token) :
    Except FormulaError (StoredFormula × Forest Token) :=
  (Expr.ofText text).result.map fun tree =>
    let (root?, store) := store.plant tree
    (⟨text, root?⟩, store)

def calculate (f : StoredFormula) (pool : Pool) (store : Forest Token) :
    Except (Failure FormulaError) Binding × Forest Token :=
  let (copy?, store) := store.copy f.root?
  let (result, store) := store.evaluate pool copy?
  (result.mapError (Failure.map (FormulaError.evaluating f.text)), store)

end StoredFormula

structure Workspace where
  calculator : Calculator
  store : Forest Token
  slots : List (String × StoredFormula)
  deriving DecidableEq, Repr

inductive Step where
  | run (text : String)
  | get (name : String)
  | contains (name : String)
  | insert (binding : Binding)
  /-- Puts an empty formula into the slot. -/
  | new (slot : String)
  /-- Fills the slot if the text can be read, and leaves it alone otherwise. -/
  | fromText (slot text : String)
  /-- Gives the formula in the slot a new text, even one that cannot be read. -/
  | reread (slot text : String)
  | calculate (slot : String)
  deriving DecidableEq, Repr

inductive Answer where
  | done
  | bound (binding : Binding)
  | value (value : Option Float)
  | truth (value : Bool)
  deriving DecidableEq, Repr

namespace Workspace

def ofPool (pool : Pool) : Workspace := ⟨⟨pool⟩, .empty, []⟩

def stored? (w : Workspace) (slot : String) : Option StoredFormula := w.slots.lookup slot

def formula? (w : Workspace) (slot : String) : Option Formula :=
  (w.stored? slot).map fun f => f.formula w.store

def put (w : Workspace) (slot : String) (f : StoredFormula) : Workspace :=
  { w with slots := (slot, f) :: w.slots.filter (·.1 != slot) }

/-- A slot that was never filled counts as holding an empty formula. -/
def step (w : Workspace) : Step → Except (Failure FormulaError) Answer × Workspace
  | .run text =>
    match StoredFormula.ofText text w.store with
    | .ok (f, store) =>
      let (result, store) := f.calculate w.calculator.pool store
      (result.map .bound, { w with calculator := w.calculator.store result, store })
    | .error e => (.error (.error e), w)
  | .get name => (.ok (.value (w.calculator.pool.get? name)), w)
  | .contains name => (.ok (.truth (w.calculator.pool.contains name)), w)
  | .insert binding => (.ok .done, { w with calculator := ⟨w.calculator.pool.insert binding⟩ })
  | .new slot => (.ok .done, w.put slot .empty)
  | .fromText slot text =>
    match StoredFormula.ofText text w.store with
    | .ok (f, store) => (.ok .done, { w with store }.put slot f)
    | .error e => (.error (.error e), w)
  | .reread slot text =>
    -- The new text is there, and the old tree gone, before the text is read.
    let cleared := w.put slot ⟨text, none⟩
    match StoredFormula.ofText text w.store with
    | .ok (f, store) => (.ok .done, { cleared with store }.put slot f)
    | .error e => (.error (.error e), cleared)
  | .calculate slot =>
    let f := (w.stored? slot).getD .empty
    let (result, store) := f.calculate w.calculator.pool w.store
    (result.map .bound, { w with store })

end Workspace

end Reckoner
