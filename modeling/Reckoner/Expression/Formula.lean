import Reckoner.Expression.Evaluate
import Reckoner.Log
import Reckoner.Token.Scan

/-!
Formulas: a text with its expression, read once and evaluated as often as wanted. Errors carry the
text.
-/

set_option autoImplicit false

namespace Reckoner

def Expr.ofText (text : String) : Traced Event FormulaError Expr := do
  let tokens ← Traced.ofExcept (Token.ofText text)
  Traced.note (.tokenized text tokens)
  ((Expr.ofTokens tokens).mapNotes Event.split).mapError (FormulaError.parsing text)

/-- The tree is missing if the text could not be read. -/
structure Formula where
  text : String
  tree : Expr
  deriving DecidableEq, Repr

namespace Formula

def empty : Formula := ⟨"", .nil⟩

def ofText (text : String) : Traced Event FormulaError Formula := do
  return ⟨text, ← Expr.ofText text⟩

def calculate (f : Formula) (pool : Pool) : Traced Event (Failure FormulaError) Binding :=
  let evaluation := Expr.evaluate pool f.tree
  { trace := evaluation.substituted.map Event.substituted
    result := evaluation.result.mapError (Failure.map (FormulaError.evaluating f.text)) }

end Formula

end Reckoner
