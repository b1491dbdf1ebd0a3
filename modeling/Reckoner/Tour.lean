import Reckoner.Diagnostic
import Reckoner.Expression.Bracketed
import Reckoner.Expression.Evaluate
import Reckoner.Token.Scan
import Reckoner.Traced

/-!
A tour of the calculator: sample formulas, for each the tokens, the tree, the result and the
variables so far, or the error that stops it.
-/

set_option autoImplicit false

namespace Reckoner.Tour

def samples : List String :=
  ["5", "-1", "1 + 1", "-1 + 1", "1 + -1", "4 + 6 * 3", "(4 + 6)", "(4+6) * 3", "80225/+2",
   "7/6/2000", "r = 7 % 4 % 2", "x = (1 + 14 * (54 * 2))", "y = x / 2", "10 / 5/ 2",
   "a = b = 10", "1 + 2 * * 3", "3.3.2", "z + 1"]

def rule : String := "=========="

/-- All variables in the order in which they were bound, as names in quotes and full numbers. -/
def poolText (pool : Pool) : String :=
  let entries := pool.bindings.map fun b => s!"{Text.quoted b.name}: {Number.text b.value}"
  "\x7b" ++ ", ".intercalate entries ++ "\x7d"

/-- Works on a formula up to its first error, noting a line after each stage. -/
def stages (pool : Pool) (text : String) : Traced String (Failure FormulaError) Pool := do
  let tokens ← Traced.ofExcept ((Token.ofText text).mapError .error)
  Traced.note s!"tokens: {Token.listText tokens}"
  let tree ← Traced.ofExcept
    ((Expr.parse tokens).mapError fun e => .error (.parsing text e))
  Traced.note s!"tree: {tree.bracketed}"
  let binding ← Traced.ofExcept
    ((Expr.evaluate pool tree).result.mapError (Failure.map (FormulaError.evaluating text)))
  let pool := pool.insert binding
  Traced.note s!"result: {binding.text}"
  Traced.note s!"variables: {poolText pool}"
  return pool

def stop (pool : Pool) (text : String) : Traced String Fault Pool := do
  Traced.note rule
  Traced.note s!"code: {Text.quoted text}"
  let worked := stages pool text
  Traced.noteAll worked.trace
  match worked.result with
  | .ok next => return next
  | .error (.error e) =>
    Traced.note (← Traced.ofExcept e.diagnostic.render)
    return pool
  | .error (.fault fault) => Traced.fail fault

def report (pool : Pool) : List String → Traced String Fault Unit
  | [] => return ()
  | text :: rest => do
    let next ← stop pool text
    report next rest

def lines : Traced String Fault Unit := report .initial samples

end Reckoner.Tour
