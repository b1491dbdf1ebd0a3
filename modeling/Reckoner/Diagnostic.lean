import Reckoner.Error

/-!
Diagnostics: what is shown of an error. `Diagnostic.render` puts the text of the formula, a marker
under the place of the error, and the message with its kind on a line each.
-/

set_option autoImplicit false

namespace Reckoner

structure Diagnostic where
  kind : ErrorKind
  message : String
  span : Span
  text : String
  deriving DecidableEq, Repr

def FormulaError.diagnostic (e : FormulaError) : Diagnostic :=
  ⟨e.kind, e.message, e.span, e.text⟩

namespace Diagnostic

def marker? (d : Diagnostic) : Except Fault (Option String) := do
  let length ← d.span.length
  if length = 0 then return none
  return some (← d.span.marker)

/-- Without a text there is nothing to mark. -/
def render (d : Diagnostic) : Except Fault String := do
  let message := s!"[{d.kind.name}] {d.message}"
  if d.text = "" then return message
  return "\n".intercalate (d.text :: (← d.marker?).toList ++ [message])

end Diagnostic

end Reckoner
