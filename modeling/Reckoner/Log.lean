import Reckoner.Expression.Parse
import Reckoner.Pool
import Reckoner.Text.Uppercase
import Reckoner.Token.Layout

/-!
The debug log: what happened while a formula was read and evaluated, one event each, and the
records in which they are written. Only the two lowest levels show such events.
-/

set_option autoImplicit false

namespace Reckoner

inductive Event where
  | tokenized (text : String) (tokens : List Token)
  | split (cut : Cut)
  | substituted (binding : Binding)
  | stored (binding : Binding)
  deriving DecidableEq, Repr

namespace Event

def channel : Event → String
  | tokenized .. => "formulacalc.tokenizer"
  | split _ => "formulacalc.parser"
  | substituted _ => "formulacalc.runtime"
  | stored _ => "formulacalc.session"

def message : Event → String
  | tokenized text tokens => s!"Tokenized {Text.quoted text}: {Token.listText tokens}"
  | split cut =>
    let slice := Text.quoted (Layout.ofTokens cut.slice)
    s!"Splitting {slice} at {cut.operator.text} (index {cut.index})"
  | substituted b => s!"Substituting {b.name} = {Number.text b.value}"
  | stored b => s!"Stored {b.text}"

def record (e : Event) : String := s!"DEBUG:{e.channel}:{e.message}\n"

end Event

inductive LogLevel where
  | critical
  | error
  | warning
  | info
  | debug
  | notset
  deriving DecidableEq, Repr

namespace LogLevel

def ofName? : String → Option LogLevel
  | "CRITICAL" | "FATAL" => some critical
  | "ERROR" => some error
  | "WARN" | "WARNING" => some warning
  | "INFO" => some info
  | "DEBUG" => some debug
  | "NOTSET" => some notset
  | _ => none

/-- Case does not matter in the name of a level. -/
def read (written : String) : Except Fault LogLevel :=
  let name := Text.upper written
  match ofName? name with
  | some level => .ok level
  | none => .error (.unknownLevel name)

def showsEvents : LogLevel → Bool
  | debug | notset => true
  | critical | error | warning | info => false

end LogLevel

end Reckoner
