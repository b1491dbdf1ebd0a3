import Reckoner.Dialogue
import Reckoner.Tour

/-!
The command line. With the argument `tour` the sample tour is printed; otherwise the lines of the
standard input are answered one by one.
-/

set_option autoImplicit false

namespace Reckoner.Main

def levelVariable : String := "FORMULACALC_LOG_LEVEL"

def emit (output : Dialogue.Output) : IO Unit :=
  match output with
  | .shown text => do
    IO.print text
    (← IO.getStdout).flush
  | .logged text => IO.eprint text

def report (fault : Fault) : IO UInt32 := do
  IO.eprintln fault.message
  return 1

/-- A chunk of input ends with a line feed, but may hold several lines. -/
def answerLines (level : LogLevel) (calculator : Calculator) :
    List String → IO (Except Fault Calculator)
  | [] => return .ok calculator
  | line :: rest => do
    let reply := Dialogue.answer level calculator line
    reply.trace.forM emit
    match reply.result with
    | .error fault => return .error fault
    | .ok next =>
      unless rest.isEmpty do emit (.shown Dialogue.prompt)
      answerLines level next rest

partial def converse (level : LogLevel) (calculator : Calculator) : IO UInt32 := do
  emit (.shown Dialogue.prompt)
  let chunk ← (← IO.getStdin).getLine
  if chunk.isEmpty then return 0
  match ← answerLines level calculator (Text.lines chunk) with
  | .error fault => report fault
  | .ok next => converse level next

def tour : IO UInt32 := do
  Tour.lines.trace.forM IO.println
  match Tour.lines.result with
  | .ok _ => return 0
  | .error fault => report fault

def interactive : IO UInt32 := do
  match Dialogue.chosenLevel (← IO.getEnv levelVariable) with
  | .error fault => report fault
  | .ok level => converse level .initial

end Reckoner.Main

def main (args : List String) : IO UInt32 :=
  if args == ["tour"] then Reckoner.Main.tour else Reckoner.Main.interactive
