import Reckoner.Terminal
import Reckoner.Calculator
import Reckoner.Text.Lines

/-!
The dialogue: a prompt before each line, then the result of the line or its error. Blank lines are
passed over. The dialogue ends with the input, after one more prompt, or with a fault.
-/

set_option autoImplicit false

namespace Reckoner.Dialogue

inductive Output where
  | shown (text : String)
  | logged (text : String)
  deriving DecidableEq, Repr

def Output.shown? : Output → Option String
  | .shown text => some text
  | .logged _ => none

def Output.logged? : Output → Option String
  | .shown _ => none
  | .logged text => some text

def prompt : String := "> "

def logged (level : LogLevel) (events : List Event) : List Output :=
  if level.showsEvents then events.map fun e => .logged e.record else []

/-- What a line is answered with, and the calculator after it. -/
def answer (level : LogLevel) (calculator : Calculator) (line : String) :
    Traced Output Fault Calculator :=
  if Text.isBlankText line then return calculator
  else do
    let (outcome, next) := calculator.run line
    Traced.noteAll (logged level outcome.trace)
    match outcome.result with
    | .ok binding => Traced.note (.shown (Terminal.binding binding))
    | .error (.error e) => (Terminal.diagnostic false e.diagnostic).mapNotes Output.shown
    | .error (.fault fault) => Traced.fail fault
    return next

def answerAll (level : LogLevel) (calculator : Calculator) :
    List String → Traced Output Fault Unit
  | [] => Traced.note (.shown prompt)
  | line :: rest => do
    Traced.note (.shown prompt)
    let next ← answer level calculator line
    answerAll level next rest

/-- Without a name the level is that of warnings. -/
def chosenLevel (name : Option String) : Except Fault LogLevel :=
  match name with
  | some name => LogLevel.read name
  | none => .ok .warning

def transcript (levelName : Option String) (input : String) : Traced Output Fault Unit := do
  let level ← Traced.ofExcept (chosenLevel levelName)
  answerAll level .initial (Text.lines input)

end Reckoner.Dialogue
