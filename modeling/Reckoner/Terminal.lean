import Reckoner.Diagnostic
import Reckoner.Pool
import Reckoner.Text.Width
import Reckoner.Traced

/-!
What a terminal is sent. A text loses the bell, the backspace, the vertical tab, the form feed and
the carriage return. Each of its lines is divided into cells by the tabs, which become spaces up to
the next stop, and each cell may be coloured. An error is shown as its formula, a marker and a
message.
-/

set_option autoImplicit false

namespace Reckoner.Terminal

inductive Colour where
  | yellow
  | blue
  deriving DecidableEq, Repr

namespace Colour

def code : Colour → String
  | yellow => "33"
  | blue => "34"

def paint (colour : Colour) (text : String) : String := s!"\x1b[{colour.code}m{text}\x1b[0m"

end Colour

def isDropped (c : Char) : Bool :=
  c == '\x07' || c == '\x08' || c == '\x0b' || c == '\x0c' || c == '\r'

/-- The parts of a text between the separators; there is always at least one. -/
def segments (separator : Char) : List Char → List (List Char)
  | [] => [[]]
  | c :: rest =>
    if c = separator then [] :: segments separator rest
    else
      match segments separator rest with
      | [] => [[c]]
      | part :: parts => (c :: part) :: parts

/-- The distance between two tab stops. -/
def tabWidth : Nat := 8

/-- The columns that are missing up to a tab stop, none at a stop itself. -/
def gap (column : Nat) : Nat := (tabWidth - column % tabWidth) % tabWidth

/-- The cells made of the parts between tabs, laid out from a column on. A tab takes one space,
which is measured with the part before it, and then as many as lead to a stop. The last part has no
tab to end it, and is no cell if it is empty. -/
def cellsFrom (column : Nat) : List (List Char) → List (List Char)
  | [] => []
  | [last] => if last = [] then [] else [last]
  | part :: parts =>
    let cell := part ++ [' ']
    let reached := column + Text.columns cell
    (cell ++ List.replicate (gap reached) ' ') :: cellsFrom (reached + gap reached) parts

def cells (line : List Char) : List String :=
  (cellsFrom 0 (segments '\t' line)).map String.ofList

def lines (text : String) : List (List String) :=
  (segments '\n' (text.toList.filter (!isDropped ·))).map cells

/-- A text on lines of its own, with every cell in the given form. -/
def laidOut (form : String → String) (text : String) : String :=
  "\n".intercalate ((lines text).map fun line => String.join (line.map form)) ++ "\n"

def shown (text : String) : String := laidOut id text

def painted (colour : Colour) (text : String) : String := laidOut colour.paint text

def binding (b : Binding) : String := shown s!"=> {b.text}"

/-- The formula is shown before the length of the span is asked for, which may end in a fault. -/
def diagnostic (coloured : Bool) (d : Diagnostic) : Traced String Fault Unit := do
  let styled (colour : Colour) (text : String) : String :=
    if coloured then painted colour text else shown text
  Traced.note (shown d.text)
  match ← Traced.ofExcept d.marker? with
  | some marker => Traced.note (styled .yellow marker)
  | none => pure ()
  Traced.note (styled .blue d.message)

end Reckoner.Terminal
