/-!
Division of an input into lines. A line feed, a carriage return, and the two in sequence each end
a line; a last line without an end counts if it holds at least one character.
-/

set_option autoImplicit false

namespace Reckoner.Text

def lineChars : List Char → List (List Char)
  | [] => []
  | '\r' :: '\n' :: rest => [] :: lineChars rest
  | c :: rest =>
    if c = '\n' ∨ c = '\r' then [] :: lineChars rest
    else
      match lineChars rest with
      | [] => [[c]]
      | line :: lines => (c :: line) :: lines

def lines (input : String) : List String := (lineChars input.toList).map String.ofList

end Reckoner.Text
