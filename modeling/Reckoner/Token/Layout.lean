import Reckoner.Text.Blank
import Reckoner.Token

/-!
The normal layout of a formula: lexemes with one space between them, but no white space directly
after an opening bracket or before a closing one. Lexemes are plain text here, so white space and
brackets inside of them count as well.
-/

set_option autoImplicit false

namespace Reckoner.Layout

/-- Deletes the white space after each opening bracket, and at the start if one stood there. -/
def closeUpAfter (bracketBefore : Bool) : List Char → List Char
  | [] => []
  | c :: rest =>
    if bracketBefore && Text.isBlank c then closeUpAfter true rest
    else c :: closeUpAfter (c == '(') rest

/-- Deletes the white space before each closing bracket. -/
def closeUpBefore (text : List Char) : List Char :=
  text.foldr (fun c rest => if Text.isBlank c && rest.head? == some ')' then rest else c :: rest) []

def ofTokens (tokens : List Token) : String :=
  let joined := " ".intercalate (tokens.map Token.lexeme)
  String.ofList (closeUpBefore (closeUpAfter false joined.toList))

end Reckoner.Layout
