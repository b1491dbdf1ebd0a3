import Reckoner.Error

/-!
Scanning: the text of a formula as a list of tokens. A number is a longest run of digits and
points that starts with a digit; it must not hold two points. A name is a letter with the letters
and digits after it. Letters and digits are those of ASCII, and blanks are the space, the tab and
the line feed; any other character is an error.
-/

set_option autoImplicit false

namespace Reckoner.Token

def isNumeral (c : Char) : Bool := c.isDigit || c == '.'

def isSpacing (c : Char) : Bool := c == ' ' || c == '\t' || c == '\n'

def symbol? : Char → Option TokenKind
  | '+' => some (.operator .plus)
  | '-' => some (.operator .minus)
  | '*' => some (.operator .star)
  | '/' => some (.operator .slash)
  | '%' => some (.operator .percent)
  | '=' => some (.operator .equal)
  | '(' => some .opening
  | ')' => some .closing
  | _ => none

def spanAt (offset length : Nat) : Span := ⟨offset, offset + length⟩

def numberAt (offset : Nat) (run : List Char) : Except ScanError Token :=
  if 1 < run.count '.' then
    .error ⟨.malformedNumber (String.ofList run), spanAt offset run.length⟩
  else
    .ok
      { kind := .number
        lexeme := String.ofList run
        span := spanAt offset run.length
        number := some (Decimal.ofNumeral run).toFloat }

def nameAt (offset : Nat) (run : List Char) : Token :=
  { kind := .identifier, lexeme := String.ofList run, span := spanAt offset run.length }

def symbolAt (offset : Nat) (c : Char) (kind : TokenKind) : Token :=
  { kind, lexeme := c.toString, span := spanAt offset 1 }

/-- The tokens of a text whose first character stands at `offset`. -/
def scan (offset : Nat) : List Char → Except ScanError (List Token)
  | [] => .ok []
  | c :: rest =>
    if c.isDigit then do
      let run := c :: rest.takeWhile isNumeral
      let token ← numberAt offset run
      let tokens ← scan (offset + run.length) (rest.dropWhile isNumeral)
      return token :: tokens
    else if c.isAlpha then do
      let run := c :: rest.takeWhile Char.isAlphanum
      let tokens ← scan (offset + run.length) (rest.dropWhile Char.isAlphanum)
      return nameAt offset run :: tokens
    else
      match symbol? c with
      | some kind => do
        let tokens ← scan (offset + 1) rest
        return symbolAt offset c kind :: tokens
      | none =>
        if isSpacing c then scan (offset + 1) rest
        else .error ⟨.unexpectedCharacter c, spanAt offset 1⟩
termination_by chars => chars.length
decreasing_by
  · exact Nat.lt_succ_of_le (List.dropWhile_sublist _).length_le
  · exact Nat.lt_succ_of_le (List.dropWhile_sublist _).length_le
  · exact Nat.lt_succ_self _
  · exact Nat.lt_succ_self _

def ofText (text : String) : Except FormulaError (List Token) :=
  (scan 0 text.toList).mapError (FormulaError.scanning text)

end Reckoner.Token
