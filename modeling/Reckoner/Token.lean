import Reckoner.Number.Text
import Reckoner.Span

/-!
Tokens of a formula: numbers, names, operators and brackets, each with its lexeme and its place.
A token need not come from a text, so lexeme, span and number are independent of one another.
-/

set_option autoImplicit false

namespace Reckoner

inductive Operator where
  | plus
  | minus
  | star
  | slash
  | percent
  | equal
  deriving DecidableEq, Repr

namespace Operator

def label : Operator → String
  | plus => "PLUS"
  | minus => "MINUS"
  | star => "STAR"
  | slash => "SLASH"
  | percent => "PERCENT"
  | equal => "EQUAL"

/-- The looser of two levels is the greater. -/
def level : Operator → Nat
  | star | slash => 0
  | plus | minus | percent => 1
  | equal => 2

/-- The operators that may also stand before a number as its sign. -/
def isSign : Operator → Bool
  | plus | minus => true
  | star | slash | percent | equal => false

/-- The operators after which a sign, and no other operator, may follow. -/
def isArithmetic : Operator → Bool
  | plus | minus | star | slash => true
  | percent | equal => false

end Operator

inductive TokenKind where
  | number
  | identifier
  | operator (op : Operator)
  | opening
  | closing
  deriving DecidableEq, Repr

namespace TokenKind

def label : TokenKind → String
  | number => "NUMBER"
  | identifier => "VARIABLE"
  | operator op => op.label
  | opening => "BRACKET_OPEN"
  | closing => "BRACKET_CLOSE"

end TokenKind

structure Token where
  kind : TokenKind
  lexeme : String
  span : Span
  number : Option Float := none
  deriving DecidableEq, Repr

namespace Token

def ofNumber (value : Float) (span : Span) : Token :=
  { kind := .number, lexeme := Number.brief value, span, number := some value }

def text (t : Token) : String := s!"<{t.kind.label}>{t.lexeme}"

def operator? (t : Token) : Option Operator :=
  match t.kind with
  | .operator op => some op
  | _ => none

def listText (tokens : List Token) : String := " ".intercalate (tokens.map text)

end Token

end Reckoner
