import Reckoner.Token

/-!
What can be wrong with a formula, by the stage that finds it: scanning the text, parsing the
tokens, evaluating the tree. Each cause has a kind, which sorts it, and a message. A formula error
is a cause with its place and the text of the formula, which is empty where no text is known.
-/

set_option autoImplicit false

namespace Reckoner

inductive ErrorKind where
  | invalidChar
  | invalidFloatValue
  | invalidOperator
  | invalidFormula
  | invalidBracket
  | zeroDiv
  | undefinedVariable
  | emptyFormula
  | noTree
  | invalidTree
  | slotOccupied
  deriving DecidableEq, Repr

namespace ErrorKind

def name : ErrorKind → String
  | invalidChar => "INVALID_CHAR"
  | invalidFloatValue => "INVALID_FLOAT_VALUE"
  | invalidOperator => "INVALID_OPERATOR"
  | invalidFormula => "INVALID_FORMULA"
  | invalidBracket => "INVALID_BRACKET"
  | zeroDiv => "ZERO_DIV"
  | undefinedVariable => "UNDEFINED_VARIABLE"
  | emptyFormula => "EMPTY_FORMULA"
  | noTree => "NO_TREE"
  | invalidTree => "INVALID_TREE"
  | slotOccupied => "SLOT_OCCUPIED"

def all : List ErrorKind :=
  [invalidChar, invalidFloatValue, invalidOperator, invalidFormula, invalidBracket, zeroDiv,
   undefinedVariable, emptyFormula, noTree, invalidTree, slotOccupied]

def ofName? (written : String) : Option ErrorKind := all.find? (·.name == written)

theorem mem_all (kind : ErrorKind) : kind ∈ all := by
  cases kind <;> decide

end ErrorKind

inductive ScanCause where
  | unexpectedCharacter (c : Char)
  | malformedNumber (run : String)
  deriving DecidableEq, Repr

namespace ScanCause

def kind : ScanCause → ErrorKind
  | unexpectedCharacter _ => .invalidChar
  | malformedNumber _ => .invalidFloatValue

def message : ScanCause → String
  | unexpectedCharacter c => s!"Unexpected character: {Text.quoted c.toString}"
  | malformedNumber run => s!"Invalid float number: {Text.quoted run}"

end ScanCause

inductive ParseCause where
  | noTokens
  | unclosedBracket
  | extraClosingBracket
  | closingBeforeOpening
  | emptyBrackets
  | valueExpected (found : TokenKind)
  | signExpected (found : TokenKind)
  | signedNumberExpected (found : TokenKind)
  | operatorExpected
  | adjacentOperators
  | leftOperandExpected
  | rightOperandExpected
  deriving DecidableEq, Repr

namespace ParseCause

def kind : ParseCause → ErrorKind
  | unclosedBracket | extraClosingBracket | closingBeforeOpening => .invalidBracket
  | adjacentOperators => .invalidOperator
  | _ => .invalidFormula

def message : ParseCause → String
  | noTokens => "Empty formula"
  | unclosedBracket => "Unclosed bracket"
  | extraClosingBracket => "Extra closing bracket"
  | closingBeforeOpening => "Closing bracket before its opening"
  | emptyBrackets => "Empty parenthesis"
  | valueExpected found => s!"Number or variable expected, found {found.label}"
  | signExpected found => s!"'+' or '-' expected, found {found.label}"
  | signedNumberExpected found => s!"Number expected after sign, found {found.label}"
  | operatorExpected => "Operator expected"
  | adjacentOperators => "Invalid operator"
  | leftOperandExpected => "Left operand expected"
  | rightOperandExpected => "Right operand expected"

end ParseCause

inductive EvalCause where
  | noTree
  /-- The part of the tree that is to be evaluated is missing. -/
  | nothingToEvaluate
  | targetMissing
  | targetNotVariable
  | unsupportedRoot
  | subtreeMissing
  | numberWithoutValue (lexeme : String)
  | undefinedVariable (name : String)
  | operandMissing (lexeme : String)
  | dividedByZero
  | nestedAssignment
  | unexpectedToken (token : Token)
  deriving DecidableEq, Repr

namespace EvalCause

def kind : EvalCause → ErrorKind
  | noTree => .noTree
  | nothingToEvaluate => .emptyFormula
  | targetMissing | targetNotVariable | unsupportedRoot | nestedAssignment | unexpectedToken _ =>
    .invalidFormula
  | subtreeMissing | numberWithoutValue _ | operandMissing _ => .invalidTree
  | undefinedVariable _ => .undefinedVariable
  | dividedByZero => .zeroDiv

def message : EvalCause → String
  | noTree => "Can not calculate an empty tree"
  | nothingToEvaluate => "Empty formula"
  | targetMissing => "Assignment target is missing"
  | targetNotVariable => "Only a variable can be assigned to"
  | unsupportedRoot => "Invalid formula"
  | subtreeMissing => "Invalid tree"
  | numberWithoutValue lexeme => s!"Number token {Text.quoted lexeme} has no value"
  | undefinedVariable name => s!"Undefined variable {Text.quoted name}"
  | operandMissing lexeme => s!"Operator {Text.quoted lexeme} is missing an operand"
  | dividedByZero => "Divided by zero"
  | nestedAssignment => "Assignment is only allowed at the top of a formula"
  | unexpectedToken token => s!"Unexpected token {token.text}"

end EvalCause

abbrev ScanError := Located ScanCause
abbrev ParseError := Located ParseCause
abbrev EvalError := Located EvalCause

inductive Cause where
  | scanning (cause : ScanCause)
  | parsing (cause : ParseCause)
  | evaluating (cause : EvalCause)
  deriving DecidableEq, Repr

namespace Cause

def kind : Cause → ErrorKind
  | scanning cause => cause.kind
  | parsing cause => cause.kind
  | evaluating cause => cause.kind

def message : Cause → String
  | scanning cause => cause.message
  | parsing cause => cause.message
  | evaluating cause => cause.message

end Cause

structure FormulaError where
  cause : Cause
  span : Span
  text : String
  deriving DecidableEq, Repr

namespace FormulaError

def scanning (text : String) (e : ScanError) : FormulaError := ⟨.scanning e.cause, e.span, text⟩

def parsing (text : String) (e : ParseError) : FormulaError := ⟨.parsing e.cause, e.span, text⟩

def evaluating (text : String) (e : EvalError) : FormulaError :=
  ⟨.evaluating e.cause, e.span, text⟩

def kind (e : FormulaError) : ErrorKind := e.cause.kind

def message (e : FormulaError) : String := e.cause.message

end FormulaError

end Reckoner
