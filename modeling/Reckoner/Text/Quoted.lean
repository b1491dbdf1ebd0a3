import Reckoner.Text.Printable

/-!
Quoted texts for messages. A text stands in single quotes, or in double quotes if it holds a
single quote and no double one; the quote itself, the backslash and all that is not printable are
written as escapes.
-/

set_option autoImplicit false

namespace Reckoner.Text

/-- The last `digits` hexadecimal digits of `n`, in lower case. -/
def hexDigits : (digits : Nat) → (n : Nat) → List Char
  | 0, _ => []
  | digits + 1, n => hexDigits digits (n / 16) ++ [Nat.digitChar (n % 16)]

/-- An escape by code point, in the shortest of the three widths that holds it. -/
def escapeCode (code : Nat) : List Char :=
  if code < 0x100 then '\\' :: 'x' :: hexDigits 2 code
  else if code < 0x10000 then '\\' :: 'u' :: hexDigits 4 code
  else '\\' :: 'U' :: hexDigits 8 code

def escapeChar (quote c : Char) : List Char :=
  if c = quote ∨ c = '\\' then ['\\', c]
  else if c = '\n' then ['\\', 'n']
  else if c = '\r' then ['\\', 'r']
  else if c = '\t' then ['\\', 't']
  else if isPrintable c then [c]
  else escapeCode c.toNat

def quoteFor (text : List Char) : Char :=
  if '\'' ∈ text ∧ '"' ∉ text then '"' else '\''

def quotedChars (text : List Char) : List Char :=
  let quote := quoteFor text
  quote :: text.flatMap (escapeChar quote) ++ [quote]

def quoted (text : String) : String := String.ofList (quotedChars text.toList)

end Reckoner.Text
