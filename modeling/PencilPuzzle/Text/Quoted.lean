import PencilPuzzle.Text.Printable

/-!
# Quoted text

How messages show a piece of the user's text: between single quotes, or between double quotes when
the text holds a single one and no double one, with every character that has no visible form
written as an escape.
-/

namespace PencilPuzzle.Text

def hexDigit (n : Nat) : Char := if n < 10 then Char.ofNat (48 + n) else Char.ofNat (87 + n)

def hexDigits : Nat → Nat → List Char
  | 0, _ => []
  | width + 1, n => hexDigits width (n / 16) ++ [hexDigit (n % 16)]

/-- The escape of a code point, with two, four or eight digits as its size needs. -/
def codeEscape (n : Nat) : List Char :=
  if n ≤ 0xFF then '\\' :: 'x' :: hexDigits 2 n
  else if n ≤ 0xFFFF then '\\' :: 'u' :: hexDigits 4 n
  else '\\' :: 'U' :: hexDigits 8 n

def escapeChar (delimiter c : Char) : List Char :=
  if c = delimiter ∨ c = '\\' then ['\\', c]
  else if c = '\t' then ['\\', 't']
  else if c = '\n' then ['\\', 'n']
  else if c = '\r' then ['\\', 'r']
  else if isPrintable c then [c]
  else codeEscape c.toNat

def delimiterFor (text : List Char) : Char :=
  if '\x27' ∈ text ∧ '\x22' ∉ text then '\x22' else '\x27'

def quoteChars (text : List Char) : List Char :=
  let delimiter := delimiterFor text
  delimiter :: text.flatMap (escapeChar delimiter) ++ [delimiter]

def quote (text : String) : String := String.ofList (quoteChars text.toList)

end PencilPuzzle.Text
