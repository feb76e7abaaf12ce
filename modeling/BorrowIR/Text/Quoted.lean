import BorrowIR.Text.Visible

/-!
# Quoted characters and strings

Printed literals hold every visible character as it is; the others, the backslash and the quotes are
escaped.
-/

namespace BorrowIR

/-- Which quotes are escaped. -/
structure QuoteStyle where
  single : Bool
  double : Bool
deriving DecidableEq, Repr

/-- In a character the single quote is escaped. -/
def QuoteStyle.char : QuoteStyle := ⟨true, false⟩

/-- In a string the double quote is escaped. -/
def QuoteStyle.string : QuoteStyle := ⟨false, true⟩

/-- Both quotes are escaped. -/
def QuoteStyle.both : QuoteStyle := ⟨true, true⟩

namespace Quoted

/-- The escape of a character by its code point, in small hexadecimal digits. -/
def codeEscape (c : Char) : List Char :=
  ['\\', 'u', '\x7b'] ++ Nat.toDigits 16 c.toNat ++ ['\x7d']

/-- A character as it stands between quotes. -/
def escape (style : QuoteStyle) (c : Char) : List Char :=
  if c = '\x00' then ['\\', '0']
  else if c = '\t' then ['\\', 't']
  else if c = '\r' then ['\\', 'r']
  else if c = '\n' then ['\\', 'n']
  else if c = '\\' then ['\\', '\\']
  else if c = '\'' then (if style.single then ['\\', '\''] else ['\''])
  else if c = '"' then (if style.double then ['\\', '"'] else ['"'])
  else if isVisible c then [c]
  else codeEscape c

/-- A character in single quotes. -/
def char (c : Char) : String := String.ofList ('\'' :: (escape .char c ++ ['\'']))

/-- A string in double quotes. -/
def string (style : QuoteStyle) (s : String) : String :=
  String.ofList ('"' :: (s.toList.flatMap (escape style) ++ ['"']))

end Quoted

end BorrowIR
