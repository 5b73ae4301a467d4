/-
Quoted text, on one line and without an unprintable character.

The text stands between two equal marks: an apostrophe, or a quotation mark where the text holds
an apostrophe and no quotation mark. A backslash and the mark itself follow a backslash, the three
common controls have a letter each, and any other unprintable character is written as its code
point in the shortest of the three hexadecimal forms that holds it.
-/
import Lexis.Text.Hex
import Lexis.Text.Printable

namespace Lexis.Text

namespace Quoted

/-- The mark that encloses a text. -/
def mark (s : List Char) : Char :=
  if s.contains '\x27' && !s.contains '\x22' then '\x22' else '\x27'

/-- The hexadecimal escape of a character. -/
def codeEscape (c : Char) : List Char :=
  let n := c.toNat
  if n < 0x100 then '\\' :: 'x' :: fixedHex 2 n
  else if n < 0x10000 then '\\' :: 'u' :: fixedHex 4 n
  else '\\' :: 'U' :: fixedHex 8 n

/-- A character as it is written between two marks `q`. -/
def escape (q c : Char) : List Char :=
  if c = q ∨ c = '\\' then ['\\', c]
  else if c = '\n' then ['\\', 'n']
  else if c = '\r' then ['\\', 'r']
  else if c = '\t' then ['\\', 't']
  else if isPrintable c then [c]
  else codeEscape c

/-- A text between its marks. -/
def encode (s : List Char) : List Char :=
  let q := mark s
  q :: (s.flatMap (escape q) ++ [q])

end Quoted

/-- A text in quoted form. -/
def quoted (s : String) : String :=
  String.ofList (Quoted.encode s.toList)

end Lexis.Text
