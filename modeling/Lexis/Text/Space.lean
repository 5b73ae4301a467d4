/-
White space.

The characters that separate lexemes and carry no meaning of their own: the ASCII blanks with
the four information separators, and the blanks, line separators and no-break spaces of Unicode.
-/
import Lexis.Text.CharClass

namespace Lexis.Text

/-- The white-space characters. -/
def spaces : CharClass :=
  [(0x9, 0xD), (0x1C, 0x20), (0x85, 0x85), (0xA0, 0xA0), (0x1680, 0x1680), (0x2000, 0x200A),
   (0x2028, 0x2029), (0x202F, 0x202F), (0x205F, 0x205F), (0x3000, 0x3000)]

/-- Is the character white space? -/
def isSpace (c : Char) : Bool :=
  spaces.contains c

/-- A text without the characters of a class at its two ends. -/
def trim (p : Char → Bool) (s : List Char) : List Char :=
  ((s.dropWhile p).reverse.dropWhile p).reverse

end Lexis.Text
