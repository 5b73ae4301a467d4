/-
Lexemes.

A lexeme is a piece of source text with the kind of token that it is. Each is as long as it can
be: an integer is a run of decimal digits, a word is a run of letters, digits and underscores, and
the operator of two characters goes before those of one. What lexeme a text begins with depends on
that text alone.
-/
import Lexis.Text.DecimalDigit
import Lexis.Text.Letter
import Lexis.Token.Keyword

namespace Lexis

/-- May the character begin a word? -/
def isWordStart (c : Char) : Bool :=
  Text.isLetter c || c = '_'

/-- May the character stand in a word? -/
def isWordPart (c : Char) : Bool :=
  Text.isLetter c || Text.isDecimal c || c = '_'

/-- The kind of a symbol of one character. -/
def Kind.ofSymbol? : Char → Option Kind
  | '(' => some (.delimiter .leftParen)
  | ')' => some (.delimiter .rightParen)
  | '\x7b' => some (.delimiter .leftBrace)
  | '\x7d' => some (.delimiter .rightBrace)
  | '[' => some (.delimiter .leftBracket)
  | ']' => some (.delimiter .rightBracket)
  | ';' => some (.delimiter .semicolon)
  | ',' => some (.delimiter .comma)
  | '.' => some (.operator .dot)
  | '+' => some (.operator .plus)
  | '-' => some (.operator .minus)
  | '*' => some (.operator .times)
  | '!' => some (.operator .not)
  | '<' => some (.operator .lessThan)
  | '=' => some (.operator .equals)
  | _ => none

/-- A piece of source text of one kind. -/
structure Lexeme where
  kind : Kind
  text : List Char
  deriving DecidableEq, Repr

namespace Lexeme

/-- The run of decimal digits at the start of a text. -/
def integer (r : List Char) : Lexeme :=
  ⟨.integer, r.takeWhile Text.isDecimal⟩

/-- The run of word characters at the start of a text. -/
def word (r : List Char) : Lexeme :=
  let text := r.takeWhile isWordPart
  ⟨.ofWord (String.ofList text), text⟩

/-- The symbol at the start of a text. A lone `&` is none. -/
def symbol? : List Char → Option Lexeme
  | '&' :: '&' :: _ => some ⟨.operator .and, ['&', '&']⟩
  | c :: _ => (Kind.ofSymbol? c).map (⟨·, [c]⟩)
  | [] => none

/-- The lexeme at the start of a text, if its first character begins one. -/
def first? : List Char → Option Lexeme
  | [] => none
  | c :: r =>
    if Text.isDecimal c then some (integer (c :: r))
    else if isWordStart c then some (word (c :: r))
    else symbol? (c :: r)

end Lexeme

end Lexis
