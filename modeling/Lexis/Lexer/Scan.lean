/-
Single steps of a lexer, for callers that drive it by hand.

Each step looks at the cursor, wherever that stands. The two skips do nothing where there is
nothing to skip. The scans for integers and words take what is there and give a token even of an
empty text; the scan for symbols gives none where no symbol stands.
-/
import Lexis.Lexer.Basic

namespace Lexis.Lexer

/-- Skips the white space at the cursor. -/
def skipSpaces (x : Lexer) : Lexer :=
  match Trivia.spaces? x.rest with
  | some t => x.skip t
  | none => x

/-- Skips the comment at the cursor. -/
def skipComment (x : Lexer) : Lexer :=
  match Trivia.comment? x.rest with
  | some t => x.skip t
  | none => x

/-- Takes the decimal digits at the cursor. -/
def scanInteger (x : Lexer) : Token × Lexer :=
  x.take (.integer x.rest)

/-- Takes the word characters at the cursor. -/
def scanWord (x : Lexer) : Token × Lexer :=
  x.take (.word x.rest)

/-- Takes the symbol at the cursor. -/
def scanSymbol (x : Lexer) : Option Token × Lexer :=
  match Lexeme.symbol? x.rest with
  | some l =>
    let (token, y) := x.take l
    (some token, y)
  | none => (none, x)

/-- Moves over up to `n` characters, and gives them. -/
def advance (n : Nat) (x : Lexer) : List Char × Lexer :=
  let text := x.rest.take n
  (text, x.moveOver text)

/-- Puts the cursor at a mark. -/
def restore (m : Mark) (x : Lexer) : Lexer :=
  { x with cursor := x.cursor.restore m }

/-- Turns strict comments on or off. -/
def setStrict (on : Bool) (x : Lexer) : Lexer :=
  { x with options := { x.options with strictComments := on } }

/-- Changes how many faults are kept. -/
def setLimit (limit : Int) (x : Lexer) : Lexer :=
  { x with diagnostics := { x.diagnostics with limit := limit } }

/-- Changes the name of the source in later tokens. -/
def setFilename (filename : String) (x : Lexer) : Lexer :=
  { x with filename := filename }

/-- Forgets the faults and warnings found so far. -/
def clear (x : Lexer) : Lexer :=
  { x with diagnostics := x.diagnostics.clear }

end Lexis.Lexer
