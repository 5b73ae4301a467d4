/-
Tokens.

A token is a kind, the exact text that was read, and the place of its first character. The token
at the end of the input has an empty text.
-/
import Lexis.Location
import Lexis.Token.Kind
import Lexis.Text.Quoted

namespace Lexis

/-- A token of a source. -/
structure Token where
  kind : Kind
  text : String
  line : Int
  column : Int
  filename : String := unnamedSource
  deriving DecidableEq, Repr

namespace Token

/-- The place of the first character. -/
def location (t : Token) : Location :=
  ⟨t.filename, t.line, t.column⟩

/-- Does the token stand for the end of the input? -/
def isEnd (t : Token) : Bool :=
  t.kind = .endOfInput

/-- Does the token stand for a character that starts no token? -/
def isInvalid (t : Token) : Bool :=
  t.kind = .invalid

/-- The printed form: kind, quoted text, line and column. -/
def print (t : Token) : String :=
  "Token(" ++ t.kind.name ++ ", " ++ Text.quoted t.text ++ ", " ++ toString t.line ++ ":" ++
    toString t.column ++ ")"

end Token

end Lexis
