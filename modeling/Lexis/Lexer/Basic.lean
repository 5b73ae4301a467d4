/-
The state of a lexer, and how one item changes it.

A lexer has a cursor, a name for its source, options, diagnostics and a log. Items move the cursor
over their text and nothing else, with two exceptions: a comment that is never closed is logged
and, under strict comments, warned about, and an invalid character is logged and kept as a fault.
What stands at the cursor decides every step; options and diagnostics are only written to.
-/
import Lexis.Cursor
import Lexis.Diagnostic.Diagnostics
import Lexis.Item
import Lexis.Options
import Lexis.Token.Basic

namespace Lexis

/-- A lexer at some place of its source. -/
structure Lexer where
  cursor : Cursor
  filename : String
  options : Options
  diagnostics : Diagnostics
  log : Array LogRecord := #[]
  deriving DecidableEq, Repr

namespace Lexer

/-- A lexer at the start of a source. A name given here goes before the one in the options. -/
def ofSource (source : String) (filename : Option String := none) (options : Options := {}) :
    Lexer where
  cursor := .start source.toList
  filename := filename.getD options.filename
  options := options
  diagnostics := { limit := options.maxErrors }

/-- The characters not yet read. -/
def rest (x : Lexer) : List Char :=
  x.cursor.rest

/-- The place of the next character. -/
def here (x : Lexer) : Location :=
  x.cursor.location x.filename

/-- Adds a record to the log. -/
def record (x : Lexer) (level : Level) (message : String) : Lexer :=
  { x with log := x.log.push ⟨level, message⟩ }

/-- The lexer with an empty log. -/
def withoutLog (x : Lexer) : Lexer :=
  { x with log := #[] }

/-- Moves over a text that stands at the cursor. -/
def moveOver (x : Lexer) (text : List Char) : Lexer :=
  { x with cursor := x.cursor.moveOver text }

/-- The token of a text that stands at the cursor. -/
def token (x : Lexer) (kind : Kind) (text : List Char) : Token :=
  ⟨kind, String.ofList text, x.cursor.line, x.cursor.column, x.filename⟩

/-- The token at the end of the input. -/
def endToken (x : Lexer) : Token :=
  x.token .endOfInput []

/-- Tells of a comment that starts at a place and is never closed. -/
def reportOpenComment (x : Lexer) (start : Location) : Lexer :=
  let y := x.record .debug (start.print ++ ": block comment runs to end of input")
  if x.options.strictComments then
    { y with diagnostics := y.diagnostics.warn Cause.openComment.message (some start) }
  else y

/-- Moves over a piece of trivia. -/
def skip (x : Lexer) (t : Trivia) : Lexer :=
  match t with
  | .openComment text => (x.moveOver text).reportOpenComment x.here
  | _ => x.moveOver t.text

/-- Moves over a lexeme and gives its token. -/
def take (x : Lexer) (l : Lexeme) : Token × Lexer :=
  (x.token l.kind l.text, x.moveOver l.text)

/-- The fault of an invalid character at the cursor. -/
def faultAt (x : Lexer) (c : Char) : Fault where
  cause := .invalidCharacter c
  location := some x.here
  sourceLine := some (String.ofList x.cursor.lineText)

/-- Keeps the fault of an invalid character at the cursor. -/
def keepFault (x : Lexer) (c : Char) : Lexer :=
  { x with diagnostics := x.diagnostics.add (x.faultAt c) }

/-- Moves over an invalid character, keeps its fault, and gives its token. -/
def reject (x : Lexer) (c : Char) : Token × Lexer :=
  let token := x.token .invalid [c]
  let message := x.here.print ++ ": invalid character " ++ Text.quoted c.toString
  (token, ((x.keepFault c).moveOver [c]).record .debug message)

end Lexer

end Lexis
