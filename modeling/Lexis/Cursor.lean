/-
A cursor in a source text.

A mark is a place in a text: the offset of the next character, its line and column, and the offset
at which its line starts. Only a line feed ends a line. A cursor is a source with a mark, and going
over a character moves the mark by `Mark.after`.

Marks may be made up. An offset past the end acts as the end. An offset below zero counts from the
end of the source when a character is taken there, and lies outside the source when one is looked
at. A line start below zero counts from the end too, and stops at the first character.
-/
import Lexis.Location

namespace Lexis

/-- A place in a text. -/
structure Mark where
  offset : Int
  line : Int
  column : Int
  lineStart : Int
  deriving DecidableEq, Repr

/-- The mark after a character. -/
def Mark.after (m : Mark) (c : Char) : Mark :=
  if c = '\n' then ⟨m.offset + 1, m.line + 1, 1, m.offset + 1⟩
  else { m with offset := m.offset + 1, column := m.column + 1 }

/-- The mark after a text. -/
def Mark.moveOver (m : Mark) (text : List Char) : Mark :=
  text.foldl Mark.after m

/-- A source and a place in it. -/
structure Cursor extends Mark where
  source : List Char
  deriving DecidableEq, Repr

/-- A step to a place before the first character was asked for. -/
inductive CursorError where
  | beforeStart
  deriving DecidableEq, Repr

/-- The wording of a cursor's error. -/
def CursorError.message : CursorError → String
  | .beforeStart => "string index out of range"

namespace Cursor

/-- A cursor at the start of a source. -/
def start (source : List Char) (line : Int := 1) (column : Int := 1) : Cursor :=
  ⟨⟨0, line, column, 0⟩, source⟩

/-- Are all characters read? -/
def atEnd (c : Cursor) : Bool :=
  (c.source.length : Int) ≤ c.offset

/-- The character `ahead` places from the cursor, if that is in the source. -/
def peek? (c : Cursor) (ahead : Int := 0) : Option Char :=
  if 0 ≤ c.offset + ahead then c.source[(c.offset + ahead).toNat]? else none

/-- The place of an offset that may count from the end. -/
def fromEnd (c : Cursor) (i : Int) : Int :=
  if i < 0 then i + c.source.length else i

/-- Goes over a text that stands at the cursor. -/
def moveOver (c : Cursor) (text : List Char) : Cursor :=
  { c with toMark := c.toMark.moveOver text }

/-- The characters not yet read. -/
def rest (c : Cursor) : List Char :=
  c.source.drop c.offset.toNat

/-- The characters that are taken from the cursor on. Below zero they begin at the end of the
source, and the whole source comes after them. -/
def upcoming (c : Cursor) : List Char :=
  if c.offset < 0 then c.source.drop (c.fromEnd c.offset).toNat ++ c.source else c.rest

/-- Takes the next `n` characters, or as many as there are, and goes over them. -/
def advance (n : Nat) (c : Cursor) : Except CursorError (List Char × Cursor) :=
  if 0 < n ∧ c.fromEnd c.offset < 0 then .error .beforeStart
  else
    let text := c.upcoming.take n
    .ok (text, c.moveOver text)

/-- The text of the line that the cursor is on, without its line feed. -/
def lineText (c : Cursor) : List Char :=
  (c.source.drop (c.fromEnd c.lineStart).toNat).takeWhile (· ≠ '\n')

/-- The place of the cursor in a source of the given name. -/
def location (c : Cursor) (filename : String := unnamedSource) : Location :=
  ⟨filename, c.line, c.column⟩

/-- Puts the cursor at a mark. -/
def restore (c : Cursor) (m : Mark) : Cursor :=
  { c with toMark := m }

end Cursor

end Lexis
