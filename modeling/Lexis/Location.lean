/-
Places in a source text.

A location names the source and gives a line and a column, both counted from 1. It is printed as
`name:line:column`.
-/
namespace Lexis

/-- The name of a source that was given as plain text. -/
def unnamedSource : String := "<input>"

/-- A line and a column of a named source. -/
structure Location where
  filename : String
  line : Int
  column : Int
  deriving DecidableEq, Repr

/-- The printed form `name:line:column`. -/
def Location.print (l : Location) : String :=
  l.filename ++ ":" ++ toString l.line ++ ":" ++ toString l.column

end Lexis
