/-
Requests to one lexer, and its answers.

A step is a request that a caller may make of a lexer at any time; `Lexer.perform` carries it out.
-/
import Lexis.Lexer.Scan
import Lexis.Lexer.Stream

namespace Lexis

/-- A request to a lexer. -/
inductive Step where
  | next
  | peek
  | tokenize
  | skipSpaces
  | skipComment
  | scanInteger
  | scanWord
  | scanSymbol
  | advance (n : Nat)
  | restore (m : Mark)
  | lineText
  | faults
  | warnings
  | report
  | clear
  /-- Asks for a summary of the faults, if there are any. -/
  | summary
  | setStrict (on : Bool)
  | setLimit (limit : Int)
  | setFilename (filename : String)
  deriving DecidableEq, Repr

/-- An answer to a request. -/
inductive Answer where
  | nothing
  | token (t : Token)
  | tokens (ts : List Token)
  /-- An iterator has no more tokens. -/
  | stopped
  | text (s : String)
  | texts (ss : List String)
  | fault (f : Fault)
  deriving DecidableEq, Repr

/-- Carries out a request. -/
def Lexer.perform (x : Lexer) : Step → Answer × Lexer
  | .next => let (t, y) := x.next; (.token t, y)
  | .peek => let (t, y) := x.peek; (.token t, y)
  | .tokenize => let (ts, y) := x.tokenize; (.tokens ts, y)
  | .skipSpaces => (.nothing, x.skipSpaces)
  | .skipComment => (.nothing, x.skipComment)
  | .scanInteger => let (t, y) := x.scanInteger; (.token t, y)
  | .scanWord => let (t, y) := x.scanWord; (.token t, y)
  | .scanSymbol =>
    match x.scanSymbol with
    | (some t, y) => (.token t, y)
    | (none, y) => (.nothing, y)
  | .advance n => let (text, y) := x.advance n; (.text (String.ofList text), y)
  | .restore m => (.nothing, x.restore m)
  | .lineText => (.text (String.ofList x.cursor.lineText), x)
  | .faults => (.texts (x.diagnostics.faults.toList.map Fault.print), x)
  | .warnings => (.texts x.diagnostics.warnings.toList, x)
  | .report => (.text x.diagnostics.report, x)
  | .clear => (.nothing, x.clear)
  | .summary =>
    match x.diagnostics.summary? with
    | some f => (.fault f, x)
    | none => (.nothing, x)
  | .setStrict on => (.nothing, x.setStrict on)
  | .setLimit limit => (.nothing, x.setLimit limit)
  | .setFilename filename => (.nothing, x.setFilename filename)

theorem Lexer.perform_scanSymbol (x : Lexer) :
    x.perform .scanSymbol =
      ((x.scanSymbol.1.map Answer.token).getD .nothing, x.scanSymbol.2) := by
  rw [perform]
  cases x.scanSymbol with
  | mk t y => cases t <;> rfl

/-- A lexer that is asked for a summary stays as it is. -/
theorem Lexer.perform_summary_snd (x : Lexer) : (x.perform .summary).2 = x := by
  rw [perform]
  cases x.diagnostics.summary? <;> rfl

end Lexis
