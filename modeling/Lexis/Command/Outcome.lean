/-
What a run writes.

A line for the reader loses its terminal control sequences and gets a line feed. A log record is
shown as it is, and only if its level asks for it: all records with their level where the run is
verbose, else the warnings alone.
-/
import Lexis.Command.Failure
import Lexis.Log
import Lexis.Text.ControlSequence

namespace Lexis.Command

/-- A line for the reader. -/
def shown (text : String) : String :=
  String.ofList (Text.ControlSequence.strip text.toList) ++ "\n"

/-- Something that goes to standard error. -/
inductive Notice where
  | record (r : LogRecord)
  | line (text : String)
  deriving DecidableEq, Repr

/-- What a notice writes. -/
def Notice.print (verbose : Bool) : Notice → String
  | .line text => shown text
  | .record r =>
    if verbose then r.level.name ++ ": " ++ r.message ++ "\n"
    else
      match r.level with
      | .warning => r.message ++ "\n"
      | .debug => ""

/-- How a run ends and what it has written. -/
structure Outcome where
  exit : ExitCode
  output : String := ""
  errors : String := ""
  deriving DecidableEq, Repr

/-- The text of all notices, in order. -/
def printAll (verbose : Bool) (notices : List Notice) : String :=
  String.join (notices.map (Notice.print verbose))

/-- The outcome of a failure. An unexpected one in a verbose run is followed by the trace of the
error that is being handled, and there is none. -/
def Failure.outcome (f : Failure) (verbose : Bool) : Outcome where
  exit := f.exitCode
  errors := shown f.print ++
    match f with
    | .unexpected _ => if verbose then "NoneType: None\n" else ""
    | _ => ""

end Lexis.Command
