/-
Failures of the command, and exit codes.

A failure is reported on standard error and ends the run with the code of its kind: faults of the
source, arguments and inputs that cannot be used, and everything else, which is internal.
-/
import Lexis.Diagnostic.Fault
import Lexis.Text.Utf8

namespace Lexis.Command

/-- How a run ends. -/
inductive ExitCode where
  | success
  | lexicalError
  | invalidArguments
  | internalError
  deriving DecidableEq, Repr

/-- The exit codes in order. -/
def ExitCode.all : List ExitCode :=
  [.success, .lexicalError, .invalidArguments, .internalError]

/-- The name of an exit code. -/
def ExitCode.name : ExitCode → String
  | .success => "SUCCESS"
  | .lexicalError => "LEXICAL_ERROR"
  | .invalidArguments => "INVALID_ARGS"
  | .internalError => "INTERNAL_ERROR"

/-- The number of an exit code. -/
def ExitCode.number : ExitCode → Nat
  | .success => 0
  | .lexicalError => 1
  | .invalidArguments => 2
  | .internalError => 3

/-- What the system says of a file that it cannot give. -/
structure SystemError where
  number : Int
  message : String
  filename : String
  deriving DecidableEq, Repr

/-- The wording of a system error. -/
def SystemError.print (e : SystemError) : String :=
  "[Errno " ++ toString e.number ++ "] " ++ e.message ++ ": " ++ Text.quoted e.filename

/-- The wording of a flaw in UTF-8. -/
def flawName : Text.Utf8.Flaw → String
  | .start => "invalid start byte"
  | .continuation => "invalid continuation byte"
  | .ending => "unexpected end of data"

/-- The wording of an ill-formed sequence: the byte, or the range of the bytes, and the flaw. -/
def printIllFormed (e : Text.Utf8.IllFormed) : String :=
  "'utf-8' codec can't decode " ++
    (if e.length ≤ 1 then
      "byte 0x" ++ String.ofList (Text.fixedHex 2 e.lead.toNat) ++ " in position " ++
        toString e.start
    else
      "bytes in position " ++ toString e.start ++ "-" ++ toString (e.start + e.length - 1)) ++
    ": " ++ flawName e.flaw

/-- Why a run fails. -/
inductive Failure where
  /-- Faults of the source, in printed form. -/
  | source (text : String)
  /-- A value of an argument that cannot be used, and the argument's name. -/
  | badParameter (message : String) (parameter : Option String)
  /-- A file that cannot be read. -/
  | unavailable (e : SystemError)
  /-- An input that is not UTF-8. -/
  | illFormed (e : Text.Utf8.IllFormed)
  /-- Anything else. -/
  | unexpected (text : String)
  deriving DecidableEq, Repr

namespace Failure

/-- The failure that a fault of the source amounts to. -/
def ofFault (f : Fault) : Failure :=
  .source f.print

/-- The wording of a value that cannot be used. -/
def invalidValue (message : String) (parameter : Option String) : String :=
  match parameter with
  | some p => "Invalid value for " ++ p ++ ": " ++ message
  | none => "Invalid value: " ++ message

/-- How a failure ends the run. -/
def exitCode : Failure → ExitCode
  | .source _ => .lexicalError
  | .badParameter _ _ => .invalidArguments
  | .unavailable _ => .invalidArguments
  | .illFormed _ => .invalidArguments
  | .unexpected _ => .internalError

/-- What a failure prints. -/
def print : Failure → String
  | .source text => text
  | .badParameter message parameter => "Error: " ++ invalidValue message parameter
  | .unavailable e => "Error: " ++ e.print
  | .illFormed e => "Error: " ++ printIllFormed e
  | .unexpected text => "Internal error: " ++ text

end Failure

end Lexis.Command
