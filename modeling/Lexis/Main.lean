/-
The command as a program: it gathers what the command needs from the system, and writes what the
command says.
-/
import Lexis.Command.Run

namespace Lexis.Command

/-- What the file system has at a path. -/
def entryAt (path : String) : IO Entry := do
  try
    return .file (← IO.FS.readBinFile path).toList
  catch
    | .permissionDenied .. => return .unreadable
    | .inappropriateType .. => return .directory
    | _ => return .missing

/-- What each path of a command line leads to. Only the first argument is looked up, and the dash
is no path. -/
def entriesFor (words : List String) : IO (String → Entry) := do
  match CommandLine.read words with
  | .ok ⟨_, path :: _⟩ =>
    let entry ← if path = "-" then pure .missing else entryAt path
    return fun p => if p = path then entry else .missing
  | _ => return fun _ => .missing

/-- All bytes of a stream, behind those already read. -/
partial def readAll (stream : IO.FS.Stream) (bytes : ByteArray) : IO ByteArray := do
  let more ← stream.read 65536
  if more.isEmpty then return bytes else readAll stream (bytes ++ more)

/-- The settings of the environment. -/
def readEnvironment : IO Environment := do
  return ⟨← IO.getEnv "MINIJAVA_STRICT_COMMENTS", ← IO.getEnv "MINIJAVA_MAX_ERRORS"⟩

/-- Carries out a command line. Standard input is read only if the task asks for it. -/
def execute (words : List String) : IO Outcome := do
  let look ← entriesFor words
  match Task.ofWords look words with
  | .error e => return e.outcome
  | .ok task =>
    let input ←
      if task.readsStandardInput then readAll (← IO.getStdin) ByteArray.empty
      else pure ByteArray.empty
    return task.perform (← readEnvironment) input.toList

end Lexis.Command

/-- Runs the program and gives its exit code. -/
def main (words : List String) : IO UInt32 := do
  let outcome ← Lexis.Command.execute words
  (← IO.getStdout).putStr outcome.output
  (← IO.getStderr).putStr outcome.errors
  return outcome.exit.number.toUInt32
