/-
What a command line asks for.

A request for the help or the version is met before any value is checked. Then the output format
is checked, then the input file, and last whether arguments are left over. What remains is a plan:
settings and an input, which may still be one too many.
-/
import Lexis.Command.Arguments
import Lexis.Command.Path

namespace Lexis.Command

/-- The output formats. -/
inductive Format where
  | text
  | json
  deriving DecidableEq, Repr

/-- A character with its case folded, as far as the names of formats can show. -/
def foldCase (c : Char) : Char :=
  if c = 'ſ' then 's' else c.toLower

/-- The format of a given name, in letters of any case. -/
def Format.ofName? (name : String) : Option Format :=
  let folded := String.ofList (name.toList.map foldCase)
  if folded = "text" then some .text
  else if folded = "json" then some .json
  else none

/-- Where the source comes from. -/
inductive Input where
  | standardInput
  /-- A file, by the path as displayed and by its content. -/
  | file (path : String) (content : List UInt8)
  deriving DecidableEq, Repr

/-- What a run is to do. -/
structure Plan where
  /-- The input that is named, if one is. -/
  input : Option Input := none
  sample : Bool := false
  format : Format := .text
  showEnd : Bool := false
  strict : Bool := false
  strictComments : Bool := false
  verbose : Bool := false
  deriving DecidableEq, Repr

/-- What a command line asks for. -/
inductive Task where
  | help
  | version
  | run (plan : Plan)
  deriving DecidableEq, Repr

/-- The format that a value names. -/
def checkFormat : Option String → Except UsageError Format
  | none => .ok .text
  | some value =>
    match Format.ofName? value with
    | some f => .ok f
    | none => .error (.unknownFormat value)

/-- The input that an argument names. The dash is standard input, and so is a file whose path is
displayed as a dash. -/
def checkInput (look : String → Entry) (path : String) : Except UsageError Input :=
  if path = "-" then .ok .standardInput
  else
    match look path with
    | .missing => .error (.fileMissing path)
    | .directory => .error (.fileIsDirectory path)
    | .unreadable => .error (.fileUnreadable path)
    | .file content =>
      if displayPath path = "-" then .ok .standardInput
      else .ok (.file (displayPath path) content)

/-- The input that the arguments name. -/
def checkArguments (look : String → Entry) : List String → Except UsageError (Option Input)
  | [] => .ok none
  | path :: more => do
    let input ← checkInput look path
    if more.isEmpty then return some input else throw (.extraArguments more)

/-- The plan of a command line that asks for no information. -/
def CommandLine.plan (look : String → Entry) (line : CommandLine) : Except UsageError Plan := do
  let format ← checkFormat line.format?
  let input ← checkArguments look line.arguments
  return {
    input, format
    sample := line.has .sample
    showEnd := line.has .showEnd
    strict := line.has .strict
    strictComments := line.has .strictComments
    verbose := line.has .verbose }

/-- The task of a command line, given what each path leads to. -/
def Task.ofWords (look : String → Entry) (words : List String) : Except UsageError Task := do
  let line ← CommandLine.read words
  match line.information? with
  | some .help => return .help
  | some _ => return .version
  | none => return .run (← line.plan look)

end Lexis.Command
