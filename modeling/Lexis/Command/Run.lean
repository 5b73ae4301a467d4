/-
Running the command.

The source is read, the options are settled, all tokens are found, and they are listed on standard
output in the format asked for. Warnings go to standard error; in a strict run so does a report,
if there are faults, and the exit code tells of it.
-/
import Lexis.Command.Outcome
import Lexis.Command.Plan
import Lexis.Command.Sample
import Lexis.Lexer.Stream
import Lexis.Text.LineEnding
import Lexis.Token.Json
import Lexis.Token.Listing

namespace Lexis.Command

/-- The text of an input, with line feeds for line endings. -/
def readText (bytes : List UInt8) : Except Failure String :=
  match Text.Utf8.decode bytes with
  | .ok cs => .ok (String.ofList (Text.withLineFeeds cs))
  | .error e => .error (.illFormed e)

/-- A source text and its name. -/
structure Source where
  name : String
  text : String
  deriving DecidableEq, Repr

/-- The name of standard input as a source. -/
def standardInputName : String := "<stdin>"

/-- The source that a plan names, given what standard input holds. -/
def Plan.source (p : Plan) (standardInput : List UInt8) : Except Failure Source :=
  if p.sample then
    match p.input with
    | some _ =>
      .error (.badParameter "INPUT_FILE cannot be combined with --sample" (some "'--sample'"))
    | none => .ok ⟨sampleName, sampleProgram⟩
  else
    match p.input with
    | some (.file path content) => (readText content).map (⟨path, ·⟩)
    | _ => (readText standardInput).map (⟨standardInputName, ·⟩)

/-- The options of a run, and the warnings on the way. -/
def Plan.options (p : Plan) (env : Environment) (name : String) : Options × List LogRecord :=
  let (o, log) := Options.ofEnvironment env
  ({ o with filename := name, strictComments := p.strictComments || o.strictComments }, log)

/-- The tokens in a format. -/
def Format.print (f : Format) (showEnd : Bool) (tokens : List Token) : String :=
  match f with
  | .text => listing tokens showEnd
  | .json => (tokensToJson tokens).print

/-- What a lexer's run tells the reader before the end: the settings, the log, the warnings and,
in a verbose run, the name at the start and the counts at the end. -/
def Plan.notices (p : Plan) (env : Environment) (name : String) (after : Lexer) : List Notice :=
  let (options, settling) := p.options env name
  let d := after.diagnostics
  (settling ++ [(⟨.debug, "Lexer options: " ++ options.print⟩ : LogRecord)]).map .record ++
    (if p.verbose then [.line ("Tokenizing " ++ name ++ "...")] else []) ++
    after.log.toList.map .record ++
    d.warnings.toList.map .line ++
    (if p.verbose then
      [.line (toString d.errorCount ++ " invalid characters, " ++ toString d.warnings.size ++
        " warnings")]
    else [])

/-- Tokenizes a source as planned. -/
def Plan.tokenize (p : Plan) (env : Environment) (source : Source) : Outcome :=
  let (options, _) := p.options env source.name
  let (tokens, after) := (Lexer.ofSource source.text none options).tokenize
  let told := printAll p.verbose (p.notices env source.name after)
  let output := shown (p.format.print p.showEnd tokens)
  match if p.strict then after.diagnostics.summary? else none with
  | none => { exit := .success, output, errors := told }
  | some fault =>
    let failed := (Failure.ofFault fault).outcome p.verbose
    { exit := failed.exit, output, errors := told ++ failed.errors }

/-- Carries out a plan, given what standard input holds. -/
def Plan.run (p : Plan) (env : Environment) (standardInput : List UInt8) : Outcome :=
  match p.source standardInput with
  | .ok source => p.tokenize env source
  | .error failure => failure.outcome p.verbose

/-- Carries out a task, given what standard input holds. -/
def Task.perform (env : Environment) (standardInput : List UInt8) : Task → Outcome
  | .help => { exit := .success, output := shown helpText }
  | .version => { exit := .success, output := shown versionText }
  | .run plan => plan.run env standardInput

/-- The outcome of a usage error. -/
def UsageError.outcome (e : UsageError) : Outcome :=
  { exit := .invalidArguments, errors := shown e.print }

/-- Does a task read standard input? -/
def Task.readsStandardInput : Task → Bool
  | .run plan =>
    !plan.sample &&
      match plan.input with
      | some (.file _ _) => false
      | _ => true
  | _ => false

/-- The whole command: a command line, what each path leads to, the environment and standard
input. -/
def run (look : String → Entry) (env : Environment) (words : List String)
    (standardInput : List UInt8) : Outcome :=
  match Task.ofWords look words with
  | .ok task => task.perform env standardInput
  | .error e => e.outcome

end Lexis.Command
