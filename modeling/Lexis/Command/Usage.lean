/-
What the command says of its own use.
-/
import Lexis.Text.Quoted

namespace Lexis.Command

/-- The version of the program. -/
def version : String := "1.0.0"

/-- What is shown on a request for the version. -/
def versionText : String :=
  "mjlex, version " ++ version

/-- The first line of the help. -/
def usageLine : String :=
  "Usage: mjlex [OPTIONS] [INPUT_FILE]"

/-- What is shown on a request for help. -/
def helpText : String :=
  "\n".intercalate
    [usageLine,
     "",
     "  Tokenize MiniJava source code.",
     "",
     "  INPUT_FILE is the MiniJava source file to tokenize. Use '-' or omit it to read",
     "  from standard input.",
     "",
     "  Examples:",
     "      mjlex Factorial.java            # Print tokens",
     "      mjlex --sample                  # Tokenize the sample program",
     "      mjlex -f json Main.java         # JSON output",
     "      mjlex --strict Main.java        # Exit 1 on invalid characters",
     "",
     "  Unrecognized characters never stop the scan: they show up as ERROR tokens in",
     "  the listing. With --strict they are also reported on stderr and the exit",
     "  status is 1.",
     "",
     "Options:",
     "  --sample                  Tokenize the built-in Factorial sample program",
     "  -f, --format [text|json]  Output format  [default: text]",
     "  --show-eof                Include the EOF token in text output",
     "  --strict                  Report ERROR tokens as errors and exit with status 1",
     "  --strict-comments         Warn about block comments that are never closed",
     "  -v, --verbose             Verbose output",
     "  --version                 Show the version and exit.",
     "  --help                    Show this message and exit."]

/-- What is wrong with a command line. -/
inductive UsageError where
  /-- No option has this name; the names that may have been meant. -/
  | unknownOption (name : String) (meant : List String)
  /-- The option needs a value, and the command line ends. -/
  | missingValue (name : String)
  /-- The option takes no value. -/
  | unwantedValue (name : String)
  /-- No output format has this name. -/
  | unknownFormat (value : String)
  | fileMissing (path : String)
  | fileIsDirectory (path : String)
  | fileUnreadable (path : String)
  /-- Words are left over. -/
  | extraArguments (words : List String)
  deriving DecidableEq, Repr

namespace UsageError

/-- The question that follows an unknown name. -/
def suggestionText (meant : List String) : String :=
  match meant with
  | [] => ""
  | [name] => " Did you mean " ++ Text.quoted name ++ "?"
  | _ => " (Did you mean one of: " ++ ", ".intercalate (meant.map Text.quoted) ++ "?)"

/-- The wording of an input file that cannot be used. -/
def fileText (path what : String) : String :=
  "Invalid value for '[INPUT_FILE]': File " ++ Text.quoted path ++ " " ++ what ++ "."

/-- The wording of an error. -/
def message : UsageError → String
  | .unknownOption name meant =>
    "No such option " ++ Text.quoted name ++ "." ++ suggestionText meant
  | .missingValue name => "Option " ++ Text.quoted name ++ " requires an argument."
  | .unwantedValue name => "Option " ++ Text.quoted name ++ " does not take a value."
  | .unknownFormat value =>
    "Invalid value for '-f' / '--format': " ++ Text.quoted value ++
      " is not one of 'text', 'json'."
  | .fileMissing path => fileText path "does not exist"
  | .fileIsDirectory path => fileText path "is a directory"
  | .fileUnreadable path => fileText path "is not readable"
  | .extraArguments words =>
    "Got unexpected extra argument" ++ (if words.length = 1 then " (" else "s (") ++
      " ".intercalate words ++ ")"

/-- Do the usage and the way to the help go before the error? -/
def showsUsage : UsageError → Bool
  | .missingValue _ => false
  | .unwantedValue _ => false
  | _ => true

/-- What an error prints. -/
def print (e : UsageError) : String :=
  (if e.showsUsage then usageLine ++ "\nTry 'mjlex --help' for help.\n\n" else "") ++
    "Error: " ++ e.message

end UsageError

end Lexis.Command
