/-
Reading a command line.

Words that start with a dash are options, except the dash alone and all words after a `--`; the
others are arguments, wherever they stand. A word is tried as a long option first, with a value
behind its first `=`. What starts with one dash is otherwise a group of one-letter options, and the
one that takes a value takes the rest of its group, or the next word if nothing is left there.
Reading goes from left to right and stops at the first word that cannot be read.
-/
import Lexis.Command.Suggestion
import Lexis.Command.Usage

namespace Lexis.Command

/-- The options without a value. -/
inductive Flag where
  | sample
  | showEnd
  | strict
  | strictComments
  | verbose
  | version
  | help
  deriving DecidableEq, Repr

/-- An option by its kind. -/
inductive OptionKind where
  | flag (f : Flag)
  | format
  deriving DecidableEq, Repr

/-- The long names, in the order of the help. -/
def longNames : List (String × OptionKind) :=
  [("--sample", .flag .sample), ("--format", .format), ("--show-eof", .flag .showEnd),
   ("--strict", .flag .strict), ("--strict-comments", .flag .strictComments),
   ("--verbose", .flag .verbose), ("--version", .flag .version), ("--help", .flag .help)]

/-- The options of one letter. -/
def ofLetter? : Char → Option OptionKind
  | 'f' => some .format
  | 'v' => some (.flag .verbose)
  | _ => none

/-- An option that has been read. -/
inductive Setting where
  | flag (f : Flag)
  | format (value : String)
  deriving DecidableEq, Repr

/-- What a word says: settings, and perhaps an option, by its name there, whose value is the next
word. -/
structure WordReading where
  settings : List Setting
  wanting : Option String := none
  deriving DecidableEq, Repr

/-- The part of a word before its first `=`, and the value behind it. -/
def splitValue (word : String) : String × Option String :=
  let name := word.toList.takeWhile (· ≠ '=')
  match word.toList.dropWhile (· ≠ '=') with
  | [] => (word, none)
  | _ :: value => (String.ofList name, some (String.ofList value))

/-- Reads a long option. -/
def readLong (name : String) (value : Option String) : OptionKind → Except UsageError WordReading
  | .format =>
    match value with
    | some v => .ok { settings := [.format v] }
    | none => .ok { settings := [], wanting := some name }
  | .flag f =>
    match value with
    | some _ => .error (.unwantedValue name)
    | none => .ok { settings := [.flag f] }

/-- Reads a group of one-letter options, behind the settings already read. -/
def readGroup (settings : List Setting) : List Char → Except UsageError WordReading
  | [] => .ok { settings }
  | c :: more =>
    let name := String.ofList ['-', c]
    match ofLetter? c with
    | none => .error (.unknownOption name [])
    | some (.flag f) => readGroup (settings ++ [.flag f]) more
    | some .format =>
      if more.isEmpty then .ok { settings, wanting := some name }
      else .ok { settings := settings ++ [.format (String.ofList more)] }

/-- Does a word hold options? -/
def isOptionWord (word : String) : Bool :=
  match word.toList with
  | '-' :: _ :: _ => true
  | _ => false

/-- Reads a word that holds options. -/
def readWord (word : String) : Except UsageError WordReading :=
  let (name, value) := splitValue word
  match longNames.lookup name with
  | some kind => readLong name value kind
  | none =>
    match word.toList with
    | '-' :: '-' :: _ => .error (.unknownOption name (suggestions (longNames.map (·.1)) name))
    | _ => readGroup [] (word.toList.drop 1)

/-- A command line that has been read: its settings in order, and its arguments. -/
structure CommandLine where
  settings : List Setting := []
  arguments : List String := []
  deriving DecidableEq, Repr

/-- Reads the words of a command line, behind what has already been read. -/
def readWords (line : CommandLine) : List String → Except UsageError CommandLine
  | [] => .ok line
  | word :: more =>
    if word = "--" then .ok { line with arguments := line.arguments ++ more }
    else if isOptionWord word then
      match readWord word with
      | .error e => .error e
      | .ok ⟨settings, none⟩ =>
        readWords { line with settings := line.settings ++ settings } more
      | .ok ⟨settings, some name⟩ =>
        match more with
        | [] => .error (.missingValue name)
        | value :: more =>
          readWords { line with settings := line.settings ++ settings ++ [.format value] } more
    else readWords { line with arguments := line.arguments ++ [word] } more

/-- Reads a command line. -/
def CommandLine.read (words : List String) : Except UsageError CommandLine :=
  readWords {} words

namespace CommandLine

/-- Is a flag set? -/
def has (line : CommandLine) (f : Flag) : Bool :=
  .flag f ∈ line.settings

/-- The last value given for the output format. -/
def format? (line : CommandLine) : Option String :=
  (line.settings.filterMap fun
    | .format v => some v
    | .flag _ => none).getLast?

/-- The first request for the help or the version. -/
def information? (line : CommandLine) : Option Flag :=
  (line.settings.filterMap fun
    | .flag f => some f
    | .format _ => none).find? (· ∈ [.help, .version])

end CommandLine

end Lexis.Command
