/-
Options of the lexer.

They come from the defaults, then from two environment variables, then from overrides by name, in
that order. A variable that is unset or empty changes nothing. A limit that is no numeral, or is
below one, is left out with a warning.
-/
import Lexis.Location
import Lexis.Log
import Lexis.Text.Numeral
import Lexis.Text.Quoted

namespace Lexis

/-- What a lexer may be told. -/
structure Options where
  /-- The name of the source in tokens and diagnostics. -/
  filename : String := unnamedSource
  /-- Whether a block comment that is never closed is worth a warning. -/
  strictComments : Bool := false
  /-- How many faults are kept. -/
  maxErrors : Int := 100
  deriving DecidableEq, Repr

/-- The environment variables that the options heed. -/
structure Environment where
  strictComments : Option String := none
  maxErrors : Option String := none
  deriving DecidableEq, Repr

/-- A setting by name. -/
inductive Override where
  | filename (name : String)
  | strictComments (on : Bool)
  | maxErrors (limit : Int)
  /-- A name that no option has. -/
  | unknown (name : String)
  deriving DecidableEq, Repr

/-- An override named no option. -/
structure UnknownOption where
  name : String
  deriving DecidableEq, Repr

/-- The wording of the refusal. -/
def UnknownOption.message (e : UnknownOption) : String :=
  "unknown lexer option '" ++ e.name ++ "'"

namespace Options

/-- Does a text switch an option on? -/
def isOn (text : String) : Bool :=
  String.ofList ((Text.trim Text.isSpace text.toList).map Char.toLower) ∈
    ["1", "true", "yes", "on"]

/-- The limit that a text asks for: a numeral of at least one. -/
def limit? (text : String) : Option Int :=
  (Text.numeral? text).filter (1 ≤ ·)

/-- A variable's text, unless it is unset or empty. -/
def setting? (value : Option String) : Option String :=
  value.filter (!·.isEmpty)

/-- The options that an environment asks for, and the warnings on the way. -/
def ofEnvironment (env : Environment) : Options × List LogRecord :=
  let strict := ((setting? env.strictComments).map isOn).getD false
  match setting? env.maxErrors with
  | none => ({ strictComments := strict }, [])
  | some text =>
    match limit? text with
    | some n => ({ strictComments := strict, maxErrors := n }, [])
    | none =>
      ({ strictComments := strict },
        [⟨.warning, "Ignoring invalid MINIJAVA_MAX_ERRORS value " ++ Text.quoted text⟩])

/-- The options with one setting changed. -/
def set (o : Options) : Override → Except UnknownOption Options
  | .filename name => .ok { o with filename := name }
  | .strictComments on => .ok { o with strictComments := on }
  | .maxErrors limit => .ok { o with maxErrors := limit }
  | .unknown name => .error ⟨name⟩

/-- The options that an environment and overrides ask for. The first unknown name is refused. -/
def resolve (env : Environment) (overrides : List Override := []) :
    Except UnknownOption (Options × List LogRecord) := do
  let (o, log) := ofEnvironment env
  return (← overrides.foldlM set o, log)

/-- The printed form of the options. -/
def print (o : Options) : String :=
  "LexerOptions(filename=" ++ Text.quoted o.filename ++ ", strict_comments=" ++
    (if o.strictComments then "True" else "False") ++ ", max_errors=" ++ toString o.maxErrors ++ ")"

end Options

end Lexis
