/-
Log records.

A run of the lexer or of the command leaves records of two levels: details for a reader who asks
for them, and warnings that are shown in any case.
-/
namespace Lexis

/-- The level of a log record. -/
inductive Level where
  | debug
  | warning
  deriving DecidableEq, Repr

/-- The name of a level. -/
def Level.name : Level → String
  | .debug => "DEBUG"
  | .warning => "WARNING"

/-- A record of something that happened. -/
structure LogRecord where
  level : Level
  message : String
  deriving DecidableEq, Repr

end Lexis
