/-
Faults found in a source.

A fault has a cause, and may know where it stands and what the line there reads. Its printed form
is a headline, the line with a caret under the faulty character, and a hint. A summary, which
gathers faults that are already printed, is shown as it is.
-/
import Lexis.Location
import Lexis.Text.Quoted

namespace Lexis

/-- What is wrong. -/
inductive Cause where
  /-- A character that starts no token. -/
  | invalidCharacter (c : Char)
  /-- A block comment that is never closed. -/
  | openComment
  /-- A fault in words of its own. -/
  | described (message : String) (hint : Option String)
  /-- A report on several faults. -/
  | summary (report : String) (hint : Option String)
  deriving DecidableEq, Repr

namespace Cause

/-- The description of a cause. -/
def message : Cause → String
  | .invalidCharacter c =>
    "invalid character " ++ Text.quoted c.toString ++ " (0x" ++
      String.ofList (Text.codePoint c.toNat) ++ ")"
  | .openComment => "unterminated block comment"
  | .described message _ => message
  | .summary report _ => report

/-- A suggestion for mending the source. -/
def hint? : Cause → Option String
  | .invalidCharacter c =>
    some (if c = '&' then "MiniJava only has the '&&' operator"
      else "remove the character or replace it with a valid operator")
  | .openComment => some "add closing */ to terminate the comment"
  | .described _ hint => hint
  | .summary _ hint => hint

/-- The offending character, where one is at fault. -/
def character? : Cause → Option Char
  | .invalidCharacter c => some c
  | _ => none

end Cause

/-- A fault of a source. -/
structure Fault where
  cause : Cause
  location : Option Location := none
  sourceLine : Option String := none
  deriving DecidableEq, Repr

/-- A text was given where one character is needed. -/
structure NotOneCharacter where
  length : Nat
  deriving DecidableEq, Repr

/-- The wording of the refusal. -/
def NotOneCharacter.message (e : NotOneCharacter) : String :=
  "ord() expected a character, but string of length " ++ toString e.length ++ " found"

/-- The cause that blames a text of one character. -/
def Cause.ofText (text : String) : Except NotOneCharacter Cause :=
  match text.toList with
  | [c] => .ok (.invalidCharacter c)
  | cs => .error ⟨cs.length⟩

namespace Fault

/-- The first line: where, and what. -/
def headline (f : Fault) : String :=
  match f.location with
  | some l => l.print ++ ": error: " ++ f.cause.message
  | none => "error: " ++ f.cause.message

/-- The line that points at a column of a source line printed with four spaces in front. -/
def caret (column : Int) : String :=
  String.ofList (List.replicate (4 + column - 1).toNat ' ' ++ ['^'])

/-- The source line and the caret under it. -/
def excerpt (f : Fault) : List String :=
  match f.sourceLine, f.location with
  | some line, some l => ("    " ++ line) :: if 0 < l.column then [caret l.column] else []
  | _, _ => []

/-- The line with the hint. An empty hint has none. -/
def hintLine (f : Fault) : List String :=
  match f.cause.hint? with
  | some h => if h.isEmpty then [] else ["hint: " ++ h]
  | none => []

/-- The printed form of a fault. -/
def print (f : Fault) : String :=
  match f.cause with
  | .summary report _ => report
  | _ => "\n".intercalate (f.headline :: (f.excerpt ++ f.hintLine))

end Fault

end Lexis
