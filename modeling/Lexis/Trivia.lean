/-
Trivia: the text between lexemes.

A piece of trivia is a run of white space, a comment up to the end of its line, a comment between
its two delimiters, or a comment that is never closed and takes the rest of the source. The line
feed that ends a line comment is not part of it.
-/
import Lexis.Text.Space

namespace Lexis

/-- A piece of text that separates lexemes. -/
inductive Trivia where
  | spaces (text : List Char)
  | lineComment (text : List Char)
  | blockComment (text : List Char)
  /-- A block comment without an end. -/
  | openComment (text : List Char)
  deriving DecidableEq, Repr

namespace Trivia

/-- The characters of a piece of trivia. -/
def text : Trivia → List Char
  | .spaces t => t
  | .lineComment t => t
  | .blockComment t => t
  | .openComment t => t

/-- How many characters there are up to the end of the first `*/`, on top of `n`. -/
def closerEnd? (n : Nat) : List Char → Option Nat
  | [] => none
  | '*' :: '/' :: _ => some (n + 2)
  | _ :: r => closerEnd? (n + 1) r

/-- The comment at the start of a text. -/
def comment? : List Char → Option Trivia
  | '/' :: '/' :: r => some (.lineComment ('/' :: '/' :: r.takeWhile (· ≠ '\n')))
  | '/' :: '*' :: r =>
    match closerEnd? 0 r with
    | some n => some (.blockComment ('/' :: '*' :: r.take n))
    | none => some (.openComment ('/' :: '*' :: r))
  | _ => none

/-- The white space at the start of a text. -/
def spaces? (r : List Char) : Option Trivia :=
  match r.takeWhile Text.isSpace with
  | [] => none
  | c :: s => some (.spaces (c :: s))

/-- The piece of trivia at the start of a text. -/
def first? (r : List Char) : Option Trivia :=
  match spaces? r with
  | some t => some t
  | none => comment? r

end Trivia

end Lexis
