/-
The token stream of a lexer.

The next token is found by going over items until one gives a token; at the end of the input it is
the end token, every time. All remaining tokens can be had at once, one of them can be looked at
without being taken, and an iterator takes them until it has given an end token.
-/
import Lexis.Lexer.Basic

namespace Lexis

namespace Lexer

/-- The next token of a lexer whose remaining text is given, with the text that remains then. -/
def nextFrom (rest : List Char) (x : Lexer) : Token × List Char × Lexer :=
  match _h : Item.first? rest with
  | none => (x.endToken, rest, x)
  | some (.trivia t) => nextFrom (rest.drop t.text.length) (x.skip t)
  | some (.lexeme l) =>
    let (token, y) := x.take l
    (token, rest.drop l.text.length, y)
  | some (.invalid c) =>
    let (token, y) := x.reject c
    (token, rest.drop 1, y)
termination_by rest.length
decreasing_by exact Item.length_drop_lt _h

/-- The next token. -/
def next (x : Lexer) : Token × Lexer :=
  let (token, _, y) := nextFrom x.rest x
  (token, y)

/-- The next token, without taking it: only the log tells of it. -/
def peek (x : Lexer) : Token × Lexer :=
  let (token, y) := { x with diagnostics := { limit := x.options.maxErrors } }.next
  (token, { y with cursor := x.cursor, diagnostics := x.diagnostics })

/-- All tokens of a lexer whose remaining text is given, behind those already found, which are in
reverse. -/
def allFrom (rest : List Char) (found : List Token) (x : Lexer) : List Token × Lexer :=
  match _h : Item.first? rest with
  | none => ((x.endToken :: found).reverse, x)
  | some (.trivia t) => allFrom (rest.drop t.text.length) found (x.skip t)
  | some (.lexeme l) =>
    let (token, y) := x.take l
    allFrom (rest.drop l.text.length) (token :: found) y
  | some (.invalid c) =>
    let (token, y) := x.reject c
    allFrom (rest.drop 1) (token :: found) y
termination_by rest.length
decreasing_by
  all_goals exact Item.length_drop_lt _h

/-- All remaining tokens, the end token last, and their counts in the log. -/
def tokenize (x : Lexer) : List Token × Lexer :=
  let (tokens, y) := allFrom x.rest [] x
  (tokens, y.record .debug
    (y.filename ++ ": " ++ toString tokens.length ++ " tokens, " ++
      toString y.diagnostics.errorCount ++ " errors"))

end Lexer

/-- An iterator over the tokens of a lexer. It has no place of its own. -/
structure TokenIterator where
  finished : Bool := false
  deriving DecidableEq, Repr

/-- The next item of an iterator over a lexer: a token, until an end token has been given. -/
def TokenIterator.pull (i : TokenIterator) (x : Lexer) : Option Token × TokenIterator × Lexer :=
  if i.finished then (none, i, x)
  else
    let (token, y) := x.next
    (some token, ⟨token.isEnd⟩, y)

/-- The tokens of a source. -/
def tokenize (source : String) (filename : Option String := none) (options : Options := {}) :
    List Token :=
  (Lexer.ofSource source filename options).tokenize.1

end Lexis
