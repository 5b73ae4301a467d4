/-
Sessions: several lexers side by side.

One of the lexers is current, and requests go to it. Iterators and marks are kept by name. An
iterator belongs to the lexer it was made from and moves that one; a mark belongs to nobody and may
be restored on any lexer. The log of a request comes with its answer, so every request starts with
an empty log.
-/
import Lexis.Session.Step

namespace Lexis

/-- A request to a session. -/
inductive Action where
  /-- A request to the current lexer. -/
  | step (s : Step)
  /-- Makes another lexer current. -/
  | use (i : Nat)
  /-- Makes an iterator over the current lexer. -/
  | iterate (name : String)
  /-- Asks an iterator for its next token. -/
  | pull (name : String)
  /-- Keeps the place of the current lexer. -/
  | save (name : String)
  /-- Puts the current lexer at a place that was kept. -/
  | restore (name : String)
  deriving DecidableEq, Repr

/-- Lexers, iterators and marks. -/
structure Session where
  lexers : List Lexer
  current : Nat := 0
  /-- The lexer of each iterator, and its state. -/
  iterators : List (String × Nat × TokenIterator) := []
  marks : List (String × Mark) := []
  deriving DecidableEq, Repr

namespace Session

/-- Puts a lexer into its place. -/
def put (s : Session) (i : Nat) (x : Lexer) : Session :=
  { s with lexers := s.lexers.set i x }

/-- A request to one of the lexers: its answer and what it logs. -/
def step (s : Session) (i : Nat) (request : Step) : Answer × List LogRecord × Session :=
  match s.lexers[i]? with
  | none => (.nothing, [], s)
  | some x =>
    let (answer, y) := x.withoutLog.perform request
    (answer, y.log.toList, s.put i y)

/-- The answer to a pull. -/
def pulled : Option Token → Answer
  | some t => .token t
  | none => .stopped

/-- A pull of an iterator over one of the lexers. -/
def pull (s : Session) (name : String) (i : Nat) (iterator : TokenIterator) :
    Answer × List LogRecord × Session :=
  match s.lexers[i]? with
  | none => (.nothing, [], s)
  | some x =>
    let (token, iterator, y) := iterator.pull x.withoutLog
    let s := s.put i y
    (pulled token, y.log.toList, { s with iterators := (name, i, iterator) :: s.iterators })

/-- Carries out a request. -/
def perform (s : Session) : Action → Answer × List LogRecord × Session
  | .step request => s.step s.current request
  | .use i => (.nothing, [], { s with current := i })
  | .iterate name =>
    (.nothing, [], { s with iterators := (name, s.current, {}) :: s.iterators })
  | .pull name =>
    match s.iterators.lookup name with
    | none => (.nothing, [], s)
    | some (i, iterator) => s.pull name i iterator
  | .save name =>
    match s.lexers[s.current]? with
    | none => (.nothing, [], s)
    | some x => (.nothing, [], { s with marks := (name, x.cursor.toMark) :: s.marks })
  | .restore name =>
    match s.marks.lookup name with
    | none => (.nothing, [], s)
    | some m => s.step s.current (.restore m)

end Session

end Lexis
