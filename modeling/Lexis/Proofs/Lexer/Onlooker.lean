/-
Lexers that look the same.

An onlooker takes in a part of a lexer and may overlook the rest.  Two lexers are the same to an
onlooker when that part is equal (`Onlooker.Same`).  An onlooker is steady when the part holds the
cursor, decides what is seen of tokens and log, and when nothing that an item or a caller does to a
lexer brings in what is overlooked (`Onlooker.Steady`).

To a steady onlooker, lexers that are the same give the same answers to every scanning step, and
stay the same (`Onlooker.Steady.perform`).  Nothing is asked of the place of the cursor: the next
token is found by induction over any text that is handed to the search.
-/
import Lexis.Proofs.Lexer.Records
import Lexis.Session.Step

namespace Lexis

/-- What is taken in of a lexer, of a token and of a log. -/
structure Onlooker (α : Type) where
  lexer : Lexer → α
  token : Token → Token
  log : List LogRecord → List LogRecord

/-- The answer with its tokens seen through a function. -/
def Answer.mapTokens (f : Token → Token) : Answer → Answer
  | .token t => .token (f t)
  | .tokens ts => .tokens (ts.map f)
  | a => a

/-- Is it a step that reads the source, or moves in it? -/
def Step.scans : Step → Bool
  | .next | .peek | .tokenize | .skipSpaces | .skipComment | .scanInteger | .scanWord
  | .scanSymbol | .advance _ | .restore _ => true
  | _ => false

namespace Lexer

/-- The lexer with diagnostics of its own, to look ahead. -/
def lookingAhead (x : Lexer) : Lexer :=
  { x with diagnostics := { limit := x.options.maxErrors } }

/-- The lexer put back to the cursor and the diagnostics of another one. -/
def backTo (y x : Lexer) : Lexer :=
  { y with cursor := x.cursor, diagnostics := x.diagnostics }

theorem peek_eq (x : Lexer) :
    x.peek = (x.lookingAhead.next.1, x.lookingAhead.next.2.backTo x) := rfl

end Lexer

namespace Onlooker

variable {α : Type} {o : Onlooker α} {x y : Lexer}

/-- The onlooker cannot tell two lexers apart. -/
def Same (o : Onlooker α) (x y : Lexer) : Prop :=
  o.lexer x = o.lexer y

/-- What is overlooked stays without effect on what is taken in. -/
structure Steady (o : Onlooker α) : Prop where
  cursor : ∀ {x y}, o.Same x y → x.cursor = y.cursor
  token : ∀ {x y}, o.Same x y → ∀ (kind : Kind) (text : String) (line column : Int),
    o.token ⟨kind, text, line, column, x.filename⟩ = o.token ⟨kind, text, line, column, y.filename⟩
  isEnd : ∀ t, (o.token t).isEnd = t.isEnd
  log : ∀ {x y}, o.Same x y → o.log x.log.toList = o.log y.log.toList
  after : ∀ {x y}, o.Same x y → ∀ i : Item, o.Same (x.after i) (y.after i)
  setCursor : ∀ {x y}, o.Same x y → ∀ c : Cursor,
    o.Same { x with cursor := c } { y with cursor := c }
  lookingAhead : ∀ {x y}, o.Same x y → o.Same x.lookingAhead y.lookingAhead
  backTo : ∀ {x y x' y'}, o.Same x' y' → o.Same x y → o.Same (x'.backTo x) (y'.backTo y)
  recordCount : ∀ {x y}, o.Same x y → ∀ n, o.Same (x.recordCount n) (y.recordCount n)
  withoutLog : ∀ {x y}, o.Same x y → o.Same x.withoutLog y.withoutLog

namespace Steady

theorem rest (h : o.Steady) (hxy : o.Same x y) : x.rest = y.rest := by
  rw [Lexer.rest, Lexer.rest, h.cursor hxy]

theorem lexerToken (h : o.Steady) (hxy : o.Same x y) (kind : Kind) (text : List Char) :
    o.token (x.token kind text) = o.token (y.token kind text) := by
  rw [Lexer.token, Lexer.token, h.cursor hxy]
  exact h.token hxy _ _ _ _

theorem moveOver (h : o.Steady) (hxy : o.Same x y) (text : List Char) :
    o.Same (x.moveOver text) (y.moveOver text) := by
  rw [Lexer.moveOver, Lexer.moveOver, h.cursor hxy]
  exact h.setCursor hxy _

/-- The token of an item looks the same, if there is one. -/
theorem token? (h : o.Steady) (hxy : o.Same x y) (i : Item) (m : Mark) :
    (i.token? x.filename m).map o.token = (i.token? y.filename m).map o.token := by
  rw [Item.token?, Item.token?]
  cases i.lexeme? with
  | none => rfl
  | some l => exact congrArg some (h.token hxy _ _ _ _)

/-! ### The stream -/

/-- The next token looks the same, and so does the lexer behind it. -/
theorem nextFrom (h : o.Steady) (hxy : o.Same x y) (r : List Char) :
    o.token (Lexer.nextFrom r x).1 = o.token (Lexer.nextFrom r y).1 ∧
      o.Same (Lexer.nextFrom r x).2.2 (Lexer.nextFrom r y).2.2 := by
  induction r using Item.fits_induction generalizing x y with
  | nil =>
    rw [Lexer.nextFrom_nil, Lexer.nextFrom_nil]
    exact ⟨h.lexerToken hxy _ _, hxy⟩
  | item i r hi ih =>
    have ht := h.token? hxy i y.cursor.toMark
    rw [Lexer.nextFrom_append hi, Lexer.nextFrom_append hi, h.cursor hxy]
    -- both have a token here, or none has
    cases hx : i.token? x.filename y.cursor.toMark with
    | none =>
      cases hy : i.token? y.filename y.cursor.toMark with
      | none => exact ih (h.after hxy i)
      | some u => simp [hx, hy] at ht
    | some t =>
      cases hy : i.token? y.filename y.cursor.toMark with
      | none => simp [hx, hy] at ht
      | some u =>
        have htu : o.token t = o.token u := by simpa [hx, hy] using ht
        exact ⟨htu, h.after hxy i⟩

theorem next (h : o.Steady) (hxy : o.Same x y) :
    o.token x.next.1 = o.token y.next.1 ∧ o.Same x.next.2 y.next.2 := by
  rw [Lexer.next, Lexer.next, h.rest hxy]
  exact h.nextFrom hxy _

theorem peek (h : o.Steady) (hxy : o.Same x y) :
    o.token x.peek.1 = o.token y.peek.1 ∧ o.Same x.peek.2 y.peek.2 := by
  obtain ⟨ht, hn⟩ := h.next (h.lookingAhead hxy)
  rw [Lexer.peek_eq, Lexer.peek_eq]
  exact ⟨ht, h.backTo hn hxy⟩

theorem foldl_after (h : o.Steady) (hxy : o.Same x y) (is : List Item) :
    o.Same (is.foldl Lexer.after x) (is.foldl Lexer.after y) := by
  induction is generalizing x y with
  | nil => exact hxy
  | cons i is ih => exact ih (h.after hxy i)

theorem map_tokens (h : o.Steady) (hxy : o.Same x y) (m : Mark) (is : List Item) :
    (Item.tokens x.filename m is).map o.token = (Item.tokens y.filename m is).map o.token := by
  induction is generalizing m with
  | nil => exact congrArg (fun t => [t]) (h.token hxy _ _ _ _)
  | cons i is ih =>
    rw [Item.tokens, Item.tokens, List.map_append, List.map_append, ih, ← Option.toList_map,
      ← Option.toList_map, h.token? hxy]

theorem tokenize (h : o.Steady) (hxy : o.Same x y) :
    x.tokenize.1.map o.token = y.tokenize.1.map o.token ∧ o.Same x.tokenize.2 y.tokenize.2 := by
  have hmap : x.tokens.map o.token = y.tokens.map o.token := by
    rw [Lexer.tokens, Lexer.tokens, h.cursor hxy, h.rest hxy]
    exact h.map_tokens hxy _ _
  have hlen : x.tokens.length = y.tokens.length := by
    simpa using congrArg List.length hmap
  have hfinish : o.Same x.finish y.finish := by
    rw [Lexer.finish, Lexer.finish, h.rest hxy]
    exact h.foldl_after hxy _
  rw [Lexer.tokenize_eq_recordCount, Lexer.tokenize_eq_recordCount, hlen]
  exact ⟨hmap, h.recordCount hfinish _⟩

/-- An iterator gives tokens that look the same, and finishes with both lexers. -/
theorem pull (h : o.Steady) (hxy : o.Same x y) (it : TokenIterator) :
    (it.pull x).1.map o.token = (it.pull y).1.map o.token ∧ (it.pull x).2.1 = (it.pull y).2.1 ∧
      o.Same (it.pull x).2.2 (it.pull y).2.2 := by
  obtain ⟨finished⟩ := it
  cases finished with
  | true => exact ⟨rfl, rfl, hxy⟩
  | false =>
    obtain ⟨ht, hn⟩ := h.next hxy
    have hend : x.next.1.isEnd = y.next.1.isEnd := by
      rw [← h.isEnd, ht, h.isEnd]
    exact ⟨congrArg some ht, congrArg TokenIterator.mk hend, hn⟩

/-! ### Every scanning step -/

theorem skipSpaces (h : o.Steady) (hxy : o.Same x y) : o.Same x.skipSpaces y.skipSpaces := by
  rw [Lexer.skipSpaces, Lexer.skipSpaces, h.rest hxy]
  cases Trivia.spaces? y.rest with
  | none => exact hxy
  | some t => exact h.after hxy (.trivia t)

theorem skipComment (h : o.Steady) (hxy : o.Same x y) : o.Same x.skipComment y.skipComment := by
  rw [Lexer.skipComment, Lexer.skipComment, h.rest hxy]
  cases Trivia.comment? y.rest with
  | none => exact hxy
  | some t => exact h.after hxy (.trivia t)

theorem take (h : o.Steady) (hxy : o.Same x y) (l : Lexeme) :
    o.token (x.take l).1 = o.token (y.take l).1 ∧ o.Same (x.take l).2 (y.take l).2 :=
  ⟨h.lexerToken hxy _ _, h.moveOver hxy _⟩

/-- Lexers that look the same give answers that look the same to every scanning step, and still
look the same behind it. -/
theorem perform (h : o.Steady) (hxy : o.Same x y) {s : Step} (hs : s.scans = true) :
    (x.perform s).1.mapTokens o.token = (y.perform s).1.mapTokens o.token ∧
      o.Same (x.perform s).2 (y.perform s).2 := by
  match s with
  | .next =>
    obtain ⟨ht, hn⟩ := h.next hxy
    exact ⟨congrArg Answer.token ht, hn⟩
  | .peek =>
    obtain ⟨ht, hn⟩ := h.peek hxy
    exact ⟨congrArg Answer.token ht, hn⟩
  | .tokenize =>
    obtain ⟨ht, hn⟩ := h.tokenize hxy
    exact ⟨congrArg Answer.tokens ht, hn⟩
  | .skipSpaces => exact ⟨rfl, h.skipSpaces hxy⟩
  | .skipComment => exact ⟨rfl, h.skipComment hxy⟩
  | .scanInteger =>
    obtain ⟨ht, hn⟩ := h.take hxy (.integer y.rest)
    rw [Lexer.perform, Lexer.perform, Lexer.scanInteger, Lexer.scanInteger, h.rest hxy]
    exact ⟨congrArg Answer.token ht, hn⟩
  | .scanWord =>
    obtain ⟨ht, hn⟩ := h.take hxy (.word y.rest)
    rw [Lexer.perform, Lexer.perform, Lexer.scanWord, Lexer.scanWord, h.rest hxy]
    exact ⟨congrArg Answer.token ht, hn⟩
  | .scanSymbol =>
    rw [Lexer.perform, Lexer.perform, Lexer.scanSymbol, Lexer.scanSymbol, h.rest hxy]
    cases Lexeme.symbol? y.rest with
    | none => exact ⟨rfl, hxy⟩
    | some l =>
      obtain ⟨ht, hn⟩ := h.take hxy l
      exact ⟨congrArg Answer.token ht, hn⟩
  | .advance n =>
    rw [Lexer.perform, Lexer.perform, Lexer.advance, Lexer.advance, h.rest hxy]
    exact ⟨rfl, h.moveOver hxy _⟩
  | .restore m =>
    rw [Lexer.perform, Lexer.perform, Lexer.restore, Lexer.restore, h.cursor hxy]
    exact ⟨rfl, h.setCursor hxy _⟩

end Steady

end Onlooker

end Lexis
