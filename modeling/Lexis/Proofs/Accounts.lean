/-
Four accounts of one run.

What a run finds is told four times over: in the tokens, in the faults that are kept, in the count
of those that are not, and in the log.  Each is written at a place of its own, and they agree for
every source and every limit (`accounts_tokenize`).

* `Fault.Blames` — a fault blames a token, and quotes the line of the source that the token is on;
* `Lexer.forall₂_blames` — each stray character of a text is blamed once, in order, by induction
  along the items with the cursor behind the text that is already read;
* `Lexer.Accounts` — the accounts of a whole run.
-/
import Lexis.Proofs.Lexer.Faults
import Lexis.Proofs.Lexer.Records
import Mathlib.Data.List.Forall2

namespace Lexis

/-- A fault blames the one character of a token, at its place and with its line of the source. -/
structure Fault.Blames (source : List Char) (filename : String) (t : Token) (f : Fault) :
    Prop where
  character : ∃ c, t.text.toList = [c] ∧ f.cause = .invalidCharacter c
  location : f.location = some ⟨filename, t.line, t.column⟩
  sourceLine : ∃ l, (source.splitOn '\n')[(t.line - 1).toNat]? = some l ∧
    f.sourceLine = some (String.ofList l)

namespace Lexer

variable {x : Lexer} {a r : List Char}

/-- What a lexer says of a stray character behind a text, the source does as well. -/
theorem blames_faultAt (hx : x.cursor = (Cursor.start (a ++ r)).moveOver a) (c : Char) :
    (x.faultAt c).Blames (a ++ r) x.filename (x.token .invalid [c]) where
  character := ⟨c, String.toList_ofList, rfl⟩
  location := rfl
  sourceLine := by
    have hline : x.cursor.line = 1 + a.count '\n' := by
      rw [hx]
      exact Mark.moveOver_line _ a
    have hindex : (x.cursor.line - 1).toNat = a.count '\n' := by omega
    refine ⟨lastLine a ++ r.takeWhile (· ≠ '\n'), ?_, ?_⟩
    · show ((a ++ r).splitOn '\n')[(x.cursor.line - 1).toNat]? = _
      rw [hindex, line_of_append]
    · show some (String.ofList x.cursor.lineText) = _
      rw [hx, Cursor.lineText_moveOver]

/-- Every stray character of a text is blamed, in order, and nothing else is. -/
theorem forall₂_blames (hx : x.cursor = (Cursor.start (a ++ r)).moveOver a) :
    List.Forall₂ (Fault.Blames (a ++ r) x.filename)
      ((Item.tokens x.filename x.cursor.toMark (Item.split r)).filter Token.isInvalid)
      (x.faults (Item.split r)) := by
  induction r using Item.fits_induction generalizing x a with
  | nil =>
    rw [Item.split_nil]
    exact .nil
  | item i r h ih =>
    -- behind the item, the cursor is behind its text as well
    have hafter : (x.after i).cursor = (Cursor.start (a ++ i.text ++ r)).moveOver (a ++ i.text) := by
      rw [after_cursor, hx, List.append_assoc, Cursor.moveOver, Cursor.moveOver, Cursor.moveOver,
        Mark.moveOver_append]
    have hrest := ih hafter
    rw [List.append_assoc, after_filename, after_cursor] at hrest
    rw [Item.split_append h, faults]
    cases i with
    | trivia t => exact hrest
    | lexeme l =>
      rw [Item.filter_tokens_lexeme h]
      exact hrest
    | invalid c =>
      rw [Item.filter_tokens_invalid]
      exact .cons (blames_faultAt hx c) hrest

/-- The tokens of stray characters, in order. -/
def strays (tokens : List Token) : List Token :=
  tokens.filter Token.isInvalid

/-- How many of some faults a limit keeps. -/
def kept (limit : Int) (n : Nat) : Nat :=
  min n (max 0 limit).toNat

/-- A run over a source, with a limit for faults, has given some tokens and led to a lexer: what
the lexer has kept, counted and logged is what the tokens say. -/
structure Accounts (source : List Char) (filename : String) (limit : Int) (tokens : List Token)
    (y : Lexer) : Prop where
  /-- The first of the stray characters are blamed, as many as the limit keeps. -/
  faults : List.Forall₂ (Fault.Blames source filename)
    ((strays tokens).take (kept limit (strays tokens).length)) y.diagnostics.faults.toList
  suppressed : y.diagnostics.suppressed =
    (strays tokens).length - kept limit (strays tokens).length
  errorCount : y.diagnostics.errorCount = (strays tokens).length
  hasErrors : y.diagnostics.hasErrors = true ↔ 0 < (strays tokens).length
  /-- The log has all of the stray characters, at most one open comment, and the counts. -/
  log : ∃ opened : Option Location, y.log.toList =
    (strays tokens).map strayRecord ++ opened.toList.map openRecord ++
      [countRecord filename tokens.length (strays tokens).length]

theorem room_ofSource (source : String) (filename : Option String) (options : Options) :
    (ofSource source filename options).diagnostics.room = (max 0 options.maxErrors).toNat := by
  show (options.maxErrors - ((#[] : Array Fault).size : Int)).toNat = _
  rw [Array.size_empty]
  omega

theorem forall₂_blames_tokenize (source : String) (filename : Option String) (options : Options) :
    List.Forall₂ (Fault.Blames source.toList (filename.getD options.filename))
      ((strays (ofSource source filename options).tokens).take
        (kept options.maxErrors (strays (ofSource source filename options).tokens).length))
      (ofSource source filename options).tokenize.2.diagnostics.faults.toList := by
  set x := ofSource source filename options with hx
  have hroom : x.diagnostics.room = (max 0 options.maxErrors).toNat :=
    room_ofSource source filename options
  have hfaults : x.tokenize.2.diagnostics.faults.toList =
      (x.faults (Item.split x.rest)).take (max 0 options.maxErrors).toNat := by
    rw [toList_faults_tokenize, hroom]
    rfl
  have hblames : List.Forall₂ (Fault.Blames source.toList (filename.getD options.filename))
      (strays x.tokens) (x.faults (Item.split x.rest)) :=
    forall₂_blames (x := x) (a := []) (r := source.toList) rfl
  rw [hfaults, kept, Nat.min_comm, ← List.take_eq_take_min]
  exact List.forall₂_take _ hblames

theorem suppressed_tokenize_ofSource (source : String) (filename : Option String)
    (options : Options) :
    (ofSource source filename options).tokenize.2.diagnostics.suppressed =
      (strays (ofSource source filename options).tokens).length -
        kept options.maxErrors (strays (ofSource source filename options).tokens).length := by
  have hsuppressed := (ofSource source filename options).tokenize_suppressed
  have hstart : (ofSource source filename options).diagnostics.suppressed = 0 := rfl
  rw [hsuppressed, room_ofSource, hstart, kept, strays]
  omega

end Lexer

/-- **The accounts of every run agree**: of the tokens of the invalid kind, the first are kept as
faults as far as the limit goes, the others are counted, and the log has one record of each. -/
theorem accounts_tokenize (source : String) (filename : Option String) (options : Options) :
    Lexer.Accounts source.toList (filename.getD options.filename) options.maxErrors
      (Lexer.ofSource source filename options).tokenize.1
      (Lexer.ofSource source filename options).tokenize.2 := by
  have hfaults := Lexer.forall₂_blames_tokenize source filename options
  have hsuppressed := Lexer.suppressed_tokenize_ofSource source filename options
  obtain ⟨opened, hlog⟩ := (Lexer.ofSource source filename options).tokenize_log
  rw [Lexer.tokenize_fst]
  set x := Lexer.ofSource source filename options
  -- what is kept and what is counted make up all of them
  have hcount : x.tokenize.2.diagnostics.errorCount = (Lexer.strays x.tokens).length := by
    have hsize : x.tokenize.2.diagnostics.faults.size =
        min (Lexer.kept options.maxErrors (Lexer.strays x.tokens).length)
          (Lexer.strays x.tokens).length := by
      rw [← Array.length_toList, ← hfaults.length_eq, List.length_take]
    rw [Diagnostics.errorCount, hsuppressed, hsize, Lexer.kept]
    omega
  refine ⟨hfaults, hsuppressed, hcount, ?_, opened, ?_⟩
  · rw [Diagnostics.hasErrors, decide_eq_true_eq, hcount]
  · rw [hlog, hcount]
    rfl

end Lexis
