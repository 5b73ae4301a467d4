/-
Looking ahead.

A look ahead searches for the next token with diagnostics of its own, and then puts cursor and
diagnostics back.  The search only writes to diagnostics (`Lexer.UpToDiagnostics.nextFrom`), so that
it finds the token and leaves the records of a call for the next one; and beside the log, the lexer
is left as it was (`Lexer.peek_snd`).  To an onlooker who takes in everything, a run is therefore the
same with and without any looks ahead (`peek_next_and_seen_eq`).
-/
import Lexis.Proofs.Lexer.Warnings
import Lexis.Proofs.Session.Onlooker

namespace Lexis

namespace Lexer

/-! ### Diagnostics play no part in the search -/

/-- The lexer with empty diagnostics. -/
def withoutDiagnostics (x : Lexer) : Lexer :=
  { x with diagnostics := {} }

/-- Two lexers differ in their diagnostics only. -/
def UpToDiagnostics (x y : Lexer) : Prop :=
  x.withoutDiagnostics = y.withoutDiagnostics

namespace UpToDiagnostics

variable {x y : Lexer}

/-- What does not read the diagnostics cannot tell the two apart. -/
theorem congr {α : Type} (h : UpToDiagnostics x y) (f : Lexer → α)
    (hf : ∀ z, f z.withoutDiagnostics = f z) : f x = f y := by
  rw [← hf x, ← hf y, show x.withoutDiagnostics = y.withoutDiagnostics from h]

theorem cursor (h : UpToDiagnostics x y) : x.cursor = y.cursor := h.congr _ fun _ => rfl

theorem filename (h : UpToDiagnostics x y) : x.filename = y.filename := h.congr _ fun _ => rfl

theorem log (h : UpToDiagnostics x y) : x.log = y.log := h.congr _ fun _ => rfl

theorem endToken (h : UpToDiagnostics x y) : x.endToken = y.endToken := h.congr _ fun _ => rfl

theorem after_withoutDiagnostics (x : Lexer) (i : Item) :
    UpToDiagnostics (x.after i) (x.withoutDiagnostics.after i) := by
  match i with
  | .trivia (.spaces t) => rfl
  | .trivia (.lineComment t) => rfl
  | .trivia (.blockComment t) => rfl
  | .trivia (.openComment t) =>
    simp only [UpToDiagnostics, Lexer.after, skip, reportOpenComment,
      apply_ite Lexer.withoutDiagnostics]
    rfl
  | .lexeme l => rfl
  | .invalid c => rfl

theorem after (h : UpToDiagnostics x y) (i : Item) : UpToDiagnostics (x.after i) (y.after i) := by
  have hx := after_withoutDiagnostics x i
  rw [show x.withoutDiagnostics = y.withoutDiagnostics from h] at hx
  exact Eq.trans hx (after_withoutDiagnostics y i).symm

/-- The same token is found with any diagnostics, and nothing else comes to differ. -/
theorem nextFrom (h : UpToDiagnostics x y) (r : List Char) :
    (Lexer.nextFrom r x).1 = (Lexer.nextFrom r y).1 ∧
      UpToDiagnostics (Lexer.nextFrom r x).2.2 (Lexer.nextFrom r y).2.2 := by
  induction r using Item.fits_induction generalizing x y with
  | nil =>
    rw [nextFrom_nil, nextFrom_nil]
    exact ⟨h.endToken, h⟩
  | item i r hi ih =>
    rw [nextFrom_append hi, nextFrom_append hi, h.cursor, h.filename]
    cases i.token? y.filename y.cursor.toMark with
    | none => exact ih (h.after i)
    | some t => exact ⟨rfl, h.after i⟩

end UpToDiagnostics

/-! ### One look ahead -/

/-- The search leaves name and options as they are. -/
theorem nextFrom_eq (r : List Char) (x : Lexer) :
    (nextFrom r x).2.2 =
      { x with
        cursor := (nextFrom r x).2.2.cursor
        diagnostics := (nextFrom r x).2.2.diagnostics
        log := (nextFrom r x).2.2.log } := by
  induction r using Item.fits_induction generalizing x with
  | nil => rw [nextFrom_nil]
  | item i r hi ih =>
    rw [nextFrom_append hi]
    cases i.token? x.filename x.cursor.toMark with
    | none =>
      have hafter := ih (x.after i)
      rw [after_filename, after_options] at hafter
      exact hafter
    | some t =>
      show x.after i =
        { x with
          cursor := (x.after i).cursor
          diagnostics := (x.after i).diagnostics
          log := (x.after i).log }
      rw [after_cursor]
      exact x.after_eq i

theorem upToDiagnostics_lookingAhead (x : Lexer) : UpToDiagnostics x.lookingAhead x := rfl

theorem peek_fst (x : Lexer) : x.peek.1 = x.next.1 :=
  (x.upToDiagnostics_lookingAhead.nextFrom x.rest).1

theorem peek_log (x : Lexer) : x.peek.2.log = x.next.2.log :=
  (x.upToDiagnostics_lookingAhead.nextFrom x.rest).2.log

/-- Beside the log, a look ahead leaves the lexer as it was. -/
theorem peek_snd (x : Lexer) : x.peek.2 = { x with log := x.peek.2.log } := by
  have hnext : x.lookingAhead.next.2 =
      { x with
        cursor := x.lookingAhead.next.2.cursor
        diagnostics := x.lookingAhead.next.2.diagnostics
        log := x.lookingAhead.next.2.log } := nextFrom_eq x.rest x.lookingAhead
  have hlog : x.peek.2.log = x.lookingAhead.next.2.log := rfl
  rw [hlog, peek_eq]
  show x.lookingAhead.next.2.backTo x = _
  rw [hnext]
  rfl

end Lexer

/-! ### Runs with looks ahead -/

/-- The onlooker who takes in everything. -/
def onlookerOfAll : Onlooker Lexer where
  lexer := id
  token := id
  log := id

theorem steady_onlookerOfAll : onlookerOfAll.Steady where
  cursor h := congrArg Lexer.cursor h
  token h kind text line column :=
    congrArg (fun x : Lexer => (⟨kind, text, line, column, x.filename⟩ : Token)) h
  isEnd _ := rfl
  log h := congrArg (fun x : Lexer => x.log.toList) h
  after h i := congrArg (fun x : Lexer => x.after i) h
  setCursor := by
    intro x y h c
    obtain rfl : x = y := h
    rfl
  lookingAhead h := congrArg Lexer.lookingAhead h
  backTo h h' := congrArg₂ Lexer.backTo h h'
  recordCount h n := congrArg (fun x : Lexer => x.recordCount n) h
  withoutLog h := congrArg Lexer.withoutLog h

/-- Is it a step other than a look ahead? -/
def Step.isMove (s : Step) : Bool :=
  s ≠ .peek

theorem perform_of_not_isMove {request : Step} (h : ¬ request.isMove = true) (x : Lexer) :
    (x.perform request).2.withoutLog = x.withoutLog := by
  obtain rfl : request = .peek := by simpa [Step.isMove] using h
  show x.peek.2.withoutLog = _
  rw [x.peek_snd]
  rfl

/-- **A look ahead finds the next token and touches nothing.**  It gives the token that the next call
would, with the same records, and leaves the lexer as it was.  So looks ahead may be put into a run
and left out anywhere: all other requests come to the same, and the session ends the same. -/
theorem peek_next_and_seen_eq :
    (∀ x : Lexer, x.peek.1 = x.next.1 ∧ x.peek.2.log = x.next.2.log ∧
      x.peek.2 = { x with log := x.peek.2.log }) ∧
    ∀ (s : Session) (as bs : List Action),
      as.filter (Action.heeded Step.isMove) = bs.filter (Action.heeded Step.isMove) →
      s.seen (Action.heeded Step.isMove) onlookerOfAll.view as =
          s.seen (Action.heeded Step.isMove) onlookerOfAll.view bs ∧
        onlookerOfAll.Alike (s.run as).2 (s.run bs).2 := by
  constructor
  · exact fun x => ⟨x.peek_fst, x.peek_log, x.peek_snd⟩
  · intro s as bs hab
    refine Onlooker.seen_eq_and_alike_run steady_onlookerOfAll ?_ ?_ (.refl s) hab
    · intro request _ x y hxy
      obtain rfl : x = y := hxy
      exact ⟨rfl, rfl⟩
    · intro request hrequest x
      exact perform_of_not_isMove hrequest x

/-- Looks ahead over a stray character and an open comment, with room for one fault, and once with
none. -/
theorem seen_eq_of_stray_character :
    [Action.step .next, .step (.setLimit 0), .step .tokenize].filter (Action.heeded Step.isMove) =
      [Action.step .peek, .step .next, .step (.setLimit 0), .step .peek, .step .peek,
        .step .tokenize].filter (Action.heeded Step.isMove) ∧
    (Session.ofLexer (.ofSource "@ # /*" none { strictComments := true, maxErrors := 1 })).seen
        (Action.heeded Step.isMove) onlookerOfAll.view
        [.step .next, .step (.setLimit 0), .step .tokenize] =
      (Session.ofLexer (.ofSource "@ # /*" none { strictComments := true, maxErrors := 1 })).seen
        (Action.heeded Step.isMove) onlookerOfAll.view
        [.step .peek, .step .next, .step (.setLimit 0), .step .peek, .step .peek,
          .step .tokenize] := by
  have hmoves : [Action.step .next, .step (.setLimit 0), .step .tokenize].filter
      (Action.heeded Step.isMove) =
        [Action.step .peek, .step .next, .step (.setLimit 0), .step .peek, .step .peek,
          .step .tokenize].filter (Action.heeded Step.isMove) := rfl
  exact ⟨hmoves, (peek_next_and_seen_eq.2 _ _ _ hmoves).1⟩

end Lexis
