/-
Scanning heeds nothing but the source.

Options, the name of the source and diagnostics are written into what a lexer tells, and have no say
in how it scans.  Two onlookers make this precise.

* `onlookerOfPlaces` takes in where a lexer stands, and of a token everything but the name of the
  source.  Whoever scans two sessions in the same way, and changes names, options, limits and
  diagnostics in between as he likes, sees the same.
* `onlookerExceptWarnings` takes in everything but strictness and warnings.  Whoever makes the same
  requests of two sessions, except that he makes them strict or not, sees the same.

Both are steady, and both halves of `seen_eq_of_same_requests` follow by way of runs that are alike.
-/
import Lexis.Proofs.Diagnostics
import Lexis.Proofs.Session.Onlooker

namespace Lexis

/-- The token without the name of its source. -/
def Token.anonymous (t : Token) : Token :=
  { t with filename := "" }

/-- The lexer with strictness and warnings taken away. -/
def Lexer.lenient (x : Lexer) : Lexer :=
  { x with
    options := { x.options with strictComments := false }
    diagnostics := x.diagnostics.withoutWarnings }

/-- The onlooker for places: where lexers stand, and what tokens are but for their sources. -/
def onlookerOfPlaces : Onlooker Cursor where
  lexer := Lexer.cursor
  token := Token.anonymous
  log := fun _ => []

/-- The onlooker for everything but strictness and warnings. -/
def onlookerExceptWarnings : Onlooker Lexer where
  lexer := Lexer.lenient
  token := id
  log := id

/-- Is it a step that has to do with strictness or warnings? -/
def Step.concernsWarnings : Step → Bool
  | .setStrict _ | .warnings | .report | .summary => true
  | _ => false

/-! ### Places -/

theorem steady_onlookerOfPlaces : onlookerOfPlaces.Steady where
  cursor h := h
  token _ _ _ _ _ := rfl
  isEnd _ := rfl
  log _ := rfl
  after := by
    intro x y h i
    show (x.after i).cursor = (y.after i).cursor
    rw [Lexer.after_cursor, Lexer.after_cursor, show x.cursor = y.cursor from h]
  setCursor _ _ := rfl
  lookingAhead h := h
  backTo _ h := h
  recordCount h _ := h
  withoutLog h := h

/-- No other step moves the cursor. -/
theorem cursor_perform {s : Step} (hs : ¬ s.scans = true) (x : Lexer) :
    (x.perform s).2.cursor = x.cursor := by
  match s with
  | .next | .peek | .tokenize | .skipSpaces | .skipComment | .scanInteger | .scanWord
  | .scanSymbol | .advance _ | .restore _ => exact absurd rfl hs
  | .lineText | .faults | .warnings | .report | .clear | .setStrict _ | .setLimit _
  | .setFilename _ => rfl
  | .summary => rw [x.perform_summary_snd]

/-! ### Everything but warnings -/

/-- What an item does, it does without heeding strictness or warnings. -/
theorem lenient_after (x : Lexer) (i : Item) : (x.after i).lenient = x.lenient.after i := by
  match i with
  | .trivia (.spaces t) => rfl
  | .trivia (.lineComment t) => rfl
  | .trivia (.blockComment t) => rfl
  | .trivia (.openComment t) =>
    -- a warning is overlooked on the left, and there is none on the right
    have hstrict : (x.lenient.moveOver t).options.strictComments = false := rfl
    simp only [Lexer.after, Lexer.skip, Lexer.reportOpenComment, hstrict]
    split <;> rfl
  | .lexeme l => rfl
  | .invalid c =>
    have hadd : (x.diagnostics.add (x.faultAt c)).withoutWarnings =
        x.diagnostics.withoutWarnings.add (x.faultAt c) :=
      x.diagnostics.withoutWarnings_addAll [x.faultAt c]
    exact congrArg
      (fun d => { x.after (.invalid c) with options := x.lenient.options, diagnostics := d }) hadd

theorem cursor_of_lenient_eq {x y : Lexer} (h : x.lenient = y.lenient) : x.cursor = y.cursor := by
  have hcursor : x.lenient.cursor = y.lenient.cursor := by rw [h]
  exact hcursor

theorem steady_onlookerExceptWarnings : onlookerExceptWarnings.Steady where
  cursor h := cursor_of_lenient_eq h
  token := by
    intro x y h kind text line column
    have hlenient : x.lenient = y.lenient := h
    have hname : x.lenient.filename = y.lenient.filename := by rw [hlenient]
    exact congrArg (fun name => (⟨kind, text, line, column, name⟩ : Token)) hname
  isEnd _ := rfl
  log h := congrArg (fun z => z.log.toList) h
  after := by
    intro x y h i
    show (x.after i).lenient = (y.after i).lenient
    rw [lenient_after, lenient_after, show x.lenient = y.lenient from h]
  setCursor := by
    intro x y h c
    have hlenient : x.lenient = y.lenient := h
    show ({ x.lenient with cursor := c } : Lexer) = { y.lenient with cursor := c }
    rw [hlenient]
  lookingAhead h := congrArg Lexer.lookingAhead h
  backTo h h' := congrArg₂ Lexer.backTo h h'
  recordCount h n := congrArg (fun z : Lexer => z.recordCount n) h
  withoutLog h := congrArg Lexer.withoutLog h

/-- A step that has to do with neither is answered alike. -/
theorem perform_of_lenient_eq {x y : Lexer} (h : x.lenient = y.lenient) {s : Step}
    (hs : s.concernsWarnings = false) :
    (x.perform s).1.mapTokens id = (y.perform s).1.mapTokens id ∧
      (x.perform s).2.lenient = (y.perform s).2.lenient := by
  match s with
  | .next | .peek | .tokenize | .skipSpaces | .skipComment | .scanInteger | .scanWord
  | .scanSymbol | .advance _ | .restore _ => exact steady_onlookerExceptWarnings.perform h rfl
  | .lineText =>
    rw [Lexer.perform, Lexer.perform, cursor_of_lenient_eq h]
    exact ⟨rfl, h⟩
  | .faults =>
    have hfaults : x.diagnostics.faults = y.diagnostics.faults :=
      congrArg (fun z => z.diagnostics.faults) h
    rw [Lexer.perform, Lexer.perform, hfaults]
    exact ⟨rfl, h⟩
  | .clear => exact ⟨rfl, congrArg Lexer.clear h⟩
  | .setLimit n => exact ⟨rfl, congrArg (Lexer.setLimit n) h⟩
  | .setFilename name => exact ⟨rfl, congrArg (Lexer.setFilename name) h⟩
  | .warnings | .report | .summary | .setStrict _ => cases hs

/-- A step that has to do with strictness or warnings changes nothing else. -/
theorem lenient_perform {s : Step} (hs : s.concernsWarnings = true) (x : Lexer) :
    (x.perform s).2.lenient = x.lenient := by
  match s with
  | .setStrict _ | .warnings | .report => rfl
  | .summary => rw [x.perform_summary_snd]

/-! ### Both together -/

/-- **Scanning heeds nothing but the source.**  Runs of two sessions that are at the same places,
with the same scanning requests and any other requests in between, come to the same places and give
the same tokens but for the names of their sources.  If the sessions differ in nothing but
strictness and warnings, and the runs in nothing but the requests for these, then all else that they
answer, log and keep is the same. -/
theorem seen_eq_of_same_requests (s t : Session) (as bs : List Action) :
    (onlookerOfPlaces.Alike s t →
      as.filter (Action.heeded Step.scans) = bs.filter (Action.heeded Step.scans) →
      s.seen (Action.heeded Step.scans) onlookerOfPlaces.view as =
        t.seen (Action.heeded Step.scans) onlookerOfPlaces.view bs) ∧
    (onlookerExceptWarnings.Alike s t →
      as.filter (Action.heeded (!·.concernsWarnings)) =
        bs.filter (Action.heeded (!·.concernsWarnings)) →
      s.seen (Action.heeded (!·.concernsWarnings)) onlookerExceptWarnings.view as =
        t.seen (Action.heeded (!·.concernsWarnings)) onlookerExceptWarnings.view bs) := by
  constructor
  · intro h hab
    refine Onlooker.seen_eq_of_alike steady_onlookerOfPlaces ?_ ?_ h hab
    · intro request hrequest x y hxy
      exact steady_onlookerOfPlaces.perform hxy hrequest
    · intro request hrequest x
      exact cursor_perform hrequest x
  · intro h hab
    refine Onlooker.seen_eq_of_alike steady_onlookerExceptWarnings ?_ ?_ h hab
    · intro request hrequest x y hxy
      exact perform_of_lenient_eq hxy (by simpa using hrequest)
    · intro request hrequest x
      exact lenient_perform (by simpa using hrequest) x

/-- A stray character and an open comment, lenient and under another name, strict and without room
for a fault; and once more strict at first, and lenient from the second request on. -/
theorem seen_eq_of_open_comment :
    (onlookerOfPlaces.Alike (.ofLexer (.ofSource "@ /*"))
        (.ofLexer (.ofSource "@ /*" (some "Main") { strictComments := true, maxErrors := 0 })) ∧
      [Action.step .next, .step .tokenize].filter (Action.heeded Step.scans) =
        [Action.step (.setLimit 7), .step .next, .step .clear, .step .tokenize].filter
          (Action.heeded Step.scans) ∧
      (Session.ofLexer (.ofSource "@ /*")).seen (Action.heeded Step.scans) onlookerOfPlaces.view
          [.step .next, .step .tokenize] =
        (Session.ofLexer
          (.ofSource "@ /*" (some "Main") { strictComments := true, maxErrors := 0 })).seen
          (Action.heeded Step.scans) onlookerOfPlaces.view
          [.step (.setLimit 7), .step .next, .step .clear, .step .tokenize]) ∧
    (onlookerExceptWarnings.Alike (.ofLexer (.ofSource "@ /*"))
        (.ofLexer (.ofSource "@ /*" none { strictComments := true })) ∧
      [Action.step .next, .step .tokenize].filter (Action.heeded (!·.concernsWarnings)) =
        [Action.step .next, .step (.setStrict false), .step .tokenize].filter
          (Action.heeded (!·.concernsWarnings)) ∧
      (Session.ofLexer (.ofSource "@ /*")).seen (Action.heeded (!·.concernsWarnings))
          onlookerExceptWarnings.view [.step .next, .step .tokenize] =
        (Session.ofLexer (.ofSource "@ /*" none { strictComments := true })).seen
          (Action.heeded (!·.concernsWarnings)) onlookerExceptWarnings.view
          [.step .next, .step (.setStrict false), .step .tokenize]) := by
  have hplaces : onlookerOfPlaces.Alike (.ofLexer (.ofSource "@ /*"))
      (.ofLexer (.ofSource "@ /*" (some "Main") { strictComments := true, maxErrors := 0 })) :=
    ⟨rfl, rfl, rfl, rfl⟩
  have hwarnings : onlookerExceptWarnings.Alike (.ofLexer (.ofSource "@ /*"))
      (.ofLexer (.ofSource "@ /*" none { strictComments := true })) :=
    ⟨rfl, rfl, rfl, rfl⟩
  exact ⟨⟨hplaces, rfl, (seen_eq_of_same_requests _ _ _ _).1 hplaces rfl⟩,
    hwarnings, rfl, (seen_eq_of_same_requests _ _ _ _).2 hwarnings rfl⟩

end Lexis
