/-
Runs of a session.

A run carries out requests in order and keeps each with its answer; what it delivers is the tokens
of all answers together, and has every property that the tokens in the answers of lexers have
(`Session.forall_delivered_run`).  Where the events of a run are cut, the requests are cut as well,
and the run with them (`Session.exists_run_eq_append`).
-/
import Lexis.Session.Basic

namespace Lexis

/-- The tokens that an answer delivers. -/
def Answer.delivered : Answer → List Token
  | .token t => [t]
  | .tokens ts => ts
  | _ => []

/-- A request and its answer. -/
abbrev Event := Action × Answer

/-- The tokens that are delivered in the course of some events. -/
def delivered (events : List Event) : List Token :=
  events.flatMap fun e => e.2.delivered

namespace Session

/-- A session on one lexer. -/
def ofLexer (x : Lexer) : Session where
  lexers := [x]

/-- Carries out requests in order. -/
def run : Session → List Action → List Event × Session
  | s, [] => ([], s)
  | s, a :: as =>
    ((a, (s.perform a).1) :: (run (s.perform a).2.2 as).1, (run (s.perform a).2.2 as).2)

/-- The events of a run are about its requests, in order. -/
theorem map_fst_run (s : Session) (as : List Action) : (s.run as).1.map Prod.fst = as := by
  induction as generalizing s with
  | nil => rfl
  | cons a as ih => rw [run, List.map_cons, ih]

/-! ### What is delivered -/

section delivered

variable {P : Token → Prop}
  (h : ∀ (x : Lexer) (request : Step), ∀ t ∈ (x.perform request).1.delivered, P t)

include h

theorem forall_delivered_step (s : Session) (i : Nat) (request : Step) :
    ∀ t ∈ (s.step i request).1.delivered, P t := by
  rw [step]
  split
  · exact List.forall_mem_nil P
  · exact h _ request

/-- A pull delivers what a request for the next token does, or nothing. -/
theorem forall_delivered_pull (s : Session) (name : String) (i : Nat) (it : TokenIterator) :
    ∀ t ∈ (s.pull name i it).1.delivered, P t := by
  rw [pull]
  split
  · exact List.forall_mem_nil P
  · rename_i x hx
    show ∀ t ∈ (pulled (it.pull x.withoutLog).1).delivered, P t
    rw [TokenIterator.pull]
    split
    · exact List.forall_mem_nil P
    · exact h x.withoutLog .next

theorem forall_delivered_perform (s : Session) (a : Action) :
    ∀ t ∈ (s.perform a).1.delivered, P t := by
  match a with
  | .step request => exact forall_delivered_step h s s.current request
  | .use i => exact List.forall_mem_nil P
  | .iterate name => exact List.forall_mem_nil P
  | .pull name =>
    rw [perform]
    split
    · exact List.forall_mem_nil P
    · exact forall_delivered_pull h s name _ _
  | .save name =>
    rw [perform]
    split <;> exact List.forall_mem_nil P
  | .restore name =>
    rw [perform]
    split
    · exact List.forall_mem_nil P
    · exact forall_delivered_step h s s.current _

/-- What holds of the tokens in every answer of every lexer holds of all tokens that a run
delivers. -/
theorem forall_delivered_run (s : Session) (as : List Action) :
    ∀ t ∈ Lexis.delivered (s.run as).1, P t := by
  induction as generalizing s with
  | nil => exact List.forall_mem_nil P
  | cons a as ih =>
    rw [run, Lexis.delivered, List.flatMap_cons]
    exact List.forall_mem_append.mpr
      ⟨forall_delivered_perform h s a, ih (s.perform a).2.2⟩

end delivered

/-! ### Cuts -/

/-- Where the events of a run are cut, the run can be cut. -/
theorem exists_run_eq_append {s : Session} {as : List Action} {es fs : List Event}
    (h : (s.run as).1 = es ++ fs) :
    ∃ bs cs, as = bs ++ cs ∧ (s.run bs).1 = es ∧ ((s.run bs).2.run cs).1 = fs := by
  -- along the events in front of the cut, which use up one request each
  induction es generalizing s as with
  | nil => exact ⟨[], as, rfl, rfl, h⟩
  | cons e es ih =>
    match as with
    | [] => cases h
    | a :: as =>
      obtain ⟨he, hes⟩ := List.cons_eq_cons.mp h
      obtain ⟨bs, cs, rfl, hb, hc⟩ := ih hes
      refine ⟨a :: bs, cs, rfl, ?_, hc⟩
      rw [run, he, hb]

/-- The first of the requests of a run comes with the first of its events. -/
theorem exists_run_eq_cons {s : Session} {as : List Action} {e : Event} {es : List Event}
    (h : (s.run as).1 = e :: es) :
    ∃ bs, as = e.1 :: bs ∧ e.2 = (s.perform e.1).1 ∧ ((s.perform e.1).2.2.run bs).1 = es := by
  match as with
  | [] => cases h
  | a :: as =>
    obtain ⟨rfl, hes⟩ := List.cons_eq_cons.mp h
    exact ⟨as, rfl, rfl, hes⟩

end Session

end Lexis
