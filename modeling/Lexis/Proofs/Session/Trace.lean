/-
Runs as they are seen.

A trace keeps every request of a run with its answer, its log and the session behind it.  Of a trace
an onlooker may heed some requests only, and see of them what a view shows (`Session.seen`).  When
no other request changes what is seen later on, those others may be left out, and may as well have
been made of another session that looks alike (`Session.seen_eq_and_run_alike`).
-/
import Lexis.Proofs.Session.Run

namespace Lexis

/-- A request of a run, with what came of it. -/
structure Moment where
  action : Action
  answer : Answer
  log : List LogRecord
  session : Session

namespace Session

/-- The moment of a request. -/
def moment (s : Session) (a : Action) : Moment :=
  ⟨a, (s.perform a).1, (s.perform a).2.1, (s.perform a).2.2⟩

/-- The moments of a run, in order. -/
def trace : Session → List Action → List Moment
  | _, [] => []
  | s, a :: as => s.moment a :: trace (s.moment a).session as

/-- What a view shows of the requests that are heeded, in order. -/
def seen {α : Type} (heeded : Action → Bool) (view : Moment → α) (s : Session)
    (as : List Action) : List α :=
  ((s.trace as).filter fun m => heeded m.action).map view

section seen

variable {α : Type} {heeded : Action → Bool} {view : Moment → α} {s t : Session} {a : Action}

theorem seen_cons_of_heeded (ha : heeded a = true) (as : List Action) :
    s.seen heeded view (a :: as) =
      view (s.moment a) :: (s.moment a).session.seen heeded view as := by
  have hm : heeded (s.moment a).action = true := ha
  rw [seen, trace, List.filter_cons, if_pos hm, List.map_cons, seen]

theorem seen_cons_of_not_heeded (ha : ¬ heeded a = true) (as : List Action) :
    s.seen heeded view (a :: as) = (s.moment a).session.seen heeded view as := by
  have hm : ¬ heeded (s.moment a).action = true := ha
  rw [seen, trace, List.filter_cons, if_neg hm, seen]

/-- Two sessions that are alike, and stay so over the requests that are heeded on both and over
the others on one of them, look the same with and without those others, and are alike in the end. -/
theorem seen_eq_and_run_alike {R : Session → Session → Prop}
    (heed : ∀ s t a, R s t → heeded a = true →
      view (s.moment a) = view (t.moment a) ∧ R (s.moment a).session (t.moment a).session)
    (ignore : ∀ s t a, R s t → ¬ heeded a = true → R (s.moment a).session t)
    (h : R s t) (as : List Action) :
    s.seen heeded view as = t.seen heeded view (as.filter heeded) ∧
      R (s.run as).2 (t.run (as.filter heeded)).2 := by
  induction as generalizing s t with
  | nil => exact ⟨rfl, h⟩
  | cons a as ih =>
    by_cases ha : heeded a = true
    · obtain ⟨hview, hnext⟩ := heed s t a h ha
      obtain ⟨hseen, hrun⟩ := ih hnext
      rw [List.filter_cons_of_pos ha, seen_cons_of_heeded ha, seen_cons_of_heeded ha, hview, hseen]
      exact ⟨rfl, hrun⟩
    · obtain ⟨hseen, hrun⟩ := ih (ignore s t a h ha)
      rw [List.filter_cons_of_neg ha, seen_cons_of_not_heeded ha, hseen]
      exact ⟨rfl, hrun⟩

end seen

end Session

end Lexis
