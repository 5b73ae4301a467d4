/-
What holds in every state of a session.

A session changes its lexers by requests to one of them at a time, and its marks by keeping the
place of a lexer.  So a property of lexers and a property of marks hold throughout when they keep
each other up (`Session.Invariant`): a request keeps the first, as long as a mark that it restores
has the second, and the place of a lexer with the first has the second.

What has to be shown is about one lexer and one request, and iterators and names have no part in it;
one action of a session keeps it (`Session.Holds.perform`), and so does a run of them
(`Session.Holds.run`).
-/
import Lexis.Proofs.Session.Run

namespace Lexis

namespace Session

/-- A property of lexers and a property of marks that requests keep together. -/
structure Invariant (P : Lexer → Prop) (Q : Mark → Prop) : Prop where
  withoutLog : ∀ {x : Lexer}, P x → P x.withoutLog
  perform : ∀ {x : Lexer} {request : Step}, P x → (∀ m, request = .restore m → Q m) →
    P (x.perform request).2
  mark : ∀ {x : Lexer}, P x → Q x.cursor.toMark

/-- All lexers of a session have one property, and all its marks another. -/
structure Holds (P : Lexer → Prop) (Q : Mark → Prop) (s : Session) : Prop where
  lexers : ∀ x ∈ s.lexers, P x
  marks : ∀ m ∈ s.marks, Q m.2

namespace Holds

variable {P : Lexer → Prop} {Q : Mark → Prop} {s : Session} {x : Lexer} {i : Nat}

theorem put (h : s.Holds P Q) (hx : P x) : (s.put i x).Holds P Q where
  lexers := by
    intro y hy
    rcases List.mem_or_eq_of_mem_set hy with hy | rfl
    · exact h.lexers y hy
    · exact hx
  marks := h.marks

theorem step (hinv : Invariant P Q) (h : s.Holds P Q) (i : Nat) {request : Step}
    (hm : ∀ m, request = .restore m → Q m) : (s.step i request).2.2.Holds P Q := by
  rw [Session.step]
  split
  · exact h
  · rename_i x hx
    have hlexer := hinv.withoutLog (h.lexers x (List.mem_of_getElem? hx))
    exact h.put (hinv.perform hlexer hm)

/-- A pull takes the next token or nothing. -/
theorem pull (hinv : Invariant P Q) (h : s.Holds P Q) (name : String) (i : Nat)
    (iterator : TokenIterator) : (s.pull name i iterator).2.2.Holds P Q := by
  rw [Session.pull]
  split
  · exact h
  · rename_i x hx
    have hlexer := hinv.withoutLog (h.lexers x (List.mem_of_getElem? hx))
    have hpull : P (iterator.pull x.withoutLog).2.2 := by
      rw [TokenIterator.pull]
      split
      · exact hlexer
      · have hrequest : ∀ m, Step.next = .restore m → Q m := fun m hm => by cases hm
        exact hinv.perform hlexer hrequest
    exact ⟨(h.put hpull).lexers, h.marks⟩

/-- A mark that is kept is the place of a lexer, and may be restored on any of them. -/
theorem perform (hinv : Invariant P Q) (h : s.Holds P Q) {a : Action}
    (hm : ∀ m, a = .step (.restore m) → Q m) : (s.perform a).2.2.Holds P Q := by
  match a with
  | .step request => exact h.step hinv s.current fun m hr => hm m (congrArg Action.step hr)
  | .use i => exact ⟨h.lexers, h.marks⟩
  | .iterate name => exact ⟨h.lexers, h.marks⟩
  | .pull name =>
    rw [Session.perform]
    split
    · exact h
    · exact h.pull hinv name _ _
  | .save name =>
    rw [Session.perform]
    split
    · exact h
    · rename_i x hx
      have hmark := hinv.mark (h.lexers x (List.mem_of_getElem? hx))
      exact ⟨h.lexers, List.forall_mem_cons.mpr ⟨hmark, h.marks⟩⟩
  | .restore name =>
    rw [Session.perform]
    split
    · exact h
    · -- what is restored is one of the marks that are kept
      rename_i m hlookup
      obtain ⟨l₁, l₂, hl, -⟩ := List.lookup_eq_some_iff.mp hlookup
      have hmark : Q m := h.marks (name, m) (by rw [hl]; simp)
      refine h.step hinv s.current fun k hk => ?_
      obtain rfl := Step.restore.inj hk
      exact hmark

theorem run (hinv : Invariant P Q) (h : s.Holds P Q) {actions : List Action}
    (hm : ∀ m, .step (.restore m) ∈ actions → Q m) : (s.run actions).2.Holds P Q := by
  induction actions generalizing s with
  | nil => exact h
  | cons a actions ih =>
    refine ih (h.perform hinv fun m ha => hm m ?_) fun m hr => hm m (List.mem_cons_of_mem a hr)
    exact ha ▸ List.mem_cons_self

end Holds

end Session

end Lexis
