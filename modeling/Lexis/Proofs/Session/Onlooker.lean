/-
Sessions that look the same.

To a steady onlooker, two sessions are alike when they have the same iterators and marks and, place
by place, lexers that look the same.  Requests of either session may then be divided into those that
the onlooker heeds and those that change nothing that is taken in.  Two runs that make the same
requests of the first kind, with any requests of the second kind anywhere in between, look the same
throughout (`Onlooker.seen_eq_of_alike`).
-/
import Lexis.Proofs.Lexer.Onlooker
import Lexis.Proofs.Session.Trace

namespace Lexis

/-- Does a request that is made of the current lexer have a property?  All others pass. -/
def Action.heeded (p : Step → Bool) : Action → Bool
  | .step s => p s
  | _ => true

namespace Onlooker

variable {α : Type} {o : Onlooker α} {s t : Session} {x y : Lexer}

/-- Two sessions look the same between requests. -/
structure Alike (o : Onlooker α) (s t : Session) : Prop where
  lexers : (s.lexers.map fun x => o.lexer x.withoutLog) = t.lexers.map fun x => o.lexer x.withoutLog
  current : s.current = t.current
  iterators : s.iterators = t.iterators
  marks : s.marks = t.marks

/-- What is taken in of a request and of the lexers behind it. -/
def view (o : Onlooker α) (m : Moment) : Action × Answer × List LogRecord × List α :=
  (m.action, m.answer.mapTokens o.token, o.log m.log,
    m.session.lexers.map fun x => o.lexer x.withoutLog)

/-- Two requests have come to the same, as far as is taken in. -/
structure SameResult (o : Onlooker α) (p q : Answer × List LogRecord × Session) : Prop where
  answer : p.1.mapTokens o.token = q.1.mapTokens o.token
  log : o.log p.2.1 = o.log q.2.1
  session : o.Alike p.2.2 q.2.2

namespace Alike

protected theorem refl (s : Session) : o.Alike s s := ⟨rfl, rfl, rfl, rfl⟩

protected theorem symm (h : o.Alike s t) : o.Alike t s :=
  ⟨h.lexers.symm, h.current.symm, h.iterators.symm, h.marks.symm⟩

protected theorem trans {u : Session} (h : o.Alike s t) (k : o.Alike t u) : o.Alike s u :=
  ⟨h.lexers.trans k.lexers, h.current.trans k.current, h.iterators.trans k.iterators,
    h.marks.trans k.marks⟩

/-- At one place, both sessions have lexers that look the same, or none. -/
theorem getElem? (h : o.Alike s t) (i : Nat) :
    (s.lexers[i]? = none ∧ t.lexers[i]? = none) ∨
      ∃ x y, s.lexers[i]? = some x ∧ t.lexers[i]? = some y ∧
        o.Same x.withoutLog y.withoutLog := by
  have hi := congrArg (fun l => l[i]?) h.lexers
  simp only [List.getElem?_map] at hi
  cases hs : s.lexers[i]? with
  | none =>
    rw [hs, Option.map_none] at hi
    exact .inl ⟨rfl, Option.map_eq_none_iff.mp hi.symm⟩
  | some x =>
    rw [hs, Option.map_some] at hi
    obtain ⟨y, hy, hxy⟩ := Option.map_eq_some_iff.mp hi.symm
    exact .inr ⟨x, y, rfl, hy, hxy.symm⟩

theorem put (ho : o.Steady) (h : o.Alike s t) (hxy : o.Same x y) (i : Nat) :
    o.Alike (s.put i x) (t.put i y) where
  lexers := by
    have hlog : o.lexer x.withoutLog = o.lexer y.withoutLog := ho.withoutLog hxy
    rw [Session.put, Session.put, List.map_set, List.map_set, h.lexers, hlog]
  current := h.current
  iterators := h.iterators
  marks := h.marks

theorem setIterator (h : o.Alike s t) (name : String) (i : Nat) (it : TokenIterator) :
    o.Alike { s with iterators := (name, i, it) :: s.iterators }
      { t with iterators := (name, i, it) :: t.iterators } where
  lexers := h.lexers
  current := h.current
  iterators := by rw [h.iterators]
  marks := h.marks

/-! ### Requests that are heeded -/

/-- A request that lexers answer alike is answered alike by the sessions. -/
theorem step (ho : o.Steady) (h : o.Alike s t) (i : Nat) {request : Step}
    (hrequest : ∀ {x y}, o.Same x y →
      (x.perform request).1.mapTokens o.token = (y.perform request).1.mapTokens o.token ∧
        o.Same (x.perform request).2 (y.perform request).2) :
    o.SameResult (s.step i request) (t.step i request) := by
  rw [Session.step, Session.step]
  rcases h.getElem? i with ⟨hs, ht⟩ | ⟨x, y, hs, ht, hxy⟩
  · rw [hs, ht]
    exact ⟨rfl, rfl, h⟩
  · obtain ⟨hanswer, hnext⟩ := hrequest hxy
    rw [hs, ht]
    exact ⟨hanswer, ho.log hnext, h.put ho hnext i⟩

theorem mapTokens_pulled (f : Token → Token) (t : Option Token) :
    (Session.pulled t).mapTokens f = Session.pulled (t.map f) := by
  cases t <;> rfl

theorem pull (ho : o.Steady) (h : o.Alike s t) (name : String) (i : Nat) (it : TokenIterator) :
    o.SameResult (s.pull name i it) (t.pull name i it) := by
  rw [Session.pull, Session.pull]
  rcases h.getElem? i with ⟨hs, ht⟩ | ⟨x, y, hs, ht, hxy⟩
  · rw [hs, ht]
    exact ⟨rfl, rfl, h⟩
  · obtain ⟨htoken, hit, hnext⟩ := ho.pull hxy it
    have hanswer : (Session.pulled (it.pull x.withoutLog).1).mapTokens o.token =
        (Session.pulled (it.pull y.withoutLog).1).mapTokens o.token := by
      rw [mapTokens_pulled, mapTokens_pulled, htoken]
    have hsession := (h.put ho hnext i).setIterator name i (it.pull y.withoutLog).2.1
    rw [hs, ht]
    refine ⟨hanswer, ho.log hnext, ?_⟩
    show o.Alike { s.put i _ with iterators := (name, i, (it.pull x.withoutLog).2.1) :: _ } _
    rw [hit]
    exact hsession

/-- Every request that is heeded comes to the same in sessions that look the same. -/
theorem perform (ho : o.Steady) {p : Step → Bool}
    (heed : ∀ {request}, p request = true → ∀ {x y}, o.Same x y →
      (x.perform request).1.mapTokens o.token = (y.perform request).1.mapTokens o.token ∧
        o.Same (x.perform request).2 (y.perform request).2)
    (h : o.Alike s t) {a : Action} (ha : a.heeded p = true) :
    o.SameResult (s.perform a) (t.perform a) := by
  match a with
  | .step request =>
    rw [Session.perform, Session.perform, h.current]
    exact h.step ho _ (heed ha)
  | .use i => exact ⟨rfl, rfl, h.lexers, rfl, h.iterators, h.marks⟩
  | .iterate name =>
    refine ⟨rfl, rfl, h.lexers, h.current, ?_, h.marks⟩
    show (name, s.current, {}) :: s.iterators = (name, t.current, {}) :: t.iterators
    rw [h.current, h.iterators]
  | .pull name =>
    rw [Session.perform, Session.perform, h.iterators]
    cases t.iterators.lookup name with
    | none => exact ⟨rfl, rfl, h⟩
    | some p =>
      obtain ⟨i, it⟩ := p
      exact h.pull ho name i it
  | .save name =>
    have hlexer := h.getElem? s.current
    rw [Session.perform, Session.perform]
    rcases hlexer with ⟨hs, ht⟩ | ⟨x, y, hs, ht, hxy⟩
    · rw [h.current] at ht
      rw [hs, ht]
      exact ⟨rfl, rfl, h⟩
    · -- the lexers are at the same place, and that is all a mark knows
      have hcursor : x.withoutLog.cursor = y.withoutLog.cursor := ho.cursor hxy
      have hmark : x.cursor.toMark = y.cursor.toMark := congrArg Cursor.toMark hcursor
      rw [h.current] at ht
      rw [hs, ht]
      refine ⟨rfl, rfl, h.lexers, h.current, h.iterators, ?_⟩
      show (name, x.cursor.toMark) :: s.marks = (name, y.cursor.toMark) :: t.marks
      rw [hmark, h.marks]
  | .restore name =>
    rw [Session.perform, Session.perform, h.marks, h.current]
    cases t.marks.lookup name with
    | none => exact ⟨rfl, rfl, h⟩
    | some m => exact h.step ho _ fun hxy => ho.perform hxy rfl

/-! ### Requests that are not heeded -/

/-- A request that changes nothing that is taken in of a lexer, but for its log, changes nothing of a
session. -/
theorem step_self (s : Session) (i : Nat) {request : Step}
    (hrequest : ∀ x : Lexer, o.Same (x.perform request).2.withoutLog x.withoutLog) :
    o.Alike (s.step i request).2.2 s := by
  rw [Session.step]
  cases hs : s.lexers[i]? with
  | none => exact .refl s
  | some x =>
    have hlexer : o.lexer (x.withoutLog.perform request).2.withoutLog = o.lexer x.withoutLog :=
      hrequest x.withoutLog
    refine ⟨?_, rfl, rfl, rfl⟩
    show ((s.lexers.set i (x.withoutLog.perform request).2).map fun x => o.lexer x.withoutLog) = _
    have hplace : (s.lexers.map fun x => o.lexer x.withoutLog)[i]? = some (o.lexer x.withoutLog) := by
      rw [List.getElem?_map, hs, Option.map_some]
    obtain ⟨hi, hget⟩ := List.getElem?_eq_some_iff.mp hplace
    rw [List.map_set, hlexer, ← hget, List.set_getElem_self]

end Alike

section runs

variable {p : Step → Bool} {as bs : List Action}

theorem Alike.moment_of_heeded (ho : o.Steady)
    (heed : ∀ {request}, p request = true → ∀ {x y}, o.Same x y →
      (x.perform request).1.mapTokens o.token = (y.perform request).1.mapTokens o.token ∧
        o.Same (x.perform request).2 (y.perform request).2)
    (h : o.Alike s t) {a : Action} (ha : Action.heeded p a = true) :
    o.view (s.moment a) = o.view (t.moment a) ∧
      o.Alike (s.moment a).session (t.moment a).session := by
  have hr := h.perform ho heed ha
  refine ⟨?_, hr.session⟩
  exact Prod.ext rfl (Prod.ext hr.answer (Prod.ext hr.log hr.session.lexers))

theorem Alike.moment_of_not_heeded
    (ignore : ∀ {request}, ¬ p request = true → ∀ x : Lexer,
      o.Same (x.perform request).2.withoutLog x.withoutLog)
    (h : o.Alike s t) {a : Action} (ha : ¬ Action.heeded p a = true) :
    o.Alike (s.moment a).session t := by
  match a with
  | .step request => exact (Alike.step_self s s.current (ignore ha)).trans h
  | .use i | .iterate name | .pull name | .save name | .restore name => exact absurd rfl ha

/-- Two runs with the same requests that are heeded look the same and end alike, when the others
change nothing but logs. -/
theorem seen_eq_and_alike_run (ho : o.Steady)
    (heed : ∀ {request}, p request = true → ∀ {x y}, o.Same x y →
      (x.perform request).1.mapTokens o.token = (y.perform request).1.mapTokens o.token ∧
        o.Same (x.perform request).2 (y.perform request).2)
    (ignore : ∀ {request}, ¬ p request = true → ∀ x : Lexer,
      o.Same (x.perform request).2.withoutLog x.withoutLog)
    (h : o.Alike s t) (hab : as.filter (Action.heeded p) = bs.filter (Action.heeded p)) :
    s.seen (Action.heeded p) o.view as = t.seen (Action.heeded p) o.view bs ∧
      o.Alike (s.run as).2 (t.run bs).2 := by
  have hheed : ∀ s t a, o.Alike s t → Action.heeded p a = true →
      o.view (s.moment a) = o.view (t.moment a) ∧
        o.Alike (s.moment a).session (t.moment a).session :=
    fun s t a h ha => h.moment_of_heeded ho heed ha
  have hignore : ∀ s t a, o.Alike s t → ¬ Action.heeded p a = true →
      o.Alike (s.moment a).session t :=
    fun s t a h ha => h.moment_of_not_heeded ignore ha
  -- both runs look like the run of `t` with the heeded requests only
  obtain ⟨hseen, hrun⟩ := Session.seen_eq_and_run_alike hheed hignore h as
  obtain ⟨hseen', hrun'⟩ := Session.seen_eq_and_run_alike hheed hignore (.refl t) bs
  rw [hab] at hseen hrun
  exact ⟨hseen.trans hseen'.symm, hrun.trans hrun'.symm⟩

/-- Two runs with the same requests that are heeded look the same, whatever the others are and
wherever they stand. -/
theorem seen_eq_of_alike (ho : o.Steady)
    (heed : ∀ {request}, p request = true → ∀ {x y}, o.Same x y →
      (x.perform request).1.mapTokens o.token = (y.perform request).1.mapTokens o.token ∧
        o.Same (x.perform request).2 (y.perform request).2)
    (ignore : ∀ {request}, ¬ p request = true → ∀ x : Lexer, o.Same (x.perform request).2 x)
    (h : o.Alike s t) (hab : as.filter (Action.heeded p) = bs.filter (Action.heeded p)) :
    s.seen (Action.heeded p) o.view as = t.seen (Action.heeded p) o.view bs :=
  (seen_eq_and_alike_run ho heed (fun hp x => ho.withoutLog (ignore hp x)) h hab).1

end runs

end Onlooker

end Lexis
