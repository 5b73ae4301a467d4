/-
Three ways to the tokens, in any order.

The tokens of a lexer can be asked for one by one, all at once, and through iterators, of which
there may be any number.  These demands may be mixed at will: they share one cursor, and what they
deliver, all together, is what as many calls for the next token deliver (`Session.Serves`).  Each
iterator stops when it has given an end token itself, no matter what the others do
(`Session.Serves.lookup_run`).
-/
import Lexis.Proofs.Lexer.Log
import Lexis.Proofs.Session.Run

namespace Lexis

/-- A demand for tokens, or for a way to them. -/
inductive Demand where
  | next
  | tokenize
  | iterate (name : String)
  | pull (name : String)
  deriving DecidableEq, Repr

/-- The request that makes a demand. -/
def Demand.action : Demand → Action
  | .next => .step .next
  | .tokenize => .step .tokenize
  | .iterate name => .iterate name
  | .pull name => .pull name

namespace Session

variable {x y : Lexer} {s : Session} {n : Nat}

/-! ### Requests to the one lexer -/

theorem step_of_lexers (h : s.lexers = [y]) (request : Step) :
    s.step 0 request =
      ((y.withoutLog.perform request).1, (y.withoutLog.perform request).2.log.toList,
        s.put 0 (y.withoutLog.perform request).2) := by
  rw [step, h]
  rfl

theorem pull_of_lexers (h : s.lexers = [y]) (name : String) (i : TokenIterator) :
    s.pull name 0 i =
      (pulled (i.pull y.withoutLog).1, (i.pull y.withoutLog).2.2.log.toList,
        { s.put 0 (i.pull y.withoutLog).2.2 with
          iterators := (name, 0, (i.pull y.withoutLog).2.1) :: s.iterators }) := by
  rw [pull, h]
  rfl

/-! ### What the demands deliver -/

/-- A session on a lexer `x` of which `n` tokens have been delivered. -/
structure Serves (x : Lexer) (n : Nat) (s : Session) : Prop where
  lexer : ∃ y, s.lexers = [y] ∧ y.UpToLog (x.nexts n).2
  current : s.current = 0
  iterators : ∀ i ∈ s.iterators, i.2.1 = 0

theorem serves_ofLexer (x : Lexer) : Serves x 0 (ofLexer x) where
  lexer := ⟨x, rfl, .refl x⟩
  current := rfl
  iterators := by simp [ofLexer]

namespace Serves

/-- The lexer goes on by `k` tokens. -/
theorem put (h : Serves x n s) {k : Nat} (hy : y.UpToLog ((x.nexts n).2.nexts k).2) :
    Serves x (n + k) (s.put 0 y) where
  lexer := by
    obtain ⟨z, hz, -⟩ := h.lexer
    refine ⟨y, by rw [Session.put, hz]; rfl, ?_⟩
    rw [Lexer.nexts_add]
    exact hy
  current := h.current
  iterators := h.iterators

/-- An iterator over the lexer is made or kept. -/
theorem setIterator (h : Serves x n s) (name : String) {i : Nat} (hi : i = 0)
    (it : TokenIterator) : Serves x n { s with iterators := (name, i, it) :: s.iterators } where
  lexer := h.lexer
  current := h.current
  iterators := by
    intro j hj
    rcases List.mem_cons.mp hj with rfl | hj
    · exact hi
    · exact h.iterators j hj

/-- Every iterator is over the one lexer. -/
theorem of_lookup (h : Serves x n s) {name : String} {i : Nat} {it : TokenIterator}
    (hi : s.iterators.lookup name = some (i, it)) : i = 0 := by
  obtain ⟨l₁, l₂, hl, -⟩ := List.lookup_eq_some_iff.mp hi
  exact h.iterators (name, i, it) (by rw [hl]; simp)

/-- What is asked of the lexer and found by it is found at the lexer behind `n` calls. -/
theorem next_withoutLog (hx : 0 ≤ x.cursor.offset) (hlog : y.UpToLog (x.nexts n).2) :
    [y.withoutLog.next.1] = ((x.nexts n).2.nexts 1).1 ∧
      y.withoutLog.next.2.UpToLog ((x.nexts n).2.nexts 1).2 := by
  have hlog' : y.withoutLog.UpToLog (x.nexts n).2 := hlog
  have ho := Lexer.offset_nexts hx n
  obtain ⟨ht, hn⟩ := hlog'.next (hlog'.cursor ▸ ho)
  exact ⟨congrArg (fun t => [t]) ht, hn⟩

theorem tokenize_withoutLog (hx : 0 ≤ x.cursor.offset) (hlog : y.UpToLog (x.nexts n).2) :
    y.withoutLog.tokenize.1 = ((x.nexts n).2.nexts (x.nexts n).2.tokens.length).1 ∧
      y.withoutLog.tokenize.2.UpToLog ((x.nexts n).2.nexts (x.nexts n).2.tokens.length).2 := by
  have hlog' : y.withoutLog.UpToLog (x.nexts n).2 := hlog
  rw [Lexer.nexts_length_tokens (Lexer.offset_nexts hx n), Lexer.tokenize_fst]
  exact ⟨hlog'.tokens, y.withoutLog.tokenize_snd.trans hlog'.finish⟩

/-- A pull takes one token, or none when the iterator is finished. -/
theorem pull (hx : 0 ≤ x.cursor.offset) (h : Serves x n s) (name : String) (it : TokenIterator) :
    ∃ k, (s.pull name 0 it).1.delivered = ((x.nexts n).2.nexts k).1 ∧
      Serves x (n + k) (s.pull name 0 it).2.2 := by
  obtain ⟨y, hy, hlog⟩ := h.lexer
  rw [pull_of_lexers hy, TokenIterator.pull]
  by_cases hf : it.finished = true
  · -- nothing is taken
    rw [if_pos hf]
    have hlog' : y.withoutLog.UpToLog ((x.nexts n).2.nexts 0).2 := hlog
    exact ⟨0, rfl, (h.put hlog').setIterator name rfl it⟩
  · rw [if_neg hf]
    obtain ⟨ht, hn⟩ := next_withoutLog hx hlog
    exact ⟨1, ht, (h.put hn).setIterator name rfl _⟩

/-- A demand delivers what some calls for the next token do, and goes on as far. -/
theorem perform (hx : 0 ≤ x.cursor.offset) (h : Serves x n s) (d : Demand) :
    ∃ k, (s.perform d.action).1.delivered = ((x.nexts n).2.nexts k).1 ∧
      Serves x (n + k) (s.perform d.action).2.2 := by
  obtain ⟨y, hy, hlog⟩ := h.lexer
  match d with
  | .next =>
    obtain ⟨ht, hn⟩ := next_withoutLog hx hlog
    rw [Demand.action, Session.perform, h.current, step_of_lexers hy]
    exact ⟨1, ht, h.put hn⟩
  | .tokenize =>
    obtain ⟨ht, hn⟩ := tokenize_withoutLog hx hlog
    rw [Demand.action, Session.perform, h.current, step_of_lexers hy]
    exact ⟨_, ht, h.put hn⟩
  | .iterate name => exact ⟨0, rfl, h.setIterator name h.current {}⟩
  | .pull name =>
    rw [Demand.action, Session.perform]
    cases hi : s.iterators.lookup name with
    | none => exact ⟨0, rfl, h⟩
    | some p =>
      obtain ⟨i, it⟩ := p
      obtain rfl := h.of_lookup hi
      exact h.pull hx name it

/-- Demands in any order deliver what some calls for the next token do, and go on as far. -/
theorem run (hx : 0 ≤ x.cursor.offset) (h : Serves x n s) (ds : List Demand) :
    ∃ k, delivered (s.run (ds.map Demand.action)).1 = ((x.nexts n).2.nexts k).1 ∧
      Serves x (n + k) (s.run (ds.map Demand.action)).2 := by
  induction ds generalizing n s with
  | nil => exact ⟨0, rfl, h⟩
  | cons d ds ih =>
    obtain ⟨k, hk, hs⟩ := h.perform hx d
    obtain ⟨m, hm, ht⟩ := ih hs
    -- the calls that the first demand comes to, and then those of the others
    refine ⟨k + m, ?_, ?_⟩
    · rw [Lexer.nexts_add, ← hk]
      rw [Lexer.nexts_add] at hm
      rw [← hm]
      rfl
    · rw [← Nat.add_assoc]
      exact ht

end Serves

/-! ### The state of one iterator -/

/-- Has an iterator given an end token in the course of some events? -/
def gaveEnd (name : String) (events : List Event) : Bool :=
  events.any fun e => decide (e.1 = .pull name) && e.2.delivered.any Token.isEnd

theorem gaveEnd_of_ne {name : String} {a : Action} (h : a ≠ .pull name) (answer : Answer) :
    gaveEnd name [(a, answer)] = false := by
  simp [gaveEnd, h]

theorem gaveEnd_cons (name : String) (e : Event) (es : List Event) :
    gaveEnd name (e :: es) = (gaveEnd name [e] || gaveEnd name es) := by
  simp [gaveEnd]

theorem iterators_step (s : Session) (i : Nat) (request : Step) :
    (s.step i request).2.2.iterators = s.iterators := by
  rw [step]
  cases s.lexers[i]? <;> rfl

theorem lookup_cons_of_ne {name other : String} (h : other ≠ name) (i : Nat) (it : TokenIterator)
    (l : List (String × Nat × TokenIterator)) :
    ((other, i, it) :: l).lookup name = l.lookup name := by
  rw [List.lookup_cons, beq_false_of_ne h.symm]

/-- A pull changes no other iterator. -/
theorem lookup_pull_of_ne (s : Session) {name other : String} (h : other ≠ name) :
    (s.perform (.pull other)).2.2.iterators.lookup name = s.iterators.lookup name := by
  rw [perform]
  cases s.iterators.lookup other with
  | none => rfl
  | some p =>
    obtain ⟨i, it⟩ := p
    show (s.pull other i it).2.2.iterators.lookup name = _
    rw [pull]
    cases s.lexers[i]? with
    | none => rfl
    | some x => exact lookup_cons_of_ne h _ _ _

theorem perform_pull (hy : s.lexers = [y]) {name : String} {it : TokenIterator}
    (hl : s.iterators.lookup name = some (0, it)) :
    s.perform (.pull name) =
      (pulled (it.pull y.withoutLog).1, (it.pull y.withoutLog).2.2.log.toList,
        { s.put 0 (it.pull y.withoutLog).2.2 with
          iterators := (name, 0, (it.pull y.withoutLog).2.1) :: s.iterators }) := by
  rw [← pull_of_lexers hy, perform, hl]

namespace Serves

/-- An iterator stops when it has given its end token, and gives a token before. -/
theorem answer_pull (h : Serves x n s) {name : String} {it : TokenIterator}
    (hl : s.iterators.lookup name = some (0, it)) :
    (it.finished = true ∧ (s.perform (.pull name)).1 = .stopped) ∨
      (it.finished = false ∧ ∃ t, (s.perform (.pull name)).1 = .token t) := by
  obtain ⟨y, hy, -⟩ := h.lexer
  rw [perform_pull hy hl, TokenIterator.pull]
  cases hf : it.finished with
  | true => exact .inl ⟨rfl, rfl⟩
  | false => exact .inr ⟨rfl, y.withoutLog.next.1, rfl⟩

/-- A demand changes an iterator only where it makes it anew or gets its end token. -/
theorem lookup_perform (h : Serves x n s) {name : String} {it : TokenIterator}
    (hl : s.iterators.lookup name = some (0, it)) {d : Demand} (hd : d ≠ .iterate name) :
    (s.perform d.action).2.2.iterators.lookup name =
      some (0, ⟨it.finished || gaveEnd name [(d.action, (s.perform d.action).1)]⟩) := by
  by_cases hp : d = .pull name
  · obtain rfl := hp
    obtain ⟨y, hy, -⟩ := h.lexer
    rw [Demand.action, perform_pull hy hl, List.lookup_cons_self, TokenIterator.pull]
    obtain ⟨finished⟩ := it
    cases finished with
    | true => rfl
    | false => simp [gaveEnd, pulled, Answer.delivered]
  · -- it is neither pulled nor made anew
    have hgave : gaveEnd name [(d.action, (s.perform d.action).1)] = false := by
      apply gaveEnd_of_ne
      cases d <;> simp_all [Demand.action]
    rw [hgave, Bool.or_false, ← hl]
    cases d with
    | next | tokenize => exact congrArg _ (s.iterators_step _ _)
    | iterate other => exact lookup_cons_of_ne (fun ho => hd (by rw [ho])) _ _ _
    | pull other => exact s.lookup_pull_of_ne fun ho => hp (by rw [ho])

/-- An iterator is finished when it has given its end token. -/
theorem lookup_run (hx : 0 ≤ x.cursor.offset) (h : Serves x n s) {name : String}
    {it : TokenIterator} (hl : s.iterators.lookup name = some (0, it)) {ds : List Demand}
    (hds : Demand.iterate name ∉ ds) :
    (s.run (ds.map Demand.action)).2.iterators.lookup name =
      some (0, ⟨it.finished || gaveEnd name (s.run (ds.map Demand.action)).1⟩) := by
  induction ds generalizing n s it with
  | nil =>
    rw [show gaveEnd name (s.run ([].map Demand.action)).1 = false from rfl, Bool.or_false]
    exact hl
  | cons d ds ih =>
    obtain ⟨k, -, hs⟩ := h.perform hx d
    have hd : d ≠ .iterate name := by
      rintro rfl
      exact hds (by simp)
    have hrest := ih hs (h.lookup_perform hl hd) fun hm => hds (by simp [hm])
    rw [Bool.or_assoc, ← gaveEnd_cons] at hrest
    exact hrest

end Serves

/-! ### The whole run -/

/-- What demands in any order come to, of a lexer `x`. -/
structure Faithful (x : Lexer) (events : List Event) (s : Session) : Prop where
  /-- A call for the next token gets one. -/
  next_answer : ∀ a, (.step .next, a) ∈ events → ∃ t, a = .token t
  /-- A call for all tokens gets the end token last. -/
  tokenize_answer : ∀ a, (.step .tokenize, a) ∈ events →
    ∃ ts e, a = .tokens (ts ++ [e]) ∧ e.isEnd = true
  /-- An iterator stops if and only if it has given an end token since it was made. -/
  pull_answer : ∀ before name a₀ mid a behind,
    events = before ++ (.iterate name, a₀) :: (mid ++ (.pull name, a) :: behind) →
    (∀ e ∈ mid, e.1 ≠ .iterate name) →
    (gaveEnd name mid = true ∧ a = .stopped) ∨ (gaveEnd name mid = false ∧ ∃ t, a = .token t)
  /-- Beside end tokens, the tokens are delivered from the first on, each once and in order. -/
  in_order : (delivered events).filter (!·.isEnd) <+: x.tokenize.1.dropLast
  /-- An end token comes when all tokens have been delivered, and only itself comes after it. -/
  at_end : ∀ before e behind, delivered events = before ++ e :: behind → e.isEnd = true →
    before.filter (!·.isEnd) ++ [e] = x.tokenize.1 ∧ ∀ t ∈ behind, t = e
  /-- The diagnostics are those of as many calls for the next token. -/
  diagnostics : ∃ y, s.lexers = [y] ∧
    y.diagnostics = ((fun z : Lexer => z.next.2)^[(delivered events).length] x).diagnostics

theorem action_injective : Function.Injective Demand.action := by
  intro d e h
  cases d <;> cases e <;> simp_all [Demand.action]

namespace Serves

/-- Where the events of a run are cut, an event is the answer to a demand there. -/
theorem cut (hx : 0 ≤ x.cursor.offset) (h : Serves x n s) {ds : List Demand}
    {es fs : List Event} {d : Demand} {a : Answer}
    (he : (s.run (ds.map Demand.action)).1 = es ++ (d.action, a) :: fs) :
    ∃ (m : Nat) (t : Session) (ds₁ ds₂ : List Demand),
      Serves x m t ∧ s.run (ds₁.map Demand.action) = (es, t) ∧
      a = (t.perform d.action).1 ∧
      ((t.perform d.action).2.2.run (ds₂.map Demand.action)).1 = fs := by
  obtain ⟨as, bs, hds, has, hbs⟩ := exists_run_eq_append he
  obtain ⟨cs, rfl, ha, hcs⟩ := exists_run_eq_cons hbs
  obtain ⟨ds₁, ds₂, rfl, rfl, hcs'⟩ := List.map_eq_append_iff.mp hds
  obtain ⟨d', ds₂, rfl, hd, rfl⟩ := List.map_eq_cons_iff.mp hcs'
  obtain rfl := action_injective hd
  obtain ⟨k, -, hs⟩ := h.run hx ds₁
  exact ⟨n + k, _, ds₁, ds₂, hs, Prod.ext has rfl, ha, hcs⟩

theorem answer_next (h : Serves x n s) : ∃ t, (s.perform (.step .next)).1 = .token t := by
  obtain ⟨y, hy, -⟩ := h.lexer
  rw [Session.perform, h.current, step_of_lexers hy]
  exact ⟨y.withoutLog.next.1, rfl⟩

theorem answer_tokenize (hx : 0 ≤ x.cursor.offset) (h : Serves x n s) :
    ∃ ts e, (s.perform (.step .tokenize)).1 = .tokens (ts ++ [e]) ∧ e.isEnd = true := by
  obtain ⟨y, hy, hlog⟩ := h.lexer
  have ho : 0 ≤ y.withoutLog.cursor.offset := hlog.cursor ▸ Lexer.offset_nexts hx n
  rw [Session.perform, h.current, step_of_lexers hy]
  refine ⟨y.withoutLog.tokens.dropLast, y.withoutLog.finish.endToken, ?_, rfl⟩
  show Answer.tokens y.withoutLog.tokenize.1 = _
  rw [Lexer.tokenize_fst, Lexer.dropLast_tokens_append ho]

/-- Behind the place where an iterator is made, its answers go by what it has given since. -/
theorem answer_pull_run (hx : 0 ≤ x.cursor.offset) (h : Serves x n s) {ds : List Demand}
    {before mid behind : List Event} {name : String} {a₀ a : Answer}
    (he : (s.run (ds.map Demand.action)).1 =
      before ++ (.iterate name, a₀) :: (mid ++ (.pull name, a) :: behind))
    (hmid : ∀ e ∈ mid, e.1 ≠ .iterate name) :
    (gaveEnd name mid = true ∧ a = .stopped) ∨
      (gaveEnd name mid = false ∧ ∃ t, a = .token t) := by
  obtain ⟨m, t, ds₁, ds₂, ht, -, -, hrun⟩ := cut hx h (d := .iterate name) he
  obtain ⟨k, -, hs⟩ := ht.perform hx (.iterate name)
  have hnew : (t.perform (.iterate name)).2.2.iterators.lookup name = some (0, {}) := by
    rw [Session.perform, ht.current, List.lookup_cons_self]
  -- the pull comes behind `mid`, where the iterator has not been made anew
  obtain ⟨_, u, ds₃, -, hu, hmid', ha, -⟩ := cut hx hs (d := .pull name) hrun
  have hds : Demand.iterate name ∉ ds₃ := by
    intro hm
    have hmem : Action.iterate name ∈ mid.map Prod.fst := by
      have hfst := map_fst_run (t.perform (.iterate name)).2.2 (ds₃.map Demand.action)
      rw [show (t.perform (.iterate name)).2.2.run (ds₃.map Demand.action) = (mid, u)
        from hmid'] at hfst
      rw [hfst]
      exact List.mem_map_of_mem hm
    obtain ⟨e, he, hname⟩ := List.mem_map.mp hmem
    exact hmid e he hname
  have hlook := hs.lookup_run hx hnew hds
  rw [show (t.perform (Demand.iterate name).action).2.2.run (ds₃.map Demand.action) = (mid, u)
    from hmid', Bool.false_or] at hlook
  rw [ha]
  exact hu.answer_pull hlook

end Serves

theorem faithful_ofLexer (hx : 0 ≤ x.cursor.offset) (ds : List Demand) :
    Faithful x ((ofLexer x).run (ds.map Demand.action)).1
      ((ofLexer x).run (ds.map Demand.action)).2 := by
  have h := serves_ofLexer x
  obtain ⟨k, hk, hs⟩ := h.run hx ds
  rw [show (x.nexts 0).2 = x from rfl] at hk
  rw [Nat.zero_add] at hs
  have hlen : (delivered ((ofLexer x).run (ds.map Demand.action)).1).length = k := by
    rw [hk, Lexer.length_nexts]
  refine ⟨?_, ?_, fun _ _ _ _ _ _ he hmid => h.answer_pull_run hx he hmid, ?_, ?_, ?_⟩
  · intro a ha
    obtain ⟨es, fs, he⟩ := List.append_of_mem ha
    obtain ⟨m, t, -, -, ht, -, rfl, -⟩ := h.cut hx (d := .next) he
    exact ht.answer_next
  · intro a ha
    obtain ⟨es, fs, he⟩ := List.append_of_mem ha
    obtain ⟨m, t, -, -, ht, -, rfl, -⟩ := h.cut hx (d := .tokenize) he
    exact ht.answer_tokenize hx
  · rw [hk, Lexer.filter_nexts hx, Lexer.tokenize_fst]
    exact List.take_prefix k _
  · intro before e behind he hend
    rw [hk] at he
    rw [Lexer.tokenize_fst]
    exact Lexer.of_nexts_eq_append hx he hend
  · obtain ⟨y, hy, hlog⟩ := hs.lexer
    refine ⟨y, hy, ?_⟩
    rw [hlen, ← Lexer.nexts_snd_eq_iterate]
    exact hlog.diagnostics

end Session

/-- **No mixture of demands loses a token**, gives one twice or out of order: on a fresh lexer,
calls for the next token, calls for all tokens and pulls of any iterators, in any order, come to
what the token stream has. -/
theorem faithful_run (source : String) (filename : Option String) (options : Options)
    (demands : List Demand) :
    Session.Faithful (Lexer.ofSource source filename options)
      ((Session.ofLexer (Lexer.ofSource source filename options)).run
        (demands.map Demand.action)).1
      ((Session.ofLexer (Lexer.ofSource source filename options)).run
        (demands.map Demand.action)).2 :=
  Session.faithful_ofLexer (Int.le_refl 0) demands

end Lexis
