/-
The scan as loops over single characters.

`Lexer.next` goes from item to item.  Here the same scan looks at the character under the cursor,
decides by it which loop to enter, and every loop takes one character at a time.  Loops run on
fuel, and to take a character or to blame one may fail, so that all that might go wrong has an
outcome of its own (`Mishap`): a guard that lets a loop in which then takes nothing, a step in front
of the source, a fault without a character.

None of it happens from any place that is not in front of the source.  A turn of the search does
what the first item asks for (`Loop.turn_eq`), and with fuel for more turns than there are
characters left, the search gives the next token (`Loop.next_eq`) and the stream all of them
(`Loop.stream_eq`).
-/
import Lexis.Lexer.Scan
import Lexis.Proofs.Lexer.Next
import Lexis.Proofs.Lexer.Records

namespace Lexis

/-- What may come of a scan in place of a result. -/
inductive Mishap where
  /-- A loop has used up its fuel. -/
  | unfinished
  | beforeStart (e : CursorError)
  | notOneCharacter (e : NotOneCharacter)
  deriving DecidableEq, Repr

theorem Mishap.ok_bind {α β : Type} (a : α) (f : α → Except Mishap β) :
    (Except.ok a >>= f) = f a := rfl

namespace Cursor

/-! ### Loops of the cursor -/

/-- Takes the next `n` characters. -/
def takeNext (n : Nat) (c : Cursor) : Except Mishap (List Char × Cursor) :=
  (c.advance n).mapError .beforeStart

/-- Takes characters one by one as long as they are in a class. -/
def takeWhile (p : Char → Bool) : Nat → Cursor → Except Mishap (List Char × Cursor)
  | 0, _ => .error .unfinished
  | n + 1, c =>
    if c.peek?.any p then do
      let (t, d) ← c.takeNext 1
      let (u, e) ← d.takeWhile p n
      return (t ++ u, e)
    else return ([], c)

/-- Takes characters one by one up to the end of a block comment, and tells whether it has one. -/
def passCloser : Nat → Cursor → Except Mishap (Bool × Cursor)
  | 0, _ => .error .unfinished
  | n + 1, c =>
    if c.atEnd then return (false, c)
    else if c.peek? = some '*' ∧ c.peek? 1 = some '/' then do
      let (_, d) ← c.takeNext 2
      return (true, d)
    else do
      let (_, d) ← c.takeNext 1
      d.passCloser n

variable {c : Cursor} {d e : Char} {t x r : List Char} {p : Char → Bool} {n : Nat}

theorem offset_moveOver (hc : 0 ≤ c.offset) (t : List Char) : 0 ≤ (c.moveOver t).offset := by
  show 0 ≤ (c.toMark.moveOver t).offset
  rw [Mark.moveOver_offset]
  omega

theorem moveOver_append (c : Cursor) (t u : List Char) :
    c.moveOver (t ++ u) = (c.moveOver t).moveOver u := by
  rw [moveOver, Mark.moveOver_append]
  rfl

theorem rest_moveOver (hc : 0 ≤ c.offset) (hr : c.rest = t ++ r) : (c.moveOver t).rest = r := by
  have h : (c.offset + t.length).toNat = c.offset.toNat + t.length := by omega
  rw [rest] at hr ⊢
  show c.source.drop (c.toMark.moveOver t).offset.toNat = r
  rw [Mark.moveOver_offset, h, ← List.drop_drop, hr, List.drop_left]

theorem atEnd_iff (hc : 0 ≤ c.offset) : c.atEnd = true ↔ c.rest = [] := by
  rw [atEnd, decide_eq_true_eq, rest, List.drop_eq_nil_iff]
  omega

theorem not_atEnd (hc : 0 ≤ c.offset) (hr : c.rest = d :: r) : ¬ c.atEnd = true := by
  rw [atEnd_iff hc, hr]
  exact List.cons_ne_nil d r

theorem peek?_eq_head? (hc : 0 ≤ c.offset) : c.peek? = c.rest.head? := by
  rw [peek?, Int.add_zero, if_pos hc, rest, List.head?_drop]

theorem peek?_eq (hc : 0 ≤ c.offset) (hr : c.rest = d :: r) : c.peek? = some d := by
  rw [peek?_eq_head? hc, hr, List.head?_cons]

theorem peek?_one_eq (hc : 0 ≤ c.offset) (hr : c.rest = d :: r) : c.peek? 1 = r.head? := by
  have hrest := congrArg List.tail hr
  have h : (c.offset + 1).toNat = c.offset.toNat + 1 := by omega
  rw [rest, List.tail_drop, List.tail_cons] at hrest
  rw [peek?, if_pos (by omega), h, ← List.head?_drop, hrest]

theorem any_peek?_eq (hc : 0 ≤ c.offset) (hr : c.rest = d :: r) (p : Char → Bool) :
    c.peek?.any p = p d := by
  rw [peek?_eq hc hr, Option.any_some]

/-- Characters that stand at the cursor can be taken. -/
theorem takeNext_eq (hc : 0 ≤ c.offset) (hr : c.rest = t ++ r) :
    c.takeNext t.length = .ok (t, c.moveOver t) := by
  have hin : ¬ (0 < t.length ∧ c.fromEnd c.offset < 0) := by
    rw [fromEnd]
    split <;> omega
  have hup : c.upcoming = t ++ r := by
    rw [upcoming, if_neg (by omega), hr]
  rw [takeNext, advance, if_neg hin, hup, List.take_left]
  rfl

theorem takeNext_one (hc : 0 ≤ c.offset) (hr : c.rest = d :: r) :
    c.takeNext 1 = .ok ([d], c.moveOver [d]) :=
  takeNext_eq (t := [d]) hc hr

theorem takeNext_two (hc : 0 ≤ c.offset) (hr : c.rest = d :: e :: r) :
    c.takeNext 2 = .ok ([d, e], c.moveOver [d, e]) :=
  takeNext_eq (t := [d, e]) hc hr

/-- The loop takes what is of the class, and stops behind it. -/
theorem takeWhile_eq (hc : 0 ≤ c.offset) (hr : c.rest = t ++ r) (ht : ∀ d ∈ t, p d = true)
    (hstops : Stops p r) (hn : t.length < n) : c.takeWhile p n = .ok (t, c.moveOver t) := by
  induction t generalizing c n with
  | nil =>
    obtain ⟨n, rfl⟩ := Nat.exists_eq_add_one_of_ne_zero (Nat.ne_zero_of_lt hn)
    have hout : ¬ c.peek?.any p = true := by
      rw [peek?_eq_head? hc, hr, List.nil_append, Option.any_eq_true]
      rintro ⟨d, hd, hp⟩
      rw [hstops d hd] at hp
      exact Bool.false_ne_true hp
    rw [takeWhile, if_neg hout]
    rfl
  | cons d t ih =>
    obtain ⟨n, rfl⟩ := Nat.exists_eq_add_one_of_ne_zero (Nat.ne_zero_of_lt hn)
    have hin : c.peek?.any p = true := by
      rw [any_peek?_eq hc hr]
      exact ht d (List.mem_cons_self)
    have hmore := ih (offset_moveOver hc [d]) (rest_moveOver (t := [d]) hc hr)
      (fun e he => ht e (List.mem_cons_of_mem d he)) (Nat.lt_of_succ_lt_succ hn)
    rw [takeWhile, if_pos hin, takeNext_one hc hr, Mishap.ok_bind]
    simp only [hmore, Mishap.ok_bind]
    rfl

/-- With fuel for all that is left, the loop takes what of it is of the class. -/
theorem takeWhile_rest (hc : 0 ≤ c.offset) (hn : c.rest.length < n) :
    c.takeWhile p n = .ok (c.rest.takeWhile p, c.moveOver (c.rest.takeWhile p)) := by
  have hr : c.rest = c.rest.takeWhile p ++ c.rest.dropWhile p :=
    List.takeWhile_append_dropWhile.symm
  have hall : ∀ d ∈ c.rest.takeWhile p, p d = true := List.all_eq_true.mp List.all_takeWhile
  have hlength : (c.rest.takeWhile p).length < n :=
    (List.takeWhile_prefix p).length_le.trans_lt hn
  exact takeWhile_eq hc hr hall (stops_dropWhile p c.rest) hlength

/-- Away from the end of a block comment, the loop goes over every character. -/
theorem passCloser_append (hc : 0 ≤ c.offset) (hr : c.rest = x ++ r) (hx : ¬ closer <:+: x)
    (hs : r.head? ≠ some '/') (n : Nat) :
    c.passCloser (n + x.length) = (c.moveOver x).passCloser n := by
  induction x generalizing c with
  | nil => rfl
  | cons d x ih =>
    have hnot : ¬ (c.peek? = some '*' ∧ c.peek? 1 = some '/') := by
      rw [peek?_eq hc hr, peek?_one_eq hc hr]
      rintro ⟨hd, hslash⟩
      exact head?_ne_slash hx hs (Option.some.inj hd) hslash
    have hmore := ih (offset_moveOver hc [d]) (rest_moveOver (t := [d]) hc hr)
      fun h => hx (List.infix_cons h)
    rw [List.length_cons, ← Nat.add_assoc, passCloser, if_neg (not_atEnd hc hr), if_neg hnot,
      takeNext_one hc hr, Mishap.ok_bind]
    exact hmore

/-- The loop comes to the first end of a block comment. -/
theorem passCloser_closed (hc : 0 ≤ c.offset) (hr : c.rest = x ++ closer ++ r)
    (hx : ¬ closer <:+: x) (n : Nat) :
    c.passCloser (n + 1 + x.length) = .ok (true, c.moveOver (x ++ closer)) := by
  rw [List.append_assoc] at hr
  have hc' := offset_moveOver hc x
  have hr' := rest_moveOver hc hr
  have hat : (c.moveOver x).peek? = some '*' ∧ (c.moveOver x).peek? 1 = some '/' :=
    ⟨peek?_eq hc' hr', peek?_one_eq hc' hr'⟩
  rw [passCloser_append hc hr hx (by simp [closer]), passCloser, if_neg (not_atEnd hc' hr'),
    if_pos hat, takeNext_two hc' hr', Mishap.ok_bind, moveOver_append]
  rfl

/-- Where a block comment has no end, the loop comes to the end of the source. -/
theorem passCloser_open (hc : 0 ≤ c.offset) (hr : c.rest = x) (hx : ¬ closer <:+: x) (n : Nat) :
    c.passCloser (n + 1 + x.length) = .ok (false, c.moveOver x) := by
  rw [← List.append_nil x] at hr
  have hend : (c.moveOver x).atEnd = true :=
    (atEnd_iff (offset_moveOver hc x)).mpr (rest_moveOver hc hr)
  rw [passCloser_append hc hr hx (by simp), passCloser, if_pos hend]
  rfl

end Cursor

namespace Loop

/-! ### The loops of the scan -/

/-- Skips the white space at the cursor. -/
def spaces (n : Nat) (x : Lexer) : Except Mishap Lexer := do
  let (_, c) ← x.cursor.takeWhile Text.isSpace n
  return { x with cursor := c }

/-- Skips the comment at the cursor. -/
def comment (n : Nat) (x : Lexer) : Except Mishap Lexer :=
  if x.cursor.peek? ≠ some '/' then return x
  else if x.cursor.peek? 1 = some '/' then do
    let (_, c) ← x.cursor.takeWhile (· ≠ '\n') n
    return { x with cursor := c }
  else if x.cursor.peek? 1 ≠ some '*' then return x
  else do
    let (_, c) ← x.cursor.takeNext 2
    let (closed, d) ← c.passCloser n
    let y := { x with cursor := d }
    return if closed then y else y.reportOpenComment x.here

/-- Takes the decimal digits at the cursor. -/
def integer (n : Nat) (x : Lexer) : Except Mishap (Token × Lexer) := do
  let (t, c) ← x.cursor.takeWhile Text.isDecimal n
  return (x.token .integer t, { x with cursor := c })

/-- Takes the word characters at the cursor. -/
def word (n : Nat) (x : Lexer) : Except Mishap (Token × Lexer) := do
  let (t, c) ← x.cursor.takeWhile isWordPart n
  return (x.token (.ofWord (String.ofList t)) t, { x with cursor := c })

/-- Takes the symbol at the cursor, if one stands there. -/
def symbol (x : Lexer) : Except Mishap (Option Token × Lexer) :=
  if x.cursor.peek? = some '&' then
    if x.cursor.peek? 1 ≠ some '&' then return (none, x)
    else do
      let (t, c) ← x.cursor.takeNext 2
      return (some (x.token (.operator .and) t), { x with cursor := c })
  else
    match x.cursor.peek?.bind Kind.ofSymbol? with
    | none => return (none, x)
    | some kind => do
      let (t, c) ← x.cursor.takeNext 1
      return (some (x.token kind t), { x with cursor := c })

/-- Takes one character and blames it. -/
def invalid (x : Lexer) : Except Mishap (Token × Lexer) := do
  let (t, c) ← x.cursor.takeNext 1
  let cause ← (Cause.ofText (String.ofList t)).mapError .notOneCharacter
  let fault : Fault :=
    { cause, location := some x.here, sourceLine := some (String.ofList x.cursor.lineText) }
  let y := { x with cursor := c, diagnostics := x.diagnostics.add fault }
  return (x.token .invalid t, y.record .debug
    (x.here.print ++ ": invalid character " ++ Text.quoted (String.ofList t)))

/-- Gives the token of what stands at the cursor, be it a lexeme or a stray character. -/
def piece (n : Nat) (x : Lexer) : Except Mishap (Token × Lexer) :=
  if x.cursor.peek?.any Text.isDecimal then integer n x
  else if x.cursor.peek?.any isWordStart then word n x
  else do
    match ← symbol x with
    | (some t, y) => return (t, y)
    | (none, y) => invalid y

/-- One turn of the search for a token. -/
def turn (n : Nat) (x : Lexer) : Except Mishap (Option Token × Lexer) :=
  if x.cursor.atEnd then return (some x.endToken, x)
  else if x.cursor.peek?.any Text.isSpace then do
    let y ← spaces n x
    return (none, y)
  else if x.cursor.peek? = some '/' ∧
      (x.cursor.peek? 1 = some '/' ∨ x.cursor.peek? 1 = some '*') then do
    let y ← comment n x
    return (none, y)
  else do
    let (t, y) ← piece n x
    return (some t, y)

/-- Turn after turn until there is a token. -/
def next : Nat → Lexer → Except Mishap (Token × Lexer)
  | 0, _ => .error .unfinished
  | n + 1, x => do
    match ← turn (n + 1) x with
    | (some t, y) => return (t, y)
    | (none, y) => next n y

/-- Token after token until there is an end token. -/
def stream : Nat → Lexer → Except Mishap (List Token × Lexer)
  | 0, _ => .error .unfinished
  | n + 1, x => do
    let (t, y) ← next (n + 1) x
    if t.isEnd then return ([t], y)
    let (ts, z) ← stream n y
    return (t :: ts, z)

/-- The stream, and its counts in the log. -/
def tokenize (n : Nat) (x : Lexer) : Except Mishap (List Token × Lexer) := do
  let (ts, y) ← stream n x
  return (ts, y.recordCount ts.length)

/-! ### One turn for one item -/

variable {x : Lexer} {c d : Char} {t r : List Char} {n : Nat}

/-- White space is skipped as far as it goes. -/
theorem spaces_run (hx : 0 ≤ x.cursor.offset) (hr : x.rest = t ++ r)
    (ht : ∀ c ∈ t, Text.isSpace c = true) (hstops : Stops Text.isSpace r) (hn : t.length < n) :
    spaces n x = .ok (x.moveOver t) := by
  rw [spaces, Cursor.takeWhile_eq hx hr ht hstops hn]
  rfl

/-- **Skipping white space ends, and nothing goes wrong**, whatever stands at the cursor. -/
theorem spaces_eq (hx : 0 ≤ x.cursor.offset) (hn : x.rest.length < n) :
    spaces n x = .ok x.skipSpaces := by
  have hloop := Cursor.takeWhile_rest (p := Text.isSpace) hx hn
  rw [spaces, hloop, Mishap.ok_bind, Lexer.skipSpaces, Trivia.spaces?, Lexer.rest]
  cases x.cursor.rest.takeWhile Text.isSpace with
  | nil => rfl
  | cons c t => rfl

theorem turn_spaces (hx : 0 ≤ x.cursor.offset) (hr : x.rest = t ++ r)
    (ht : (Trivia.spaces t).Fits r) (hn : t.length < n) :
    turn n x = .ok (none, x.skip (.spaces t)) := by
  obtain ⟨hne, hall, hstops⟩ := ht
  have hloop := spaces_run hx hr hall hstops hn
  obtain ⟨c, t, rfl⟩ := List.exists_cons_of_ne_nil hne
  have hc : x.cursor.peek?.any Text.isSpace = true := by
    rw [Cursor.any_peek?_eq hx hr]
    exact hall c List.mem_cons_self
  rw [turn, if_neg (Cursor.not_atEnd hx hr), if_pos hc, hloop]
  rfl

/-- A line comment is skipped by the loop for line comments. -/
theorem comment_line (hx : 0 ≤ x.cursor.offset) (hr : x.rest = t ++ r)
    (ht : (Trivia.lineComment t).Fits r) (hn : t.length < n) :
    comment n x = .ok (x.skip (.lineComment t)) := by
  obtain ⟨w, rfl, hw, hstops⟩ := ht
  have hslash : x.cursor.peek? = some '/' := Cursor.peek?_eq hx hr
  have hnext : x.cursor.peek? 1 = some '/' := Cursor.peek?_one_eq hx hr
  have hall : '\n' ∉ '/' :: '/' :: w := by simpa using hw
  rw [comment, if_neg (not_not.mpr hslash), if_pos hnext,
    Cursor.takeWhile_eq hx hr (forall_ne_newline hall) hstops hn]
  rfl

/-- The opener of a block comment is taken before the loop for block comments. -/
theorem comment_block (hx : 0 ≤ x.cursor.offset) (hr : x.rest = '/' :: '*' :: r) :
    comment n x = do
      let (closed, d) ← (x.cursor.moveOver ['/', '*']).passCloser n
      let y := { x with cursor := d }
      return if closed then y else y.reportOpenComment x.here := by
  have hslash : x.cursor.peek? = some '/' := Cursor.peek?_eq hx hr
  have hnext : x.cursor.peek? 1 = some '*' := Cursor.peek?_one_eq hx hr
  have hline : ¬ x.cursor.peek? 1 = some '/' := by
    rw [hnext]
    decide
  rw [comment, if_neg (not_not.mpr hslash), if_neg hline, if_neg (not_not.mpr hnext),
    Cursor.takeNext_two hx hr, Mishap.ok_bind]

theorem comment_closed (hx : 0 ≤ x.cursor.offset) (hr : x.rest = t ++ r)
    (ht : (Trivia.blockComment t).Fits r) (hn : t.length < n) :
    comment n x = .ok (x.skip (.blockComment t)) := by
  obtain ⟨w, rfl, hw⟩ := ht
  obtain ⟨k, rfl⟩ : ∃ k, n = k + 1 + w.length :=
    ⟨n - 1 - w.length, by simp only [List.length_cons, List.length_append] at hn; omega⟩
  have hrest := Cursor.rest_moveOver (t := ['/', '*']) hx hr
  rw [comment_block hx hr,
    Cursor.passCloser_closed (Cursor.offset_moveOver hx _) hrest hw, Mishap.ok_bind,
    ← Cursor.moveOver_append]
  rfl

theorem comment_open (hx : 0 ≤ x.cursor.offset) (hr : x.rest = t ++ r)
    (ht : (Trivia.openComment t).Fits r) (hn : t.length < n) :
    comment n x = .ok (x.skip (.openComment t)) := by
  obtain ⟨w, rfl, hw, rfl⟩ := ht
  rw [List.append_nil] at hr
  obtain ⟨k, rfl⟩ : ∃ k, n = k + 1 + w.length :=
    ⟨n - 1 - w.length, by simp only [List.length_cons] at hn; omega⟩
  have hrest := Cursor.rest_moveOver (t := ['/', '*']) hx hr
  rw [comment_block hx hr,
    Cursor.passCloser_open (Cursor.offset_moveOver hx _) hrest hw, Mishap.ok_bind,
    ← Cursor.moveOver_append]
  rfl

theorem comment_none (hx : 0 ≤ x.cursor.offset) (h : Trivia.comment? x.rest = none) :
    comment n x = .ok x := by
  obtain ⟨hline, hblock⟩ := Trivia.comment?_eq_none_iff.mp h
  by_cases hslash : x.cursor.peek? = some '/'
  · obtain ⟨r, hr⟩ : ∃ r, x.rest = '/' :: r := by
      rw [Cursor.peek?_eq_head? hx] at hslash
      exact List.head?_eq_some_iff.mp hslash
    have hsecond : ∀ c, r.head? = some c → x.rest.take 2 = ['/', c] := by
      intro c hc
      obtain ⟨s, rfl⟩ := List.head?_eq_some_iff.mp hc
      rw [hr]
      rfl
    have hline' : ¬ x.cursor.peek? 1 = some '/' := by
      rw [Cursor.peek?_one_eq hx hr]
      exact fun hc => hline (hsecond '/' hc)
    have hblock' : x.cursor.peek? 1 ≠ some '*' := by
      rw [Cursor.peek?_one_eq hx hr]
      exact fun hc => hblock (hsecond '*' hc)
    rw [comment, if_neg (not_not.mpr hslash), if_neg hline', if_pos hblock']
    rfl
  · rw [comment, if_pos hslash]
    rfl

/-- **Skipping a comment ends, and nothing goes wrong**, whatever stands at the cursor. -/
theorem comment_eq (hx : 0 ≤ x.cursor.offset) (hn : x.rest.length < n) :
    comment n x = .ok x.skipComment := by
  rw [Lexer.skipComment]
  cases h : Trivia.comment? x.rest with
  | none => exact comment_none hx h
  | some t =>
    obtain ⟨r, hr, ht⟩ := Trivia.exists_fits_of_comment? h
    have hlength : t.text.length < n := by
      rw [hr, List.length_append] at hn
      omega
    cases t with
    | spaces t => exact absurd rfl (Trivia.ne_spaces_of_comment? h t)
    | lineComment t => exact comment_line hx hr ht hlength
    | blockComment t => exact comment_closed hx hr ht hlength
    | openComment t => exact comment_open hx hr ht hlength

theorem turn_comment (hx : 0 ≤ x.cursor.offset) (hr : x.rest = '/' :: d :: r)
    (hd : d = '/' ∨ d = '*') {y : Lexer} (hy : comment n x = .ok y) :
    turn n x = .ok (none, y) := by
  have hspace : ¬ x.cursor.peek?.any Text.isSpace = true := by
    rw [Cursor.any_peek?_eq hx hr]
    decide
  have hslash : x.cursor.peek? = some '/' := Cursor.peek?_eq hx hr
  have hguard : x.cursor.peek? = some '/' ∧
      (x.cursor.peek? 1 = some '/' ∨ x.cursor.peek? 1 = some '*') := by
    rw [Cursor.peek?_one_eq hx hr, List.head?_cons, Option.some_inj, Option.some_inj]
    exact ⟨hslash, hd⟩
  rw [turn, if_neg (Cursor.not_atEnd hx hr), if_neg hspace, if_pos hguard, hy]
  rfl

/-- Where a piece with a token stands, a turn gives the token. -/
theorem turn_piece (hx : 0 ≤ x.cursor.offset) {f : Form} {l : Lexeme} (hf : f.Fits l r)
    (hr : x.rest = l.text ++ r) {p : Token × Lexer} (hp : piece n x = .ok p) :
    turn n x = .ok (some p.1, p.2) := by
  obtain ⟨c, t, ht⟩ := List.exists_cons_of_ne_nil (f.text_ne_nil hf)
  have hmem : c ∈ l.text := ht ▸ List.mem_cons_self
  rw [ht] at hr
  have hspace : ¬ x.cursor.peek?.any Text.isSpace = true := by
    rw [Cursor.any_peek?_eq hx hr, f.not_isSpace_of_mem hf hmem]
    exact Bool.false_ne_true
  have hguard : ¬ (x.cursor.peek? = some '/' ∧
      (x.cursor.peek? 1 = some '/' ∨ x.cursor.peek? 1 = some '*')) := by
    rw [Cursor.peek?_eq hx hr, Cursor.peek?_one_eq hx hr]
    rintro ⟨hc, hd⟩
    obtain rfl : c = '/' := Option.some.inj hc
    obtain ⟨hl, hslash, hstar⟩ := f.slash_of_mem hf hmem
    obtain rfl : t = [] := by simpa [ht] using hl
    exact hd.elim hslash hstar
  rw [turn, if_neg (Cursor.not_atEnd hx hr), if_neg hspace, if_neg hguard, hp]
  rfl

theorem piece_integer (hx : 0 ≤ x.cursor.offset) {l : Lexeme} (hl : Form.integer.Fits l r)
    (hr : x.rest = l.text ++ r) (hn : l.text.length < n) : piece n x = .ok (x.take l) := by
  obtain ⟨kind, text⟩ := l
  obtain ⟨rfl, hne, hall, hstops⟩ := hl
  have hloop : integer n x = .ok (x.take ⟨.integer, text⟩) := by
    rw [integer, Cursor.takeWhile_eq hx hr hall hstops hn]
    rfl
  obtain ⟨c, t, rfl⟩ := List.exists_cons_of_ne_nil hne
  have hc : x.cursor.peek?.any Text.isDecimal = true := by
    rw [Cursor.any_peek?_eq hx hr]
    exact hall c List.mem_cons_self
  rw [piece, if_pos hc, hloop]

theorem piece_word (hx : 0 ≤ x.cursor.offset) {l : Lexeme} (hl : Form.word.Fits l r)
    (hr : x.rest = l.text ++ r) (hn : l.text.length < n) : piece n x = .ok (x.take l) := by
  obtain ⟨kind, text⟩ := l
  obtain ⟨⟨c, t, rfl, hc, ht⟩, hstops, hkind⟩ := hl
  obtain rfl : Kind.ofWord (String.ofList (c :: t)) = kind := ofWord_eq_iff.mpr hkind
  have hall : ∀ d ∈ c :: t, isWordPart d = true :=
    List.forall_mem_cons.mpr ⟨isWordPart_of_isWordStart hc, ht⟩
  have hdecimal : ¬ x.cursor.peek?.any Text.isDecimal = true := by
    rw [Cursor.any_peek?_eq hx hr, not_isDecimal_of_isWordStart hc]
    exact Bool.false_ne_true
  have hstart : x.cursor.peek?.any isWordStart = true := by
    rw [Cursor.any_peek?_eq hx hr, hc]
  rw [piece, if_neg hdecimal, if_pos hstart, word, Cursor.takeWhile_eq hx hr hall hstops hn]
  rfl

/-- Where neither a number nor a word begins, the token is that of a symbol or of a stray
character. -/
theorem piece_plain (hx : 0 ≤ x.cursor.offset) (hr : x.rest = c :: r) (hc : Plain c) :
    piece n x = (do
      match ← symbol x with
      | (some t, y) => return (t, y)
      | (none, y) => invalid y) := by
  have hdecimal : ¬ x.cursor.peek?.any Text.isDecimal = true := by
    rw [Cursor.any_peek?_eq hx hr, hc.not_decimal]
    exact Bool.false_ne_true
  have hstart : ¬ x.cursor.peek?.any isWordStart = true := by
    rw [Cursor.any_peek?_eq hx hr, hc.not_wordStart]
    exact Bool.false_ne_true
  rw [piece, if_neg hdecimal, if_neg hstart]

theorem symbol_conjunction (hx : 0 ≤ x.cursor.offset) (hr : x.rest = '&' :: '&' :: r) :
    symbol x = .ok (some (x.token (.operator .and) ['&', '&']), x.moveOver ['&', '&']) := by
  have hsecond : x.cursor.peek? 1 = some '&' := Cursor.peek?_one_eq hx hr
  rw [symbol, if_pos (Cursor.peek?_eq hx hr), if_neg (not_not.mpr hsecond),
    Cursor.takeNext_two hx hr]
  rfl

/-- Away from a conjunction, the table of symbols has the say. -/
theorem symbol_of_table (hx : 0 ≤ x.cursor.offset) (hr : x.rest = c :: r)
    (hc : c = '&' → r.head? ≠ some '&') :
    symbol x = .ok (match Kind.ofSymbol? c with
      | some kind => (some (x.token kind [c]), x.moveOver [c])
      | none => (none, x)) := by
  rw [symbol, Cursor.peek?_eq hx hr]
  by_cases ha : c = '&'
  · have hsecond : x.cursor.peek? 1 ≠ some '&' := by
      rw [Cursor.peek?_one_eq hx hr]
      exact hc ha
    rw [if_pos (congrArg some ha), if_pos hsecond, ha]
    rfl
  · rw [if_neg (mt Option.some.inj ha), Option.bind_some]
    cases Kind.ofSymbol? c with
    | none => rfl
    | some kind =>
      rw [Cursor.takeNext_one hx hr]
      rfl

/-- One character can be blamed. -/
theorem invalid_eq (hx : 0 ≤ x.cursor.offset) (hr : x.rest = c :: r) :
    invalid x = .ok (x.reject c) := by
  have hcause : Cause.ofText (String.ofList [c]) = .ok (.invalidCharacter c) := by
    rw [Cause.ofText, String.toList_ofList]
  rw [invalid, Cursor.takeNext_one hx hr, Mishap.ok_bind]
  simp only [hcause]
  rfl

theorem piece_lexeme (hx : 0 ≤ x.cursor.offset) {f : Form} {l : Lexeme} (hf : f ≠ .stray)
    (hl : f.Fits l r) (hr : x.rest = l.text ++ r) (hn : l.text.length < n) :
    piece n x = .ok (x.take l) := by
  obtain ⟨kind, text⟩ := l
  match f, hl with
  | .integer, hl => exact piece_integer hx hl hr hn
  | .word, hl => exact piece_word hx hl hr hn
  | .conjunction, ⟨hkind, htext⟩ =>
    obtain ⟨rfl, rfl⟩ : kind = .operator .and ∧ text = ['&', '&'] := ⟨hkind, htext⟩
    rw [piece_plain hx hr .ampersand, symbol_conjunction hx hr]
    rfl
  | .symbol, ⟨c, htext, hc⟩ =>
    obtain rfl : text = [c] := htext
    have hlone : c = '&' → r.head? ≠ some '&' := by
      rintro rfl
      cases hc
    rw [piece_plain hx hr (.of_ofSymbol? hc), symbol_of_table hx hr hlone, hc]
    rfl
  | .stray, _ => exact absurd rfl hf

theorem piece_stray (hx : 0 ≤ x.cursor.offset) (hr : x.rest = c :: r) (hc : Stray c r) :
    piece n x = .ok (x.reject c) := by
  rw [piece_plain hx hr hc.toPlain, symbol_of_table hx hr hc.lone_ampersand, hc.no_symbol]
  exact invalid_eq hx hr

/-- **A turn takes an item**: whatever item stands at the cursor, its guard lets in a loop that goes
over the item's text and no further. -/
theorem turn_eq (hx : 0 ≤ x.cursor.offset) {i : Item} (hr : x.rest = i.text ++ r) (hi : i.Fits r)
    (hn : i.text.length < n) :
    turn n x = .ok (i.token? x.filename x.cursor.toMark, x.after i) := by
  match i, hi with
  | .trivia (.spaces t), hi => exact turn_spaces hx hr hi hn
  | .trivia (.lineComment t), hi =>
    have hy := comment_line hx hr hi hn
    obtain ⟨w, rfl, -⟩ := hi
    exact turn_comment hx hr (.inl rfl) hy
  | .trivia (.blockComment t), hi =>
    have hy := comment_closed hx hr hi hn
    obtain ⟨w, rfl, -⟩ := hi
    exact turn_comment hx hr (.inr rfl) hy
  | .trivia (.openComment t), hi =>
    have hy := comment_open hx hr hi hn
    obtain ⟨w, rfl, -⟩ := hi
    exact turn_comment hx hr (.inr rfl) hy
  | .lexeme l, ⟨f, hf, hl⟩ => exact turn_piece hx hl hr (piece_lexeme hx hf hl hr hn)
  | .invalid c, hi =>
    obtain ⟨d, hd, -, hc⟩ := id hi
    obtain rfl : c = d := List.singleton_inj.mp hd
    exact turn_piece (f := .stray) hx hi hr (piece_stray hx hr hc)

theorem turn_of_rest_nil (hx : 0 ≤ x.cursor.offset) (hr : x.rest = []) :
    turn n x = .ok (some x.endToken, x) := by
  rw [turn, if_pos ((Cursor.atEnd_iff hx).mpr hr)]
  rfl

/-! ### The search -/

/-- **The search ends, and nothing goes wrong**: with fuel for more turns than there are characters
left, it gives the next token. -/
theorem next_eq (hx : 0 ≤ x.cursor.offset) (hn : x.rest.length < n) : next n x = .ok x.next := by
  induction x, hx using Lexer.rest_induction generalizing n with
  | nil x hx hr =>
    obtain ⟨n, rfl⟩ := Nat.exists_eq_add_one_of_ne_zero (Nat.ne_zero_of_lt hn)
    rw [next, turn_of_rest_nil hx hr, Mishap.ok_bind, Lexer.next_of_rest_nil hr]
    rfl
  | item x hx i hr hi ih =>
    obtain ⟨n, rfl⟩ := Nat.exists_eq_add_one_of_ne_zero (Nat.ne_zero_of_lt hn)
    -- an item is not empty, so there is less behind it
    have hpos := List.length_pos_iff.mpr hi.text_ne_nil
    have hlength := congrArg List.length hr
    rw [List.length_append] at hlength
    rw [next, turn_eq hx hr hi (by omega), Mishap.ok_bind, Lexer.next_of_fits hr hi]
    cases i.token? x.filename x.cursor.toMark with
    | none => exact ih (by omega)
    | some t => rfl

/-- The stream ends, too, with all tokens up to the end token. -/
theorem stream_eq (hx : 0 ≤ x.cursor.offset) (hn : x.rest.length < n) :
    stream n x = .ok (x.tokens, x.finish) := by
  induction n generalizing x with
  | zero => exact absurd hn (Nat.not_lt_zero _)
  | succ n ih =>
    rw [stream, next_eq hx hn, Mishap.ok_bind]
    rcases Lexer.next_spec hx with ⟨hend, htokens, hfinish, ho⟩ | ⟨htokens, hnext⟩
    · have hmore := ih ho ((Lexer.length_rest_next_lt hx hend).trans_le (Nat.le_of_lt_succ hn))
      simp only [hend, hmore, Mishap.ok_bind, htokens, hfinish]
      rfl
    · rw [hnext, htokens]
      rfl

theorem tokenize_eq (hx : 0 ≤ x.cursor.offset) (hn : x.rest.length < n) :
    tokenize n x = .ok x.tokenize := by
  rw [tokenize, stream_eq hx hn, Mishap.ok_bind, Lexer.tokenize_eq_recordCount]
  rfl

end Loop

end Lexis
