/-
Scanning by hand.

A caller may ask for an integer, a word or a symbol wherever the cursor stands: at the end of the
source and past it, in the middle of a lexeme, in front of a character that the search for tokens
would never let in.  Two of the scans take the longest run of their class, and be it empty; the
third takes a symbol, or leaves the lexer as it is.  `Lexer.Scanned` has a rule for each outcome, in
terms of the source and of the places in front of the token and behind it.

* `longestRun_iff` — there is one longest run;
* `Lexer.takes_iff` — which tokens can be taken off the source;
* `Lexer.scanned_iff` — the rules say what the scans come to, and nothing else;
* `Loop.scan_eq` — the loops over single characters come to the same.
-/
import Lexis.Proofs.Lexer.Loop
import Lexis.Session.Step

namespace Lexis

/-! ### Longest runs -/

/-- A text is the longest run of a class at the start of another one: it stands there and is of the
class, and no text of which that holds goes beyond it. -/
structure LongestRun (p : Char → Bool) (t r : List Char) : Prop where
  stands : t <+: r
  all : ∀ c ∈ t, p c = true
  longest : ∀ u, u <+: r → (∀ c ∈ u, p c = true) → u <+: t

section longestRun

variable {p : Char → Bool} {t u r : List Char}

theorem LongestRun.unique (ht : LongestRun p t r) (hu : LongestRun p u r) : t = u := by
  have htu : t <+: u := hu.longest t ht.stands ht.all
  have hut : u <+: t := ht.longest u hu.stands hu.all
  exact htu.eq_of_length_le hut.length_le

theorem longestRun_takeWhile (p : Char → Bool) (r : List Char) :
    LongestRun p (r.takeWhile p) r where
  stands := List.takeWhile_prefix p
  all := List.all_eq_true.mp List.all_takeWhile
  longest := by
    rintro u ⟨s, rfl⟩ hu
    rw [List.takeWhile_append_of_pos hu]
    exact List.prefix_append u _

theorem longestRun_iff : LongestRun p t r ↔ t = r.takeWhile p := by
  constructor
  · intro h
    exact h.unique (longestRun_takeWhile p r)
  · rintro rfl
    exact longestRun_takeWhile p r

end longestRun

/-! ### Taking a token -/

/-- A scan that a caller may ask for. -/
inductive Scan where
  | integer
  | word
  | symbol
  deriving DecidableEq, Repr

/-- The request for a scan. -/
def Scan.request : Scan → Step
  | .integer => .scanInteger
  | .word => .scanWord
  | .symbol => .scanSymbol

namespace Lexer

/-- A token has been taken off the source on the way from one lexer to another: it is the text
between their two places, it is told at the first of them, and all that has changed is that the
cursor has gone over the text. -/
structure Takes (x : Lexer) (t : Token) (y : Lexer) : Prop where
  text : t.text.toList =
    (x.cursor.source.take y.cursor.offset.toNat).drop x.cursor.offset.toNat
  line : t.line = x.cursor.line
  column : t.column = x.cursor.column
  filename : t.filename = x.filename
  behind : y = x.moveOver t.text.toList

/-- What a scan comes to: its answer, and the lexer behind it. -/
inductive Scanned (x : Lexer) : Scan → Answer → Lexer → Prop where
  /-- An integer is the longest run of decimal digits. -/
  | integer {t : Token} {y : Lexer} (h : x.Takes t y)
      (hrun : LongestRun Text.isDecimal t.text.toList x.rest) (hkind : t.kind = .integer) :
      Scanned x .integer (.token t) y
  /-- A word is the longest run of letters, decimal digits and underscores, and the table of
  reserved words has its kind. -/
  | word {t : Token} {y : Lexer} (h : x.Takes t y)
      (hrun : LongestRun isWordPart t.text.toList x.rest) (hkind : Spells t.kind t.text.toList) :
      Scanned x .word (.token t) y
  /-- The symbol of two characters. -/
  | conjunction {t : Token} {y : Lexer} (h : x.Takes t y) (htext : t.text.toList = ['&', '&'])
      (hkind : t.kind = .operator .and) : Scanned x .symbol (.token t) y
  /-- A symbol of one character. -/
  | symbol {t : Token} {y : Lexer} {c : Char} (h : x.Takes t y) (htext : t.text.toList = [c])
      (hkind : Kind.ofSymbol? c = some t.kind) : Scanned x .symbol (.token t) y
  /-- Where no symbol stands, nothing happens. -/
  | nothing (hpair : ¬ ['&', '&'] <+: x.rest)
      (hsingle : ∀ c ∈ x.rest.head?, Kind.ofSymbol? c = none) : Scanned x .symbol .nothing x

variable {x y : Lexer} {t : Token} {s : Scan} {a : Answer}

/-- What stands between a place and the one behind a text. -/
theorem slice_moveOver (hx : 0 ≤ x.cursor.offset) (w : List Char) :
    (x.cursor.source.take (x.moveOver w).cursor.offset.toNat).drop x.cursor.offset.toNat =
      x.rest.take w.length := by
  have hoffset : (x.moveOver w).cursor.offset.toNat = x.cursor.offset.toNat + w.length := by
    show (x.cursor.toMark.moveOver w).offset.toNat = _
    rw [Mark.moveOver_offset]
    omega
  rw [hoffset, List.drop_take, Nat.add_sub_cancel_left]
  rfl

/-- A token is taken off the source when its text stands at the cursor. -/
theorem takes_iff (hx : 0 ≤ x.cursor.offset) :
    x.Takes t y ↔ t.text.toList <+: x.rest ∧ x.take ⟨t.kind, t.text.toList⟩ = (t, y) := by
  constructor
  · rintro ⟨htext, hline, hcolumn, hfilename, rfl⟩
    rw [slice_moveOver hx] at htext
    refine ⟨List.prefix_iff_eq_take.mpr htext, ?_⟩
    rw [take, token, ← hline, ← hcolumn, ← hfilename, String.ofList_toList]
  · rintro ⟨hstands, htake⟩
    obtain ⟨htoken, rfl⟩ := Prod.mk.inj htake
    refine ⟨?_, ?_, ?_, ?_, rfl⟩
    · rw [slice_moveOver hx]
      exact List.prefix_iff_eq_take.mp hstands
    · rw [← htoken]
      rfl
    · rw [← htoken]
      rfl
    · rw [← htoken]
      rfl

theorem toList_text_token (x : Lexer) (kind : Kind) (w : List Char) :
    (x.token kind w).text.toList = w := String.toList_ofList

/-- A lexeme that stands at the cursor is taken off the source. -/
theorem takes_take (hx : 0 ≤ x.cursor.offset) {l : Lexeme} (h : l.text <+: x.rest) :
    x.Takes (x.take l).1 (x.take l).2 := by
  rw [takes_iff hx, take, toList_text_token]
  exact ⟨h, rfl⟩

/-! ### The scans -/

/-- A symbol that can be taken off the source is what the scan for symbols takes. -/
theorem perform_scanSymbol_of_takes (hx : 0 ≤ x.cursor.offset) (h : x.Takes t y)
    (ht : t.kind = .operator .and ∧ t.text.toList = ['&', '&'] ∨
      ∃ c, t.text.toList = [c] ∧ Kind.ofSymbol? c = some t.kind) :
    x.perform .scanSymbol = (.token t, y) := by
  obtain ⟨hstands, htake⟩ := (takes_iff hx).mp h
  have hsymbol : Lexeme.symbol? x.rest = some ⟨t.kind, t.text.toList⟩ :=
    Lexeme.symbol?_eq_some_iff.mpr ⟨hstands, ht⟩
  rw [perform, scanSymbol, hsymbol]
  simp only [htake]

/-- A rule that applies says what the scan comes to. -/
theorem Scanned.perform_eq (hx : 0 ≤ x.cursor.offset) (h : x.Scanned s a y) :
    x.perform s.request = (a, y) := by
  cases h with
  | @integer t y h hrun hkind =>
    obtain ⟨-, htake⟩ := (takes_iff hx).mp h
    have hlexeme : Lexeme.integer x.rest = ⟨t.kind, t.text.toList⟩ := by
      rw [Lexeme.integer, ← longestRun_iff.mp hrun, hkind]
    rw [Scan.request, perform, scanInteger, hlexeme, htake]
  | @word t y h hrun hkind =>
    obtain ⟨-, htake⟩ := (takes_iff hx).mp h
    have hlexeme : Lexeme.word x.rest = ⟨t.kind, t.text.toList⟩ := by
      rw [Lexeme.word, ← longestRun_iff.mp hrun, ofWord_eq_iff.mpr hkind]
    rw [Scan.request, perform, scanWord, hlexeme, htake]
  | conjunction h htext hkind =>
    exact perform_scanSymbol_of_takes hx h (.inl ⟨hkind, htext⟩)
  | @symbol t y c h htext hkind =>
    exact perform_scanSymbol_of_takes hx h (.inr ⟨c, htext, hkind⟩)
  | nothing hpair hsingle =>
    have hsymbol : Lexeme.symbol? x.rest = none :=
      Lexeme.symbol?_eq_none_iff.mpr ⟨hpair, hsingle⟩
    rw [Scan.request, perform, scanSymbol, hsymbol]

/-- Some rule applies to every scan. -/
theorem scanned_perform (hx : 0 ≤ x.cursor.offset) (s : Scan) :
    x.Scanned s (x.perform s.request).1 (x.perform s.request).2 := by
  cases s with
  | integer =>
    have hrun := longestRun_takeWhile Text.isDecimal x.rest
    refine .integer (takes_take hx (l := .integer x.rest) hrun.stands) ?_ rfl
    rw [toList_text_token]
    exact hrun
  | word =>
    have hrun := longestRun_takeWhile isWordPart x.rest
    refine .word (takes_take hx (l := .word x.rest) hrun.stands) ?_ ?_
    · rw [toList_text_token]
      exact hrun
    · rw [toList_text_token]
      exact ofWord_eq_iff.mp rfl
  | symbol =>
    rw [Scan.request, perform, scanSymbol]
    cases h : Lexeme.symbol? x.rest with
    | none =>
      obtain ⟨hpair, hsingle⟩ := Lexeme.symbol?_eq_none_iff.mp h
      exact .nothing hpair hsingle
    | some l =>
      obtain ⟨hstands, ⟨hkind, hl⟩ | ⟨c, hl, hkind⟩⟩ := Lexeme.symbol?_eq_some_iff.mp h
      · exact .conjunction (takes_take hx hstands) ((x.toList_text_token _ _).trans hl) hkind
      · exact .symbol (takes_take hx hstands) ((x.toList_text_token _ _).trans hl) hkind

/-- **The rules say what the scans come to**, and nothing else. -/
theorem scanned_iff (hx : 0 ≤ x.cursor.offset) :
    x.Scanned s a y ↔ x.perform s.request = (a, y) := by
  constructor
  · exact Scanned.perform_eq hx
  · intro h
    have hscanned := scanned_perform hx s
    rwa [h] at hscanned

end Lexer

/-! ### The loops -/

namespace Loop

variable {x : Lexer} {n : Nat}

/-- A scan by its loop. -/
def scan (n : Nat) (x : Lexer) : Scan → Except Mishap (Answer × Lexer)
  | .integer => do
    let (t, y) ← integer n x
    return (.token t, y)
  | .word => do
    let (t, y) ← word n x
    return (.token t, y)
  | .symbol => do
    match ← symbol x with
    | (some t, y) => return (.token t, y)
    | (none, y) => return (.nothing, y)

theorem integer_eq (hx : 0 ≤ x.cursor.offset) (hn : x.rest.length < n) :
    integer n x = .ok x.scanInteger := by
  rw [integer, Cursor.takeWhile_rest hx hn]
  rfl

theorem word_eq (hx : 0 ≤ x.cursor.offset) (hn : x.rest.length < n) :
    word n x = .ok x.scanWord := by
  rw [word, Cursor.takeWhile_rest hx hn]
  rfl

/-- The look at the table, with the pair in front of it, finds the symbol. -/
theorem symbol_eq (hx : 0 ≤ x.cursor.offset) : symbol x = .ok x.scanSymbol := by
  cases hr : x.rest with
  | nil =>
    have hpeek : x.cursor.peek? = none := by
      rw [Cursor.peek?_eq_head? hx]
      exact congrArg List.head? hr
    rw [symbol, hpeek, Lexer.scanSymbol, hr]
    rfl
  | cons c r =>
    by_cases hpair : c = '&' ∧ r.head? = some '&'
    · obtain ⟨rfl, hsecond⟩ := hpair
      obtain ⟨r, rfl⟩ := List.head?_eq_some_iff.mp hsecond
      rw [symbol_conjunction hx hr, Lexer.scanSymbol, hr]
      rfl
    · have hlone : c = '&' → r.head? ≠ some '&' := fun hc hsecond => hpair ⟨hc, hsecond⟩
      rw [symbol_of_table hx hr hlone, Lexer.scanSymbol, hr, symbol?_cons hlone]
      cases Kind.ofSymbol? c with
      | none => rfl
      | some kind => rfl

/-- **Scanning ends, and nothing goes wrong**, whatever stands at the cursor. -/
theorem scan_eq (hx : 0 ≤ x.cursor.offset) (hn : x.rest.length < n) (s : Scan) :
    scan n x s = .ok (x.perform s.request) := by
  cases s with
  | integer =>
    rw [scan, integer_eq hx hn, Mishap.ok_bind]
    rfl
  | word =>
    rw [scan, word_eq hx hn, Mishap.ok_bind]
    rfl
  | symbol =>
    rw [scan, symbol_eq hx, Mishap.ok_bind, Scan.request, Lexer.perform]
    cases x.scanSymbol with
    | mk t y => cases t <;> rfl

end Loop

end Lexis
