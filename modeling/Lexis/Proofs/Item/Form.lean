/-
The forms of the pieces of a source, said without the scanner.

A piece is judged together with the text that follows it.  `Form.Fits` gives the five forms of a
piece that has a token, `Trivia.Fits` the four kinds of trivia, and `Item.Fits` puts them together.
Longest match is a condition on what follows (`Stops`), and so is the one character of lookahead
that a lone ampersand or slash needs (`Stray`).

* `Form.mem_text` — which characters a piece is made of;
* `Form.unique` — no piece has two forms;
* `Form.Fits.congr`, `Form.Fits.before_space`, `Form.Fits.at_end` — what may follow a piece;
* `Item.Fits.congr` — no item looks further than the next character.
-/
import Lexis.Proofs.Text.Disjoint
import Mathlib.Data.List.TakeWhile

namespace Lexis

open Text

/-- The text does not go on with a character of the class. -/
def Stops (p : Char → Bool) (r : List Char) : Prop :=
  ∀ c ∈ r.head?, p c = false

@[simp] theorem stops_nil (p : Char → Bool) : Stops p [] := by simp [Stops]

@[simp] theorem stops_cons {p : Char → Bool} {c : Char} {r : List Char} :
    Stops p (c :: r) ↔ p c = false := by simp [Stops]

/-- What is left behind a longest run does not go on with the run's class. -/
theorem stops_dropWhile (p : Char → Bool) (r : List Char) : Stops p (r.dropWhile p) := by
  intro c hc
  have h := List.head?_dropWhile_not p r
  rw [hc] at h
  exact h

theorem takeWhile_append_of_stops {p : Char → Bool} {t r : List Char} (ht : ∀ c ∈ t, p c = true)
    (hr : Stops p r) : (t ++ r).takeWhile p = t := by
  rw [List.takeWhile_append_of_pos ht]
  cases r with
  | nil => simp
  | cons c r => simp [stops_cons.mp hr]

/-! ### Pieces with a token -/

/-- A kind is the one that the table of reserved words has for a text: its keyword, or an
identifier where no keyword is spelt so. -/
def Spells (k : Kind) (text : List Char) : Prop :=
  (∃ w : Keyword, w.spelling.toList = text ∧ k = .keyword w) ∨
    (∀ w : Keyword, w.spelling.toList ≠ text) ∧ k = .identifier

/-- A character that starts nothing, in front of a text. -/
structure Stray (c : Char) (r : List Char) : Prop extends Plain c where
  no_symbol : Kind.ofSymbol? c = none
  lone_ampersand : c = '&' → r.head? ≠ some '&'
  lone_slash : c = '/' → r.head? ≠ some '/' ∧ r.head? ≠ some '*'

/-- The forms of a piece with a token. -/
inductive Form where
  | integer
  | word
  | conjunction
  | symbol
  | stray
  deriving DecidableEq, Repr

/-- A piece has a form, in front of a text. -/
def Form.Fits (l : Lexeme) (r : List Char) : Form → Prop
  | .integer =>
    l.kind = .integer ∧ l.text ≠ [] ∧ (∀ c ∈ l.text, isDecimal c = true) ∧ Stops isDecimal r
  | .word =>
    (∃ c t, l.text = c :: t ∧ isWordStart c = true ∧ ∀ d ∈ t, isWordPart d = true) ∧
      Stops isWordPart r ∧ Spells l.kind l.text
  | .conjunction => l.kind = .operator .and ∧ l.text = ['&', '&']
  | .symbol => ∃ c, l.text = [c] ∧ Kind.ofSymbol? c = some l.kind
  | .stray => ∃ c, l.text = [c] ∧ l.kind = .invalid ∧ Stray c r

/-! ### Trivia -/

/-- The end of a block comment. -/
def closer : List Char := ['*', '/']

/-- A piece of trivia is well formed, in front of a text. -/
def Trivia.Fits (r : List Char) : Trivia → Prop
  | .spaces t => t ≠ [] ∧ (∀ c ∈ t, isSpace c = true) ∧ Stops isSpace r
  | .lineComment t => ∃ x, t = '/' :: '/' :: x ∧ '\n' ∉ x ∧ Stops (· ≠ '\n') r
  | .blockComment t => ∃ x, t = '/' :: '*' :: (x ++ closer) ∧ ¬ closer <:+: x
  | .openComment t => ∃ x, t = '/' :: '*' :: x ∧ ¬ closer <:+: x ∧ r = []

/-- An item is well formed, in front of a text. -/
def Item.Fits (r : List Char) : Item → Prop
  | .trivia t => t.Fits r
  | .lexeme l => ∃ f : Form, f ≠ .stray ∧ f.Fits l r
  | .invalid c => Form.stray.Fits ⟨.invalid, [c]⟩ r

/-! ### The characters of a piece -/

theorem Form.text_ne_nil {f : Form} {l : Lexeme} {r : List Char} (h : f.Fits l r) :
    l.text ≠ [] := by
  intro hn
  match f, h with
  | .integer, ⟨_, hne, _⟩ => exact hne hn
  | .word, ⟨⟨c, t, ht, _⟩, _⟩ => simp [hn] at ht
  | .conjunction, ⟨_, ht⟩ => simp [hn] at ht
  | .symbol, ⟨c, ht, _⟩ => simp [hn] at ht
  | .stray, ⟨c, ht, _⟩ => simp [hn] at ht

/-- The characters that stand in a piece. -/
theorem Form.mem_text {f : Form} {l : Lexeme} {r : List Char} (h : f.Fits l r) {c : Char}
    (hc : c ∈ l.text) :
    isWordPart c = true ∨ c = '&' ∨ (∃ k, Kind.ofSymbol? c = some k) ∨
      l.text = [c] ∧ Stray c r := by
  match f, h with
  | .integer, ⟨_, _, hd, _⟩ => exact .inl (by simp [isWordPart, hd c hc])
  | .word, ⟨⟨d, t, ht, hd, htail⟩, _⟩ =>
    rw [ht] at hc
    rcases List.mem_cons.mp hc with rfl | hc
    · exact .inl (isWordPart_of_isWordStart hd)
    · exact .inl (htail c hc)
  | .conjunction, ⟨_, ht⟩ => exact .inr (.inl (by simpa [ht] using hc))
  | .symbol, ⟨d, ht, hd⟩ =>
    obtain rfl : c = d := by simpa [ht] using hc
    exact .inr (.inr (.inl ⟨l.kind, hd⟩))
  | .stray, ⟨d, ht, _, hd⟩ =>
    obtain rfl : c = d := by simpa [ht] using hc
    exact .inr (.inr (.inr ⟨ht, hd⟩))

theorem Form.not_isSpace_of_mem {f : Form} {l : Lexeme} {r : List Char} (h : f.Fits l r) {c : Char}
    (hc : c ∈ l.text) : isSpace c = false := by
  rcases f.mem_text h hc with hw | rfl | ⟨k, hk⟩ | ⟨-, hs⟩
  · rw [Bool.eq_false_iff]
    intro hs
    rw [not_isWordPart_of_isSpace hs] at hw
    exact Bool.false_ne_true hw
  · exact Plain.ampersand.not_space
  · exact (Plain.of_ofSymbol? hk).not_space
  · exact hs.not_space

/-- A slash in a piece is all of the piece, and no comment begins there. -/
theorem Form.slash_of_mem {f : Form} {l : Lexeme} {r : List Char} (h : f.Fits l r)
    (hm : '/' ∈ l.text) : l.text = ['/'] ∧ r.head? ≠ some '/' ∧ r.head? ≠ some '*' := by
  rcases f.mem_text h hm with hw | ha | ⟨k, hk⟩ | ⟨ht, hs⟩
  · rw [Plain.slash.not_wordPart] at hw
    exact absurd hw Bool.false_ne_true
  · exact absurd ha (by decide)
  · exact absurd hk (by simp [Kind.ofSymbol?])
  · exact ⟨ht, hs.lone_slash rfl⟩

/-! ### The form of a piece -/

/-- The form that a piece of a kind has. -/
def Form.ofKind : Kind → Form
  | .integer => .integer
  | .keyword _ | .identifier => .word
  | .operator .and => .conjunction
  | .operator _ | .delimiter _ => .symbol
  | .endOfInput | .invalid => .stray

theorem Form.ofKind_of_ofSymbol? {c : Char} {k : Kind} (h : Kind.ofSymbol? c = some k) :
    ofKind k = .symbol := by
  unfold Kind.ofSymbol? at h
  split at h <;> cases h <;> rfl

theorem Form.ofKind_eq_of_fits {f : Form} {l : Lexeme} {r : List Char} (h : f.Fits l r) :
    ofKind l.kind = f := by
  cases f with
  | integer => rw [h.1]; rfl
  | word =>
    rcases h.2.2 with ⟨w, -, hw⟩ | ⟨-, hw⟩
    · rw [hw]; rfl
    · rw [hw]; rfl
  | conjunction => rw [h.1]; rfl
  | symbol =>
    obtain ⟨c, -, hc⟩ := h
    exact ofKind_of_ofSymbol? hc
  | stray =>
    obtain ⟨c, -, hk, -⟩ := h
    rw [hk]; rfl

/-- No piece has two forms. -/
theorem Form.unique {f g : Form} {l : Lexeme} {r : List Char} (hf : f.Fits l r)
    (hg : g.Fits l r) : f = g :=
  (ofKind_eq_of_fits hf).symm.trans (ofKind_eq_of_fits hg)

/-- A piece of another form than a stray character is of a valid kind. -/
theorem Form.kind_ne_invalid {f : Form} {l : Lexeme} {r : List Char} (h : f.Fits l r)
    (hf : f ≠ .stray) : l.kind ≠ .invalid := by
  intro hk
  apply hf
  rw [← ofKind_eq_of_fits h, hk]
  rfl

/-- No piece is of the kind of the end token. -/
theorem Form.kind_ne_endOfInput {f : Form} {l : Lexeme} {r : List Char} (h : f.Fits l r) :
    l.kind ≠ .endOfInput := by
  intro hk
  obtain rfl : f = .stray := by
    rw [← ofKind_eq_of_fits h, hk]
    rfl
  obtain ⟨c, -, hi, -⟩ := h
  rw [hi] at hk
  cases hk

/-! ### What follows a piece -/

/-- A form asks for nothing but the next character. -/
theorem Form.Fits.congr {f : Form} {l : Lexeme} {r s : List Char} (h : f.Fits l r)
    (hs : s.head? = r.head?) : f.Fits l s := by
  -- longest match looks at the next character only, and so does the lookahead of a stray one
  have hstops {p : Char → Bool} (hr : Stops p r) : Stops p s := by rwa [Stops, hs]
  match f, h with
  | .integer, ⟨hk, hne, hd, hr⟩ => exact ⟨hk, hne, hd, hstops hr⟩
  | .word, ⟨ht, hr, hk⟩ => exact ⟨ht, hstops hr, hk⟩
  | .conjunction, h => exact h
  | .symbol, h => exact h
  | .stray, ⟨c, ht, hk, hc⟩ =>
    refine ⟨c, ht, hk, hc.toPlain, hc.no_symbol, ?_, ?_⟩
    · rw [hs]
      exact hc.lone_ampersand
    · rw [hs]
      exact hc.lone_slash

/-- A piece of trivia asks for nothing but the next character, too. -/
theorem Trivia.Fits.congr {t : Trivia} {r s : List Char} (h : t.Fits r)
    (hs : s.head? = r.head?) : t.Fits s := by
  have hstops {p : Char → Bool} (hr : Stops p r) : Stops p s := by rwa [Stops, hs]
  match t, h with
  | .spaces w, ⟨hne, hw, hr⟩ => exact ⟨hne, hw, hstops hr⟩
  | .lineComment w, ⟨x, hw, hx, hr⟩ => exact ⟨x, hw, hx, hstops hr⟩
  | .blockComment w, h => exact h
  | .openComment w, ⟨x, hw, hx, hr⟩ =>
    rw [hr, List.head?_nil, List.head?_eq_none_iff] at hs
    exact ⟨x, hw, hx, hs⟩

/-- **One character of lookahead**: whether an item is well formed depends, beside the item itself,
on the character behind it, or on there being none. -/
theorem Item.Fits.congr {i : Item} {r s : List Char} (h : i.Fits r) (hs : s.head? = r.head?) :
    i.Fits s := by
  match i, h with
  | .trivia t, h => exact Trivia.Fits.congr h hs
  | .lexeme l, ⟨f, hf, h⟩ => exact ⟨f, hf, h.congr hs⟩
  | .invalid c, h => exact Form.Fits.congr (f := .stray) h hs

/-- White space may follow every piece. -/
theorem Form.Fits.before_space {f : Form} {l : Lexeme} {r s : List Char} {c : Char}
    (h : f.Fits l r) (hc : isSpace c = true) : f.Fits l (c :: s) := by
  have hne {d : Char} (hd : isSpace d = false) : (c :: s).head? ≠ some d := by
    rw [List.head?_cons, ne_eq, Option.some_inj]
    rintro rfl
    rw [hc] at hd
    cases hd
  match f, h with
  | .integer, ⟨hk, ht, hd, _⟩ => exact ⟨hk, ht, hd, stops_cons.mpr (not_isDecimal_of_isSpace hc)⟩
  | .word, ⟨ht, _, hk⟩ => exact ⟨ht, stops_cons.mpr (not_isWordPart_of_isSpace hc), hk⟩
  | .conjunction, h => exact h
  | .symbol, h => exact h
  | .stray, ⟨d, ht, hk, hd⟩ =>
    exact ⟨d, ht, hk, hd.toPlain, hd.no_symbol, fun _ => hne (by decide),
      fun _ => ⟨hne (by decide), hne (by decide)⟩⟩

/-- A piece keeps its form when the next character stays or becomes a space. -/
theorem Form.Fits.before_spaced {f : Form} {l : Lexeme} {r s : List Char} (h : f.Fits l r)
    (hs : s.head? = r.head? ∨ s.head? = some ' ') : f.Fits l s := by
  rcases hs with hs | hs
  · exact h.congr hs
  · obtain ⟨t, rfl⟩ := List.head?_eq_some_iff.mp hs
    exact h.before_space (by decide)

/-- The end of the text may follow every piece, too. -/
theorem Form.Fits.at_end {f : Form} {l : Lexeme} {r : List Char} (h : f.Fits l r) :
    f.Fits l [] := by
  match f, h with
  | .integer, ⟨hk, ht, hd, _⟩ => exact ⟨hk, ht, hd, stops_nil _⟩
  | .word, ⟨ht, _, hk⟩ => exact ⟨ht, stops_nil _, hk⟩
  | .conjunction, h => exact h
  | .symbol, h => exact h
  | .stray, ⟨c, ht, hk, hc⟩ =>
    exact ⟨c, ht, hk, hc.toPlain, hc.no_symbol, fun _ => by simp, fun _ => by simp⟩

end Lexis
