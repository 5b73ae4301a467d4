/-
Pieces side by side.

Two pieces with nothing between them stay two, unless they fuse (`Lexeme.Fuses`): a word takes in
the word or number behind it, a number the number behind it, a lone ampersand becomes a conjunction,
and a slash begins a comment.  Fusing is a matter of the two pieces alone, and it is what decides
whether the first keeps its form in front of the second (`exists_fits_append_iff`).

Which pieces fuse is read off their first characters (`Form.exists_head`).
-/
import Lexis.Proofs.Item.Split

namespace Lexis

open Text

/-- Is it the kind of an identifier or of a reserved word? -/
def Kind.isWord : Kind → Bool
  | .keyword _ | .identifier => true
  | _ => false

/-- The second piece is no piece of its own when it directly follows the first. -/
def Lexeme.Fuses (a b : Lexeme) : Prop :=
  (a.kind.isWord = true ∧ (b.kind.isWord = true ∨ b.kind = .integer)) ∨
    (a.kind = .integer ∧ b.kind = .integer) ∨
    (a.text = ['&'] ∧ (b.text = ['&'] ∨ b.text = ['&', '&'])) ∨
    (a.text = ['/'] ∧ (b.text = ['/'] ∨ b.text = ['*']))

instance (a b : Lexeme) : Decidable (a.Fuses b) :=
  inferInstanceAs (Decidable (_ ∨ _ ∨ _ ∨ _))

/-- A piece has a form in front of some text. -/
def Lexeme.IsPiece (l : Lexeme) : Prop :=
  ∃ (f : Form) (r : List Char), f.Fits l r

variable {f g : Form} {l m : Lexeme} {r s : List Char}

/-! ### The first character of a piece -/

theorem Form.isWord_of_word (h : Form.word.Fits l r) : l.kind.isWord = true := by
  obtain ⟨-, -, ⟨w, -, hk⟩ | ⟨-, hk⟩⟩ := h
  · rw [hk]; rfl
  · rw [hk]; rfl

theorem Kind.not_word_of_ofSymbol? {c : Char} {k : Kind} (h : Kind.ofSymbol? c = some k) :
    k.isWord = false ∧ k ≠ .integer := by
  unfold Kind.ofSymbol? at h
  split at h <;> cases h <;> exact ⟨rfl, by decide⟩

/-- A piece begins with a digit, with the start of a word, or with a plain character.  In the last
case that is all of it, but for a conjunction. -/
theorem Form.exists_head (h : f.Fits l r) :
    ∃ c t, l.text = c :: t ∧
      ((isDecimal c = true ∧ l.kind = .integer) ∨
        (isWordStart c = true ∧ l.kind.isWord = true ∧ l.kind ≠ .integer) ∨
        (Plain c ∧ l.kind.isWord = false ∧ l.kind ≠ .integer ∧
          (t = [] ∨ l.text = ['&', '&']))) := by
  match f, h with
  | .integer, ⟨hk, hne, hd, _⟩ =>
    obtain ⟨c, t, ht⟩ := List.exists_cons_of_ne_nil hne
    exact ⟨c, t, ht, .inl ⟨hd c (by simp [ht]), hk⟩⟩
  | .word, h =>
    have hk := Form.isWord_of_word h
    obtain ⟨⟨c, t, ht, hc, -⟩, -⟩ := h
    refine ⟨c, t, ht, .inr (.inl ⟨hc, hk, ?_⟩)⟩
    intro hi
    rw [hi] at hk
    cases hk
  | .conjunction, ⟨hk, ht⟩ =>
    refine ⟨'&', ['&'], ht, .inr (.inr ⟨Plain.ampersand, ?_, ?_, .inr ht⟩)⟩
    · rw [hk]; rfl
    · rw [hk]; decide
  | .symbol, ⟨c, ht, hc⟩ =>
    obtain ⟨hw, hi⟩ := Kind.not_word_of_ofSymbol? hc
    exact ⟨c, [], ht, .inr (.inr ⟨Plain.of_ofSymbol? hc, hw, hi, .inl rfl⟩)⟩
  | .stray, ⟨c, ht, hk, hc⟩ =>
    refine ⟨c, [], ht, .inr (.inr ⟨hc.toPlain, ?_, ?_, .inl rfl⟩)⟩
    · rw [hk]; rfl
    · rw [hk]; decide

/-- A run of digits goes on into numbers only. -/
theorem Form.stops_isDecimal_append (h : f.Fits m s) (r : List Char) :
    Stops isDecimal (m.text ++ r) ↔ m.kind ≠ .integer := by
  obtain ⟨c, t, ht, ⟨hc, hk⟩ | ⟨hc, -, hk⟩ | ⟨hc, -, hk, -⟩⟩ := f.exists_head h
  · simp [ht, hc, hk]
  · simp [ht, not_isDecimal_of_isWordStart hc, hk]
  · simp [ht, hc.not_decimal, hk]

/-- A run of word characters goes on into words and numbers only. -/
theorem Form.stops_isWordPart_append (h : f.Fits m s) (r : List Char) :
    Stops isWordPart (m.text ++ r) ↔ ¬ (m.kind.isWord = true ∨ m.kind = .integer) := by
  obtain ⟨c, t, ht, ⟨hc, hk⟩ | ⟨hc, hk, -⟩ | ⟨hc, hw, hk, -⟩⟩ := f.exists_head h
  · simp [ht, isWordPart, hc, hk]
  · simp [ht, isWordPart_of_isWordStart hc, hk]
  · simp [ht, hc.not_wordPart, hw, hk]

/-- A plain character that a piece begins with is all of the piece, but for a conjunction. -/
theorem Form.head?_append_eq_some_iff (h : f.Fits m s) (r : List Char) {c : Char} (hc : Plain c) :
    (m.text ++ r).head? = some c ↔ m.text = [c] ∨ m.text = ['&', '&'] ∧ c = '&' := by
  obtain ⟨d, t, ht, hd⟩ := f.exists_head h
  have hhead : (m.text ++ r).head? = some d := by rw [ht]; rfl
  rw [hhead, Option.some_inj]
  constructor
  · rintro rfl
    rcases hd with ⟨hd, -⟩ | ⟨hd, -⟩ | ⟨-, -, -, rfl | ha⟩
    · rw [hc.not_decimal] at hd
      cases hd
    · rw [hc.not_wordStart] at hd
      cases hd
    · exact .inl ht
    · rw [ha, List.cons_eq_cons] at ht
      exact .inr ⟨ha, ht.1.symm⟩
  · rintro (hm | ⟨hm, rfl⟩)
    · rw [hm, List.cons_eq_cons] at ht
      exact ht.1.symm
    · rw [hm, List.cons_eq_cons] at ht
      exact ht.1.symm

/-! ### What a piece fuses with -/

/-- A piece with a form has that form and no other, wherever it stands. -/
theorem exists_fits_iff (h : f.Fits l r) : (∃ g : Form, g.Fits l s) ↔ f.Fits l s := by
  constructor
  · rintro ⟨g, hg⟩
    obtain rfl : g = f := (Form.ofKind_eq_of_fits hg).symm.trans (Form.ofKind_eq_of_fits h)
    exact hg
  · intro hf
    exact ⟨f, hf⟩

/-- No word or number is spelt with a plain character. -/
theorem Form.text_ne_of_plain (h : f.Fits l r) (hk : l.kind.isWord = true ∨ l.kind = .integer)
    {c : Char} (hc : Plain c) : l.text ≠ [c] := by
  intro ht
  have hstops : Stops isWordPart (l.text ++ []) := by simp [ht, hc.not_wordPart]
  exact (f.stops_isWordPart_append h []).mp hstops hk

theorem Lexeme.fuses_of_integer (h : Form.integer.Fits l r) : l.Fuses m ↔ m.kind = .integer := by
  have ha := Form.text_ne_of_plain h (.inr h.1) Plain.ampersand
  have hs := Form.text_ne_of_plain h (.inr h.1) Plain.slash
  simp [Fuses, h.1, Kind.isWord, ha, hs]

theorem Lexeme.fuses_of_word (h : Form.word.Fits l r) :
    l.Fuses m ↔ m.kind.isWord = true ∨ m.kind = .integer := by
  have hw := Form.isWord_of_word h
  have hi : l.kind ≠ .integer := by
    intro hi
    rw [hi] at hw
    cases hw
  have ha := Form.text_ne_of_plain h (.inl hw) Plain.ampersand
  have hs := Form.text_ne_of_plain h (.inl hw) Plain.slash
  simp [Fuses, hw, hi, ha, hs]

theorem Lexeme.not_fuses_of_conjunction (h : Form.conjunction.Fits l r) : ¬ l.Fuses m := by
  obtain ⟨hk, ht⟩ := h
  simp [Fuses, hk, ht, Kind.isWord]

theorem Lexeme.not_fuses_of_symbol (h : Form.symbol.Fits l r) : ¬ l.Fuses m := by
  obtain ⟨c, ht, hc⟩ := h
  obtain ⟨hw, hi⟩ := Kind.not_word_of_ofSymbol? hc
  have ha : c ≠ '&' := by
    rintro rfl
    cases hc
  have hs : c ≠ '/' := by
    rintro rfl
    cases hc
  simp [Fuses, hw, hi, ht, ha, hs]

/-- A stray character fuses with what ends its being stray. -/
theorem Lexeme.fuses_of_stray {c : Char} (hk : l.kind = .invalid) (ht : l.text = [c])
    (hm : g.Fits m s) (q : List Char) :
    l.Fuses m ↔ (c = '&' ∧ (m.text ++ q).head? = some '&') ∨
      (c = '/' ∧ ((m.text ++ q).head? = some '/' ∨ (m.text ++ q).head? = some '*')) := by
  have hstar : Plain '*' := Plain.of_ofSymbol? (k := .operator .times) rfl
  rw [Form.head?_append_eq_some_iff hm q Plain.ampersand,
    Form.head?_append_eq_some_iff hm q Plain.slash, Form.head?_append_eq_some_iff hm q hstar]
  simp [Fuses, hk, ht, Kind.isWord]

/-- A piece keeps its form in front of another one if and only if the two do not fuse. -/
theorem exists_fits_append_iff (hl : l.IsPiece) (hm : m.IsPiece) (q : List Char) :
    (∃ e : Form, e.Fits l (m.text ++ q)) ↔ ¬ l.Fuses m := by
  obtain ⟨f, r, hl⟩ := hl
  obtain ⟨g, s, hm⟩ := hm
  rw [exists_fits_iff hl]
  -- each form asks one thing of the next character, and a fusing piece begins with the contrary
  match f, hl with
  | .integer, h =>
    rw [Lexeme.fuses_of_integer h, ← ne_eq, ← g.stops_isDecimal_append hm q]
    exact ⟨fun hq => hq.2.2.2, fun hq => ⟨h.1, h.2.1, h.2.2.1, hq⟩⟩
  | .word, h =>
    rw [Lexeme.fuses_of_word h, ← g.stops_isWordPart_append hm q]
    exact ⟨fun hq => hq.2.1, fun hq => ⟨h.1, hq, h.2.2⟩⟩
  | .conjunction, h => exact ⟨fun _ => Lexeme.not_fuses_of_conjunction h, fun _ => h⟩
  | .symbol, h => exact ⟨fun _ => Lexeme.not_fuses_of_symbol h, fun _ => h⟩
  | .stray, ⟨c, ht, hk, hc⟩ =>
    rw [Lexeme.fuses_of_stray hk ht hm q]
    constructor
    · rintro ⟨d, hd, -, hstray⟩
      obtain rfl : d = c := by simpa [ht] using hd.symm
      rintro (⟨hd, hq⟩ | ⟨hd, hq⟩)
      · exact hstray.lone_ampersand hd hq
      · rcases hq with hq | hq
        · exact (hstray.lone_slash hd).1 hq
        · exact (hstray.lone_slash hd).2 hq
    · intro hq
      refine ⟨c, ht, hk, hc.toPlain, hc.no_symbol, ?_, ?_⟩
      · intro hd hhead
        exact hq (.inl ⟨hd, hhead⟩)
      · intro hd
        exact ⟨fun hhead => hq (.inr ⟨hd, .inl hhead⟩), fun hhead => hq (.inr ⟨hd, .inr hhead⟩)⟩

end Lexis
