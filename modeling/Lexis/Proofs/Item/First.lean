/-
What the scanner finds first.

The scanner looks at a text and finds its first item.  An item is found if and only if it fits in
front of the rest of the text: `Item.first?_of_fits` and `Item.exists_fits_of_first?`.  On the way
the same is shown for trivia and for lexemes, where the one search that goes ahead is that for the
end of a block comment (`closerEnd?_eq_some_iff`).
-/
import Lexis.Proofs.Item.Form
import Lexis.Proofs.Text.Lines

namespace Lexis

open Text

/-! ### Reserved words -/

theorem Keyword.lookup?_spelling (w : Keyword) : Keyword.lookup? w.spelling = some w := by
  cases w <;> decide

theorem Keyword.spelling_of_lookup? {w : Keyword} {s : String}
    (h : Keyword.lookup? s = some w) : w.spelling = s := by
  simpa using List.find?_some h

/-- The kind of a word is what the table of reserved words says. -/
theorem ofWord_eq_iff {text : List Char} {k : Kind} :
    Kind.ofWord (String.ofList text) = k ↔ Spells k text := by
  unfold Kind.ofWord Spells
  cases h : Keyword.lookup? (String.ofList text) with
  | some w =>
    have hw : w.spelling.toList = text := by
      rw [Keyword.spelling_of_lookup? h, String.toList_ofList]
    constructor
    · rintro rfl
      exact .inl ⟨w, hw, rfl⟩
    · rintro (⟨v, hv, rfl⟩ | ⟨hv, -⟩)
      · -- no two reserved words are spelt alike
        rw [← hv, String.ofList_toList, Keyword.lookup?_spelling] at h
        cases h
        rfl
      · exact absurd hw (hv w)
  | none =>
    have hn : ∀ w : Keyword, w.spelling.toList ≠ text := by
      rintro w rfl
      rw [String.ofList_toList, Keyword.lookup?_spelling] at h
      cases h
    constructor
    · rintro rfl
      exact .inr ⟨hn, rfl⟩
    · rintro (⟨v, hv, -⟩ | ⟨-, rfl⟩)
      · exact absurd hv (hn v)
      · rfl

/-! ### The end of a block comment -/

theorem infix_closer_cons {c : Char} {r : List Char} (h : ∀ t, c = '*' → r ≠ '/' :: t) :
    closer <:+: c :: r ↔ closer <:+: r := by
  rw [List.infix_cons_iff]
  constructor
  · rintro (⟨t, ht⟩ | h')
    · cases ht
      exact absurd rfl (h t rfl)
    · exact h'
  · exact .inr

/-- A star in front of the end of a block comment is no part of an end: the slash would be in the
comment, or right behind it. -/
theorem head?_ne_slash {c : Char} {x s : List Char} (hx : ¬ closer <:+: c :: x)
    (hs : s.head? ≠ some '/') (hc : c = '*') : (x ++ s).head? ≠ some '/' := by
  obtain rfl := hc
  match x with
  | [] => exact hs
  | d :: x =>
    intro hd
    obtain rfl : d = '/' := by simpa using hd
    exact hx ⟨[], x, rfl⟩

/-- The search for the end of a block comment finds the first one. -/
theorem closerEnd?_eq_some_iff {n m : Nat} {r : List Char} :
    Trivia.closerEnd? n r = some m ↔
      ∃ x rest, r = x ++ closer ++ rest ∧ ¬ closer <:+: x ∧ m = n + x.length + 2 := by
  fun_induction Trivia.closerEnd? n r with
  | case1 n => simp [closer]
  | case2 n r =>
    constructor
    · rintro ⟨⟩
      exact ⟨[], r, rfl, by simp [closer], rfl⟩
    · -- a longer text in front would hold the end that is found at once
      rintro ⟨x, rest, hr, hx, rfl⟩
      rcases x with _ | ⟨a, _ | ⟨b, x⟩⟩
      · rfl
      · simp [closer] at hr
      · obtain ⟨rfl, rfl, -⟩ : '*' = a ∧ '/' = b ∧ _ := by simpa using hr
        exact absurd ⟨[], x, rfl⟩ hx
  | case3 n c r hc ih =>
    -- no end begins with `c`, so it goes to the text in front of the end
    have hc' : ∀ t, c = '*' → r ≠ '/' :: t := fun t h₁ h₂ => hc t h₁ h₂
    rw [ih]
    constructor
    · rintro ⟨x, rest, rfl, hx, rfl⟩
      refine ⟨c :: x, rest, rfl, ?_, by simp; omega⟩
      rw [infix_closer_cons]
      · exact hx
      · rintro t rfl rfl
        exact hc' (t ++ closer ++ rest) rfl rfl
    · rintro ⟨x, rest, hr, hx, rfl⟩
      cases x with
      | nil =>
        obtain ⟨rfl, rfl⟩ : c = '*' ∧ r = '/' :: rest := by simpa [closer] using hr
        exact absurd rfl (hc' rest rfl)
      | cons a x =>
        obtain ⟨rfl, rfl⟩ : c = a ∧ r = x ++ (closer ++ rest) := by simpa using hr
        refine ⟨x, rest, by simp, fun h => hx (List.infix_cons h), by simp; omega⟩

theorem closerEnd?_eq_none_iff {n : Nat} {r : List Char} :
    Trivia.closerEnd? n r = none ↔ ¬ closer <:+: r := by
  fun_induction Trivia.closerEnd? n r with
  | case1 n => simp [closer]
  | case2 n r => simpa using ⟨[], r, rfl⟩
  | case3 n c r hc ih =>
    rw [ih, infix_closer_cons fun t h₁ h₂ => hc t h₁ h₂]

/-! ### The first piece of trivia -/

theorem takeWhile_ne_newline {x r : List Char} (hx : '\n' ∉ x) (hr : Stops (· ≠ '\n') r) :
    (x ++ r).takeWhile (· ≠ '\n') = x :=
  takeWhile_append_of_stops (forall_ne_newline hx) hr

theorem Trivia.spaces?_eq_none_iff {r : List Char} : spaces? r = none ↔ Stops isSpace r := by
  unfold spaces?
  cases r with
  | nil => simp
  | cons c r => cases hc : isSpace c <;> simp [hc]

/-- White space is found where it stands, as far as it goes. -/
theorem Trivia.spaces?_of_fits {t r : List Char} (h : (Trivia.spaces t).Fits r) :
    spaces? (t ++ r) = some (.spaces t) := by
  obtain ⟨hne, ht, hr⟩ := h
  rw [spaces?, takeWhile_append_of_stops ht hr]
  cases t with
  | nil => exact absurd rfl hne
  | cons c t => rfl

/-- A comment is found where it stands. -/
theorem Trivia.comment?_of_fits {t : Trivia} {r : List Char} (h : t.Fits r)
    (ht : ∀ w, t ≠ .spaces w) : comment? (t.text ++ r) = some t := by
  cases t with
  | spaces w => exact absurd rfl (ht w)
  | lineComment w =>
    obtain ⟨x, rfl, hx, hr⟩ := h
    simp only [Trivia.text, List.cons_append, comment?, takeWhile_ne_newline hx hr]
  | blockComment w =>
    obtain ⟨x, rfl, hx⟩ := h
    have hend : closerEnd? 0 (x ++ closer ++ r) = some (x.length + 2) :=
      closerEnd?_eq_some_iff.mpr ⟨x, r, rfl, hx, by omega⟩
    have htake : (x ++ closer ++ r).take (x.length + 2) = x ++ closer :=
      List.take_left' (by simp [closer])
    simp only [Trivia.text, List.cons_append, comment?, hend, htake]
  | openComment w =>
    obtain ⟨x, rfl, hx, rfl⟩ := h
    simp only [Trivia.text, List.append_nil, comment?, closerEnd?_eq_none_iff.mpr hx]

/-- White space that is found fits where it stands. -/
theorem Trivia.exists_fits_of_spaces? {t : Trivia} {r : List Char} (h : spaces? r = some t) :
    ∃ rest, r = t.text ++ rest ∧ t.Fits rest := by
  unfold spaces? at h
  split at h
  · cases h
  · rename_i c s hs
    obtain rfl := Option.some.inj h
    refine ⟨r.dropWhile isSpace, ?_, by simp, ?_, stops_dropWhile isSpace r⟩
    · rw [Trivia.text, ← hs, List.takeWhile_append_dropWhile]
    · intro d hd
      rw [← hs] at hd
      exact List.all_eq_true.mp List.all_takeWhile d hd

/-- A block comment that is found fits where it stands, closed or not. -/
theorem Trivia.exists_fits_of_block {t : Trivia} {r : List Char}
    (h : comment? ('/' :: '*' :: r) = some t) :
    ∃ rest, '/' :: '*' :: r = t.text ++ rest ∧ t.Fits rest := by
  simp only [comment?] at h
  split at h
  · rename_i n hn
    obtain rfl := Option.some.inj h
    obtain ⟨x, rest, rfl, hx, rfl⟩ := closerEnd?_eq_some_iff.mp hn
    have htake : (x ++ closer ++ rest).take (0 + x.length + 2) = x ++ closer :=
      List.take_left' (by simp [closer])
    rw [htake]
    exact ⟨rest, by simp [Trivia.text], x, rfl, hx⟩
  · rename_i hn
    obtain rfl := Option.some.inj h
    exact ⟨[], by simp [Trivia.text], r, rfl, closerEnd?_eq_none_iff.mp hn, rfl⟩

/-- A line comment that is found fits where it stands. -/
theorem Trivia.exists_fits_of_line {t : Trivia} {r : List Char}
    (h : comment? ('/' :: '/' :: r) = some t) :
    ∃ rest, '/' :: '/' :: r = t.text ++ rest ∧ t.Fits rest := by
  obtain rfl := Option.some.inj h
  refine ⟨r.dropWhile (· ≠ '\n'), by simp [Trivia.text], _, rfl, ?_, stops_dropWhile _ r⟩
  intro hn
  simpa using List.all_eq_true.mp List.all_takeWhile _ hn

/-- What is found as a comment fits there. -/
theorem Trivia.exists_fits_of_comment? {t : Trivia} {r : List Char} (h : comment? r = some t) :
    ∃ rest, r = t.text ++ rest ∧ t.Fits rest := by
  have hc := h
  unfold comment? at h
  split at h
  · exact exists_fits_of_line hc
  · exact exists_fits_of_block hc
  · cases h

/-- White space is not found as a comment. -/
theorem Trivia.ne_spaces_of_comment? {t : Trivia} {r : List Char} (h : comment? r = some t)
    (w : List Char) : t ≠ .spaces w := by
  rintro rfl
  unfold comment? at h
  split at h
  · cases h
  · split at h <;> cases h
  · cases h

/-- No comment is found where neither of the two openers stands. -/
theorem Trivia.comment?_eq_none_iff {r : List Char} :
    comment? r = none ↔ r.take 2 ≠ ['/', '/'] ∧ r.take 2 ≠ ['/', '*'] := by
  unfold comment?
  split
  · simp
  · split <;> simp
  · rename_i hline hblock
    have htwo : ∀ c, r.take 2 = ['/', c] → r = '/' :: c :: r.drop 2 := by
      intro c h
      conv_lhs => rw [← List.take_append_drop 2 r, h]
      rfl
    exact iff_of_true rfl ⟨fun h => hline _ (htwo '/' h), fun h => hblock _ (htwo '*' h)⟩

/-- What is found as the first piece of trivia fits there. -/
theorem Trivia.exists_fits_of_first? {t : Trivia} {r : List Char} (h : first? r = some t) :
    ∃ rest, r = t.text ++ rest ∧ t.Fits rest := by
  unfold first? at h
  split at h
  · rename_i u hu
    obtain rfl := Option.some.inj h
    exact exists_fits_of_spaces? hu
  · exact exists_fits_of_comment? h

/-- No trivia starts with a character that is neither white space nor the slash of a comment. -/
theorem Trivia.first?_eq_none {c : Char} {r : List Char} (hc : isSpace c = false)
    (hr : c = '/' → r.head? ≠ some '/' ∧ r.head? ≠ some '*') : first? (c :: r) = none := by
  have hs : spaces? (c :: r) = none := by simpa [spaces?_eq_none_iff] using hc
  rw [first?, hs]
  simp only
  unfold comment?
  split
  · rename_i s hs
    cases hs
    simp at hr
  · rename_i s hs
    cases hs
    simp at hr
  · rfl

/-- A piece of trivia that fits is the first one. -/
theorem Trivia.first?_of_fits {t : Trivia} {r : List Char} (h : t.Fits r) :
    first? (t.text ++ r) = some t := by
  by_cases hs : ∃ w, t = .spaces w
  · obtain ⟨w, rfl⟩ := hs
    rw [first?, Trivia.text, spaces?_of_fits h]
  · have hc := comment?_of_fits h fun w hw => hs ⟨w, hw⟩
    have hn : spaces? (t.text ++ r) = none := by
      cases t with
      | spaces w => exact absurd ⟨w, rfl⟩ hs
      | lineComment w | blockComment w | openComment w =>
        obtain ⟨x, rfl, -⟩ := h
        exact spaces?_eq_none_iff.mpr (stops_cons.mpr (by decide))
    rw [first?, hn, hc]

/-! ### The first lexeme -/

/-- No trivia is found where a piece with a token stands. -/
theorem Form.trivia_first?_eq_none {f : Form} {l : Lexeme} {r : List Char} (h : f.Fits l r) :
    Trivia.first? (l.text ++ r) = none := by
  obtain ⟨c, t, ht⟩ := List.exists_cons_of_ne_nil (f.text_ne_nil h)
  have hc : isSpace c = false := f.not_isSpace_of_mem h (by simp [ht])
  rw [ht]
  refine Trivia.first?_eq_none hc ?_
  rintro rfl
  obtain ⟨hs, hr⟩ := f.slash_of_mem h (by simp [ht])
  rw [ht, List.cons_eq_cons] at hs
  rwa [hs.2]

/-- Away from a conjunction, the symbol is that of the first character. -/
theorem symbol?_cons {c : Char} {r : List Char} (h : c = '&' → r.head? ≠ some '&') :
    Lexeme.symbol? (c :: r) = (Kind.ofSymbol? c).map (⟨·, [c]⟩) := by
  unfold Lexeme.symbol?
  split
  · rename_i s hs
    cases hs
    simp at h
  · rename_i hs
    cases hs
    rfl
  · rename_i hs
    cases hs

/-- Which symbol is found: the one of two characters goes before those of the table. -/
theorem Lexeme.symbol?_eq_some_iff {l : Lexeme} {r : List Char} :
    symbol? r = some l ↔ l.text <+: r ∧
      (l.kind = .operator .and ∧ l.text = ['&', '&'] ∨
        ∃ c, l.text = [c] ∧ Kind.ofSymbol? c = some l.kind) := by
  constructor
  · intro h
    unfold symbol? at h
    split at h
    · rename_i s
      obtain rfl := Option.some.inj h
      exact ⟨⟨s, rfl⟩, .inl ⟨rfl, rfl⟩⟩
    · rename_i c s _
      obtain ⟨k, hk, rfl⟩ := Option.map_eq_some_iff.mp h
      exact ⟨⟨s, rfl⟩, .inr ⟨c, rfl, hk⟩⟩
    · cases h
  · obtain ⟨kind, text⟩ := l
    rintro ⟨⟨s, rfl⟩, ⟨hkind, htext⟩ | ⟨c, htext, hc⟩⟩
    · obtain ⟨rfl, rfl⟩ : kind = .operator .and ∧ text = ['&', '&'] := ⟨hkind, htext⟩
      rfl
    · obtain rfl : text = [c] := htext
      -- an ampersand alone is not in the table
      have hlone : c = '&' → s.head? ≠ some '&' := by
        rintro rfl
        cases hc
      rw [List.singleton_append, symbol?_cons hlone, hc]
      rfl

/-- No symbol is found where neither begins. -/
theorem Lexeme.symbol?_eq_none_iff {r : List Char} :
    symbol? r = none ↔
      ¬ ['&', '&'] <+: r ∧ ∀ c ∈ r.head?, Kind.ofSymbol? c = none := by
  constructor
  · intro h
    have hno : ∀ l, symbol? r ≠ some l := by simp [h]
    constructor
    · intro hpair
      exact hno ⟨.operator .and, ['&', '&']⟩ (symbol?_eq_some_iff.mpr ⟨hpair, .inl ⟨rfl, rfl⟩⟩)
    · intro c hc
      obtain ⟨s, rfl⟩ := List.head?_eq_some_iff.mp hc
      rw [Option.eq_none_iff_forall_ne_some]
      intro k hk
      exact hno ⟨k, [c]⟩ (symbol?_eq_some_iff.mpr ⟨⟨s, rfl⟩, .inr ⟨c, rfl, hk⟩⟩)
  · rintro ⟨hpair, hsingle⟩
    rw [Option.eq_none_iff_forall_ne_some]
    intro l hl
    obtain ⟨hstands, ⟨-, htext⟩ | ⟨c, htext, hc⟩⟩ := symbol?_eq_some_iff.mp hl
    · exact hpair (htext ▸ hstands)
    · obtain ⟨s, rfl⟩ := hstands
      rw [htext] at hsingle
      rw [hsingle c rfl] at hc
      cases hc

theorem Lexeme.first?_of_integer {l : Lexeme} {r : List Char} (h : Form.integer.Fits l r) :
    first? (l.text ++ r) = some l := by
  obtain ⟨kind, text⟩ := l
  obtain ⟨rfl, hne, hd, hr⟩ := h
  obtain ⟨c, t, rfl⟩ := List.exists_cons_of_ne_nil hne
  have hc : isDecimal c = true := hd c (by simp)
  have hrun := takeWhile_append_of_stops hd hr
  rw [List.cons_append] at hrun ⊢
  rw [first?, if_pos hc, integer, hrun]

theorem Lexeme.first?_of_word {l : Lexeme} {r : List Char} (h : Form.word.Fits l r) :
    first? (l.text ++ r) = some l := by
  obtain ⟨kind, text⟩ := l
  obtain ⟨⟨c, t, rfl, hc, hd⟩, hr, hk⟩ := h
  have hnot : ¬ isDecimal c = true := by
    rw [not_isDecimal_of_isWordStart hc]
    exact Bool.false_ne_true
  have hall : ∀ d ∈ c :: t, isWordPart d = true := by
    intro d hm
    rcases List.mem_cons.mp hm with rfl | hm
    · exact isWordPart_of_isWordStart hc
    · exact hd d hm
  have hrun := takeWhile_append_of_stops hall hr
  rw [List.cons_append] at hrun ⊢
  rw [first?, if_neg hnot, if_pos hc, word, hrun, ofWord_eq_iff.mpr hk]

theorem Lexeme.first?_of_symbol {l : Lexeme} {r : List Char} (h : Form.symbol.Fits l r) :
    first? (l.text ++ r) = some l := by
  obtain ⟨kind, text⟩ := l
  obtain ⟨c, rfl, hc⟩ := h
  have hp := Plain.of_ofSymbol? hc
  have hs : symbol? (c :: r) = some ⟨kind, [c]⟩ :=
    symbol?_eq_some_iff.mpr ⟨⟨r, rfl⟩, .inr ⟨c, rfl, hc⟩⟩
  simpa [first?, hp.not_decimal, hp.not_wordStart] using hs

/-- A lexeme that fits is the first one. -/
theorem Lexeme.first?_of_fits {f : Form} {l : Lexeme} {r : List Char} (h : f.Fits l r)
    (hf : f ≠ .stray) : first? (l.text ++ r) = some l := by
  cases f with
  | integer => exact first?_of_integer h
  | word => exact first?_of_word h
  | conjunction =>
    obtain ⟨kind, text⟩ := l
    obtain ⟨rfl, rfl⟩ := h
    rfl
  | symbol => exact first?_of_symbol h
  | stray => exact absurd rfl hf

/-- No lexeme starts with a stray character. -/
theorem Lexeme.first?_of_stray {c : Char} {r : List Char} (h : Stray c r) :
    first? (c :: r) = none := by
  have hs : symbol? (c :: r) = none := by
    rw [symbol?_cons h.lone_ampersand, h.no_symbol]
    rfl
  simp [first?, h.not_decimal, h.not_wordStart, hs]

theorem Lexeme.integer_fits {c : Char} {r : List Char} (hc : isDecimal c = true) :
    Form.integer.Fits (integer (c :: r)) ((c :: r).dropWhile isDecimal) := by
  refine ⟨rfl, by simp [integer, hc], ?_, stops_dropWhile _ _⟩
  intro d hd
  exact List.all_eq_true.mp List.all_takeWhile d hd

theorem Lexeme.word_fits {c : Char} {r : List Char} (hc : isWordStart c = true) :
    Form.word.Fits (word (c :: r)) ((c :: r).dropWhile isWordPart) := by
  refine ⟨⟨c, r.takeWhile isWordPart, ?_, hc, ?_⟩, stops_dropWhile _ _, ofWord_eq_iff.mp rfl⟩
  · simp [word, isWordPart_of_isWordStart hc]
  · intro d hd
    exact List.all_eq_true.mp List.all_takeWhile d hd

/-- A symbol that is found fits where it stands. -/
theorem Lexeme.exists_fits_of_symbol? {l : Lexeme} {r : List Char} (h : symbol? r = some l) :
    ∃ rest, r = l.text ++ rest ∧ ∃ f : Form, f ≠ .stray ∧ f.Fits l rest := by
  obtain ⟨⟨rest, hr⟩, hl⟩ := symbol?_eq_some_iff.mp h
  refine ⟨rest, hr.symm, ?_⟩
  rcases hl with ⟨hkind, htext⟩ | hsymbol
  · exact ⟨.conjunction, by decide, hkind, htext⟩
  · exact ⟨.symbol, by decide, hsymbol⟩

/-- What is found as the first lexeme fits there. -/
theorem Lexeme.exists_fits_of_first? {l : Lexeme} {r : List Char} (h : first? r = some l) :
    ∃ rest, r = l.text ++ rest ∧ ∃ f : Form, f ≠ .stray ∧ f.Fits l rest := by
  unfold first? at h
  split at h
  · cases h
  · rename_i c r
    by_cases hd : isDecimal c = true
    · rw [if_pos hd] at h
      obtain rfl := Option.some.inj h
      exact ⟨_, (List.takeWhile_append_dropWhile).symm, .integer, by decide, integer_fits hd⟩
    · rw [if_neg hd] at h
      by_cases hw : isWordStart c = true
      · rw [if_pos hw] at h
        obtain rfl := Option.some.inj h
        exact ⟨_, (List.takeWhile_append_dropWhile).symm, .word, by decide, word_fits hw⟩
      · rw [if_neg hw] at h
        exact exists_fits_of_symbol? h

/-- Where no trivia is found, there is no white space and no comment begins. -/
theorem Trivia.of_first?_eq_none {c : Char} {r : List Char} (h : first? (c :: r) = none) :
    isSpace c = false ∧ (c = '/' → r.head? ≠ some '/' ∧ r.head? ≠ some '*') := by
  have hs : spaces? (c :: r) = none := by
    unfold first? at h
    split at h
    · cases h
    · assumption
  rw [first?, hs] at h
  refine ⟨stops_cons.mp (spaces?_eq_none_iff.mp hs), ?_⟩
  rintro rfl
  constructor
  · intro hr
    obtain ⟨s, rfl⟩ := List.head?_eq_some_iff.mp hr
    cases h
  · -- a block comment is found even if it has no end
    intro hr
    obtain ⟨s, rfl⟩ := List.head?_eq_some_iff.mp hr
    simp only [comment?] at h
    split at h <;> cases h

/-- Where no lexeme is found, no number, word or symbol begins. -/
theorem Lexeme.of_first?_eq_none {c : Char} {r : List Char} (h : first? (c :: r) = none) :
    isDecimal c = false ∧ isWordStart c = false ∧ Kind.ofSymbol? c = none ∧
      (c = '&' → r.head? ≠ some '&') := by
  by_cases hd : isDecimal c = true
  · rw [first?, if_pos hd] at h
    cases h
  · by_cases hw : isWordStart c = true
    · rw [first?, if_neg hd, if_pos hw] at h
      cases h
    · rw [first?, if_neg hd, if_neg hw] at h
      have ha : c = '&' → r.head? ≠ some '&' := by
        rintro rfl hr
        obtain ⟨s, rfl⟩ := List.head?_eq_some_iff.mp hr
        cases h
      rw [symbol?_cons ha, Option.map_eq_none_iff] at h
      exact ⟨Bool.eq_false_iff.mpr hd, Bool.eq_false_iff.mpr hw, h, ha⟩

/-- Where neither trivia nor a lexeme is found, a stray character stands. -/
theorem stray_of_first?_eq_none {c : Char} {r : List Char} (ht : Trivia.first? (c :: r) = none)
    (hl : Lexeme.first? (c :: r) = none) : Stray c r := by
  obtain ⟨hspace, hslash⟩ := Trivia.of_first?_eq_none ht
  obtain ⟨hdecimal, hword, hsymbol, hampersand⟩ := Lexeme.of_first?_eq_none hl
  have hletter : isLetter c = false ∧ c ≠ '_' := by simpa [isWordStart] using hword
  exact ⟨⟨hspace, hletter.1, hdecimal, hletter.2⟩, hsymbol, hampersand, hslash⟩

/-! ### The first item -/

namespace Item

/-- An item that fits in front of a text is the first item there. -/
theorem first?_of_fits {i : Item} {r : List Char} (h : i.Fits r) :
    first? (i.text ++ r) = some i := by
  cases i with
  | trivia t =>
    have ht := Trivia.first?_of_fits h
    cases hr : t.text ++ r with
    | nil =>
      rw [hr] at ht
      cases ht
    | cons c s =>
      rw [hr] at ht
      simp [text, hr, first?, ht]
  | lexeme l =>
    obtain ⟨f, hf, h⟩ := h
    have hl := Lexeme.first?_of_fits h hf
    have ht := f.trivia_first?_eq_none h
    obtain ⟨c, t, hc⟩ := List.exists_cons_of_ne_nil (f.text_ne_nil h)
    rw [hc, List.cons_append] at hl ht
    simp [text, hc, first?, ht, hl]
  | invalid c =>
    have ht := Form.trivia_first?_eq_none (show Form.stray.Fits ⟨.invalid, [c]⟩ r from h)
    obtain ⟨d, hd, -, h⟩ := h
    cases hd
    simp only [List.singleton_append] at ht
    simp [text, first?, ht, Lexeme.first?_of_stray h]

theorem Fits.text_ne_nil {i : Item} {r : List Char} (h : i.Fits r) : i.text ≠ [] :=
  Item.text_ne_nil (first?_of_fits h)

/-- The first item of a text fits in front of the rest of it. -/
theorem exists_fits_of_first? {i : Item} {r : List Char} (h : first? r = some i) :
    ∃ rest, r = i.text ++ rest ∧ i.Fits rest := by
  unfold first? at h
  split at h
  · cases h
  · rename_i c r
    split at h
    · rename_i t ht
      cases h
      exact Trivia.exists_fits_of_first? ht
    · rename_i ht
      split at h
      · rename_i l hl
        cases h
        exact Lexeme.exists_fits_of_first? hl
      · rename_i hl
        cases h
        exact ⟨r, rfl, c, rfl, rfl, stray_of_first?_eq_none ht hl⟩

end Item

end Lexis
