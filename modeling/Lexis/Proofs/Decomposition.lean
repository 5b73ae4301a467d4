/-
The one decomposition of a source.

A decomposition cuts a source into gaps and pieces: a gap, a piece with a token, a gap, and so on,
up to a last gap.  It goes by maximal munch when every gap is a row of white-space characters and
comments, every piece has exactly one of the five forms in front of what follows it, and only the
last gap may run into a comment that is never closed.

Every source has exactly one such decomposition, and its pieces are the tokens of the source
(`tokenize_eq_maximalMunch`).  It is read off the list of items (`Decomposition.ofItems`): existence
is an induction along the items, uniqueness one along the decomposition.
-/
import Lexis.Proofs.Lexer.Run
import Mathlib.Logic.ExistsUnique

namespace Lexis

open Text

/-- A row of white-space characters and comments, in front of a text. -/
inductive Gap : List Char → List Char → Prop where
  | nil {r} : Gap [] r
  | space {c g r} : isSpace c = true → Gap g r → Gap (c :: g) r
  | lineComment {x g r} : '\n' ∉ x → Stops (· ≠ '\n') (g ++ r) → Gap g r →
      Gap ('/' :: '/' :: (x ++ g)) r
  | blockComment {x g r} : ¬ closer <:+: x → Gap g r → Gap ('/' :: '*' :: (x ++ closer ++ g)) r

theorem Gap.append_spaces {t g r : List Char} (ht : ∀ c ∈ t, isSpace c = true) (hg : Gap g r) :
    Gap (t ++ g) r := by
  induction t with
  | nil => exact hg
  | cons c t ih => exact .space (ht c (by simp)) (ih fun d hd => ht d (by simp [hd]))

/-- Trivia lengthens a gap, unless it is a comment left open. -/
theorem Gap.append_trivia {t : Trivia} {g r : List Char} (ht : t.Fits (g ++ r)) (hg : Gap g r)
    (ho : ∀ w, t ≠ .openComment w) : Gap (t.text ++ g) r := by
  match t with
  | .spaces w => exact hg.append_spaces ht.2.1
  | .lineComment w =>
    obtain ⟨x, rfl, hx, hr⟩ := ht
    exact .lineComment hx hr hg
  | .blockComment w =>
    obtain ⟨x, rfl, hx⟩ := ht
    exact .blockComment hx hg
  | .openComment w => exact absurd rfl (ho w)

/-- A gap at the end of a source, where a comment may be left open. -/
def LastGap (g : List Char) : Prop :=
  ∃ a b, g = a ++ b ∧ Gap a b ∧ (b = [] ∨ ∃ x, b = '/' :: '*' :: x ∧ ¬ closer <:+: x)

/-- A source as gaps and pieces in turn. -/
inductive Decomposition where
  | last (gap : List Char)
  | piece (gap : List Char) (l : Lexeme) (more : Decomposition)

namespace Decomposition

/-- The source that is cut up. -/
def text : Decomposition → List Char
  | .last g => g
  | .piece g l d => g ++ l.text ++ d.text

/-- The pieces in order. -/
def pieces : Decomposition → List Lexeme
  | .last _ => []
  | .piece _ l d => l :: d.pieces

/-- Every gap is one, and every piece has exactly one form, in front of what follows. -/
def IsMaximalMunch : Decomposition → Prop
  | .last g => LastGap g
  | .piece g l d => Gap g (l.text ++ d.text) ∧ (∃! f : Form, f.Fits l d.text) ∧ d.IsMaximalMunch

/-- The decomposition with a text in front of its first gap. -/
def addGap (t : List Char) : Decomposition → Decomposition
  | .last g => .last (t ++ g)
  | .piece g l d => .piece (t ++ g) l d

/-- The decomposition that a list of items gives. -/
def ofItems : List Item → Decomposition
  | [] => .last []
  | i :: is =>
    match i.lexeme? with
    | none => (ofItems is).addGap i.text
    | some l => .piece [] l (ofItems is)

@[simp] theorem text_addGap (t : List Char) (d : Decomposition) :
    (d.addGap t).text = t ++ d.text := by
  cases d <;> simp [addGap, text]

@[simp] theorem pieces_addGap (t : List Char) (d : Decomposition) :
    (d.addGap t).pieces = d.pieces := by
  cases d <;> rfl

@[simp] theorem addGap_nil (d : Decomposition) : d.addGap [] = d := by
  cases d <;> rfl

theorem addGap_addGap (t u : List Char) (d : Decomposition) :
    (d.addGap u).addGap t = d.addGap (t ++ u) := by
  cases d <;> simp [addGap]

theorem ofItems_trivia (t : Trivia) (is : List Item) :
    ofItems (.trivia t :: is) = (ofItems is).addGap t.text := rfl

end Decomposition

/-! ### Existence -/

theorem LastGap.append_trivia {t : Trivia} {g : List Char} (ht : t.Fits g) (hg : LastGap g) :
    LastGap (t.text ++ g) := by
  by_cases ho : ∃ w, t = .openComment w
  · obtain ⟨w, rfl⟩ := ho
    obtain ⟨x, rfl, hx, rfl⟩ := ht
    exact ⟨[], _, rfl, .nil, .inr ⟨x, by simp, hx⟩⟩
  · obtain ⟨a, b, rfl, ha, hb⟩ := hg
    exact ⟨t.text ++ a, b, by simp, ha.append_trivia ht fun w hw => ho ⟨w, hw⟩, hb⟩

namespace Decomposition

theorem IsMaximalMunch.addGap {t : Trivia} {d : Decomposition} (hd : d.IsMaximalMunch)
    (ht : t.Fits d.text) : (d.addGap t.text).IsMaximalMunch := by
  cases d with
  | last g => exact LastGap.append_trivia ht hd
  | piece g l d =>
    obtain ⟨hg, hl, hd⟩ := hd
    refine ⟨hg.append_trivia (by simpa [text] using ht) ?_, hl, hd⟩
    rintro w rfl
    -- an open comment would take the piece as well
    obtain ⟨x, -, -, hr⟩ := ht
    obtain ⟨f, hf, -⟩ := hl
    simp [text, f.text_ne_nil hf] at hr

theorem text_ofItems (r : List Char) : (ofItems (Item.split r)).text = r := by
  induction r using Item.fits_induction with
  | nil => simp [ofItems, text]
  | item i r h ih =>
    rw [Item.split_append h, ofItems]
    cases hl : i.lexeme? with
    | none => simp [ih]
    | some l => simp [text, ih, Item.text_of_lexeme? hl]

theorem isMaximalMunch_ofItems (r : List Char) : (ofItems (Item.split r)).IsMaximalMunch := by
  induction r using Item.fits_induction with
  | nil =>
    rw [Item.split_nil]
    exact ⟨[], [], rfl, .nil, .inl rfl⟩
  | item i r h ih =>
    rw [Item.split_append h]
    cases hl : i.lexeme? with
    | none =>
      obtain ⟨t, rfl⟩ := Item.exists_trivia_of_lexeme? hl
      exact ih.addGap (by rwa [text_ofItems])
    | some l =>
      obtain ⟨f, hf⟩ := Item.exists_form_of_lexeme? h hl
      rw [ofItems, hl]
      rw [← text_ofItems r] at hf
      exact ⟨.nil, ⟨f, hf, fun g hg => Form.unique hg hf⟩, ih⟩

/-- The pieces are those that the tokens are made of. -/
theorem map_tokens (filename : String) (m : Mark) (is : List Item) :
    (Item.tokens filename m is).map (fun t => (⟨t.kind, t.text.toList⟩ : Lexeme)) =
      (ofItems is).pieces ++ [⟨.endOfInput, []⟩] := by
  induction is generalizing m with
  | nil => rfl
  | cons i is ih =>
    cases hl : i.lexeme? with
    | none => rw [Item.tokens_of_trivia hl, ih, ofItems, hl, pieces_addGap]
    | some l =>
      rw [Item.tokens_of_lexeme hl, List.map_cons, ih, ofItems, hl]
      simp [Lexeme.token, pieces]

/-! ### Uniqueness -/

theorem ofItems_append {t : Trivia} {r : List Char} (ht : t.Fits r) :
    ofItems (Item.split (t.text ++ r)) = (ofItems (Item.split r)).addGap t.text := by
  have hi : (Item.trivia t).Fits r := ht
  rw [← ofItems_trivia, ← Item.split_append hi]
  rfl

theorem ofItems_space_cons {c : Char} (hc : isSpace c = true) (r : List Char) :
    ofItems (Item.split (c :: r)) = (ofItems (Item.split r)).addGap [c] := by
  rcases Item.split_space_cons hc r with h | ⟨t, is, h₁, h₂⟩
  · rw [h]
    rfl
  · rw [h₁, h₂, ofItems_trivia, ofItems_trivia, addGap_addGap]
    rfl

/-- A gap in front of a text is in front of the first gap of the text. -/
theorem ofItems_gap {g r : List Char} (hg : Gap g r) :
    ofItems (Item.split (g ++ r)) = (ofItems (Item.split r)).addGap g := by
  induction hg with
  | nil => simp
  | space hc _ ih => rw [List.cons_append, ofItems_space_cons hc, ih, addGap_addGap]; rfl
  | @lineComment x g r hx hr _ ih =>
    have h := ofItems_append (t := .lineComment ('/' :: '/' :: x)) ⟨x, rfl, hx, hr⟩
    rw [ih, addGap_addGap] at h
    simpa [Trivia.text] using h
  | @blockComment x g r hx _ ih =>
    have h := ofItems_append (t := .blockComment ('/' :: '*' :: (x ++ closer))) (r := g ++ r)
      ⟨x, rfl, hx⟩
    rw [ih, addGap_addGap] at h
    simpa [Trivia.text] using h

/-- A decomposition by maximal munch is the one that its source gives. -/
theorem eq_ofItems {d : Decomposition} (hd : d.IsMaximalMunch) :
    d = ofItems (Item.split d.text) := by
  induction d with
  | last g =>
    obtain ⟨a, b, rfl, ha, hb⟩ := hd
    rw [text, ofItems_gap ha]
    rcases hb with rfl | ⟨x, rfl, hx⟩
    · simp [ofItems, addGap]
    · have h := ofItems_append (t := .openComment ('/' :: '*' :: x)) ⟨x, rfl, hx, rfl⟩
      simp only [Trivia.text, List.append_nil] at h
      rw [h]
      simp [ofItems, addGap]
  | piece g l d ih =>
    obtain ⟨hg, ⟨f, hf, -⟩, hd⟩ := hd
    -- behind the gap, the piece is the first item
    obtain ⟨i, hi, hl⟩ := Item.exists_of_form hf
    rw [text, List.append_assoc, ofItems_gap hg, Item.text_of_lexeme? hl, Item.split_append hi,
      ofItems, hl, ← ih hd, addGap, List.append_nil]

end Decomposition

/-- **Every source has exactly one decomposition by maximal munch**, and its pieces are the tokens
of the source. -/
theorem tokenize_eq_maximalMunch (source : String) (filename : Option String)
    (options : Options) :
    ∃ d : Decomposition, d.IsMaximalMunch ∧ d.text = source.toList ∧
      (tokenize source filename options).map (fun t => (⟨t.kind, t.text.toList⟩ : Lexeme)) =
        d.pieces ++ [⟨.endOfInput, []⟩] ∧
      ∀ e : Decomposition, e.IsMaximalMunch → e.text = source.toList → e = d := by
  refine ⟨.ofItems (Item.split source.toList), Decomposition.isMaximalMunch_ofItems _,
    Decomposition.text_ofItems _, ?_, ?_⟩
  · rw [tokenize_eq, Decomposition.map_tokens]
  · intro e he hs
    rw [Decomposition.eq_ofItems he, hs]

end Lexis
