/-
Comments are as good as blank space.

`blank` is a pass over the raw characters that knows nothing of tokens: it keeps track of whether
it is in code, in a line comment or in a block comment, and puts a space for every character of a
comment but the line feeds.  A source and its blanked text have the same tokens at the same places
(`tokenize_blank`).

The scanner meets comments only between pieces, the pass looks for them everywhere.  Both find the
same ones since no piece holds a slash, but for a stray one that no comment begins with
(`Form.slash_of_mem`).
-/
import Lexis.Proofs.Lexer.Faults

namespace Lexis

open Text

/-- Where the pass is. -/
inductive Zone where
  | code
  | line
  | block
  deriving DecidableEq, Repr

/-- What a character of a comment is replaced by. -/
def blankChar (c : Char) : Char :=
  if c = '\n' then '\n' else ' '

/-- A text with its comments blanked out, delimiters included. -/
def blank : Zone → List Char → List Char
  | .code, '/' :: '/' :: r => ' ' :: ' ' :: blank .line r
  | .code, '/' :: '*' :: r => ' ' :: ' ' :: blank .block r
  | .code, c :: r => c :: blank .code r
  | .line, '\n' :: r => '\n' :: blank .code r
  | .line, _ :: r => ' ' :: blank .line r
  | .block, '*' :: '/' :: r => ' ' :: ' ' :: blank .code r
  | .block, c :: r => blankChar c :: blank .block r
  | _, [] => []

theorem isSpace_blankChar (c : Char) : isSpace (blankChar c) = true := by
  unfold blankChar
  split <;> decide

/-- Blanking moves no place. -/
theorem Mark.moveOver_map_blankChar (m : Mark) (t : List Char) :
    m.moveOver (t.map blankChar) = m.moveOver t := by
  induction t generalizing m with
  | nil => rfl
  | cons c t ih =>
    rw [List.map_cons, moveOver_cons, moveOver_cons, ih]
    congr 1
    by_cases hc : c = '\n' <;> simp [after, blankChar, hc]

/-! ### One character of the pass -/

theorem blank_code_cons {c : Char} {r : List Char}
    (h : c = '/' → r.head? ≠ some '/' ∧ r.head? ≠ some '*') :
    blank .code (c :: r) = c :: blank .code r := by
  rw [blank]
  · rintro s rfl rfl
    exact (h rfl).1 rfl
  · rintro s rfl rfl
    exact (h rfl).2 rfl

theorem blank_line_cons {c : Char} (h : c ≠ '\n') (r : List Char) :
    blank .line (c :: r) = blankChar c :: blank .line r := by
  rw [blank, blankChar, if_neg h]
  exact h

theorem blank_block_cons {c : Char} {r : List Char} (h : c = '*' → r.head? ≠ some '/') :
    blank .block (c :: r) = blankChar c :: blank .block r := by
  rw [blank]
  rintro s rfl rfl
  exact h rfl rfl

/-- What the pass makes of a text begins as the text does, or with a space. -/
theorem head?_blank_code (r : List Char) :
    (blank .code r).head? = r.head? ∨ (blank .code r).head? = some ' ' := by
  match r with
  | [] => exact .inl rfl
  | c :: r =>
    by_cases h : c = '/' → r.head? ≠ some '/' ∧ r.head? ≠ some '*'
    · rw [blank_code_cons h]
      exact .inl rfl
    · obtain ⟨rfl, hr⟩ := Classical.not_imp.mp h
      right
      rcases not_and_or.mp hr with hr | hr
      · obtain ⟨s, rfl⟩ := List.head?_eq_some_iff.mp (not_not.mp hr)
        rfl
      · obtain ⟨s, rfl⟩ := List.head?_eq_some_iff.mp (not_not.mp hr)
        rfl

/-! ### The pass over pieces and trivia -/

theorem blank_code_append {t r : List Char} (h : '/' ∉ t) :
    blank .code (t ++ r) = t ++ blank .code r := by
  induction t with
  | nil => rfl
  | cons c t ih =>
    obtain ⟨hc, ht⟩ : '/' ≠ c ∧ '/' ∉ t := by simpa using h
    rw [List.cons_append, blank_code_cons fun hs => absurd hs.symm hc, ih ht, List.cons_append]

/-- A piece with a token is left as it is. -/
theorem blank_piece {f : Form} {l : Lexeme} {r : List Char} (h : f.Fits l r) :
    blank .code (l.text ++ r) = l.text ++ blank .code r := by
  by_cases hs : '/' ∈ l.text
  · obtain ⟨ht, hr⟩ := f.slash_of_mem h hs
    rw [ht, List.singleton_append, List.singleton_append]
    exact blank_code_cons fun _ => hr
  · exact blank_code_append hs

/-- A piece still fits in front of what the pass makes of the rest. -/
theorem Form.Fits.before_blank {f : Form} {l : Lexeme} {r : List Char} (h : f.Fits l r) :
    f.Fits l (blank .code r) :=
  h.before_spaced (head?_blank_code r)

theorem blank_line_append {x r : List Char} (hx : '\n' ∉ x) (hr : Stops (· ≠ '\n') r) :
    blank .line (x ++ r) = x.map blankChar ++ blank .code r := by
  induction x with
  | nil =>
    match r, hr with
    | [], _ => rfl
    | c :: r, hr =>
      obtain rfl : c = '\n' := by simpa using hr
      rw [List.nil_append, List.map_nil, List.nil_append,
        blank_code_cons (c := '\n') fun h => absurd h (by decide)]
      rfl
  | cons c x ih =>
    obtain ⟨hc, hx⟩ : '\n' ≠ c ∧ '\n' ∉ x := by simpa using hx
    rw [List.cons_append, blank_line_cons hc.symm, ih hx, List.map_cons, List.cons_append]

theorem blank_block_append {x s : List Char} (hx : ¬ closer <:+: x) (hs : s.head? ≠ some '/') :
    blank .block (x ++ s) = x.map blankChar ++ blank .block s := by
  induction x with
  | nil => rfl
  | cons c x ih =>
    rw [List.cons_append, blank_block_cons (head?_ne_slash hx hs), ih fun h => hx (List.infix_cons h), List.map_cons,
      List.cons_append]

/-- A comment is blanked character by character. -/
theorem blank_comment {t : Trivia} {r : List Char} (h : t.Fits r) (ht : ∀ w, t ≠ .spaces w) :
    blank .code (t.text ++ r) = t.text.map blankChar ++ blank .code r := by
  match t with
  | .spaces w => exact absurd rfl (ht w)
  | .lineComment w =>
    obtain ⟨x, rfl, hx, hr⟩ := h
    rw [Trivia.text, List.cons_append, List.cons_append, blank, blank_line_append hx hr]
    rfl
  | .blockComment w =>
    obtain ⟨x, rfl, hx⟩ := h
    rw [Trivia.text, List.cons_append, List.cons_append, blank, List.append_assoc,
      blank_block_append hx (by simp [closer])]
    simp [closer, blank, blankChar]
  | .openComment w =>
    obtain ⟨x, rfl, hx, rfl⟩ := h
    rw [Trivia.text, List.cons_append, List.cons_append, blank, blank_block_append hx (by simp)]
    rfl

/-- Trivia becomes white space that moves a place as far. -/
theorem exists_blank_trivia {t : Trivia} {r : List Char} (h : t.Fits r) :
    ∃ w, blank .code (t.text ++ r) = w ++ blank .code r ∧ (∀ c ∈ w, isSpace c = true) ∧
      ∀ m : Mark, m.moveOver w = m.moveOver t.text := by
  by_cases ht : ∃ w, t = .spaces w
  · obtain ⟨w, rfl⟩ := ht
    obtain ⟨-, hw, -⟩ := h
    refine ⟨w, blank_code_append ?_, hw, fun _ => rfl⟩
    intro hm
    exact absurd (hw '/' hm) (by decide)
  · refine ⟨t.text.map blankChar, blank_comment h fun w hw => ht ⟨w, hw⟩, ?_,
      fun m => m.moveOver_map_blankChar t.text⟩
    intro c hc
    obtain ⟨d, -, rfl⟩ := List.mem_map.mp hc
    exact isSpace_blankChar d

/-! ### The stream of a blanked source -/

/-- A text and its blanked text have the same tokens. -/
theorem tokens_blank (filename : String) (m : Mark) (r : List Char) :
    Item.tokens filename m (Item.split (blank .code r)) =
      Item.tokens filename m (Item.split r) := by
  induction r using Item.fits_induction generalizing m with
  | nil => rfl
  | item i r h ih =>
    cases hl : i.lexeme? with
    | none =>
      -- trivia becomes white space, which only moves the tokens behind it
      obtain ⟨t, rfl⟩ := Item.exists_trivia_of_lexeme? hl
      obtain ⟨w, hw, hspace, hmove⟩ := exists_blank_trivia h
      rw [Item.split_append h, Item.tokens_of_trivia hl, ← ih, Item.text, hw,
        Item.tokens_append_spaces hspace, hmove]
    | some l =>
      -- a piece stays, and is still a piece in front of the blanked rest
      obtain ⟨f, hf⟩ := Item.exists_form_of_lexeme? h hl
      have hb := Item.fits_of_lexeme? h hl fun g hg => hg.before_blank
      rw [← Item.text_of_lexeme? hl, blank_piece hf, Item.text_of_lexeme? hl,
        Item.split_append hb, Item.split_append h, Item.tokens_of_lexeme hl,
        Item.tokens_of_lexeme hl, ih]

/-- A source with its comments blanked out. -/
def blankSource (source : String) : String :=
  String.ofList (blank .code source.toList)

/-- A lexer of a blanked source has the tokens of the source. -/
theorem tokens_blankSource (source : String) (filename : Option String) (options : Options) :
    (Lexer.ofSource (blankSource source) filename options).tokens =
      (Lexer.ofSource source filename options).tokens := by
  have h := tokens_blank (filename.getD options.filename) ⟨0, 1, 1, 0⟩ source.toList
  rw [← String.toList_ofList (l := blank .code source.toList)] at h
  exact h

/-- **Blanking out comments changes nothing**: tokens, places, and the faults that are kept are the
same. -/
theorem tokenize_blank (source : String) (filename : Option String) (options : Options) :
    tokenize (blankSource source) filename options = tokenize source filename options ∧
      (Lexer.ofSource (blankSource source) filename options).tokenize.2.diagnostics.faults.toList.map
          Fault.site =
        (Lexer.ofSource source filename options).tokenize.2.diagnostics.faults.toList.map
          Fault.site ∧
      (Lexer.ofSource (blankSource source) filename options).tokenize.2.diagnostics.suppressed =
        (Lexer.ofSource source filename options).tokenize.2.diagnostics.suppressed := by
  refine ⟨?_, ?_, ?_⟩
  · rw [tokenize, Lexer.tokenize_fst, tokens_blankSource, ← Lexer.tokenize_fst]
    rfl
  · rw [Lexer.tokenize_faults, tokens_blankSource, Lexer.tokenize_faults]
    rfl
  · rw [Lexer.tokenize_suppressed, tokens_blankSource, Lexer.tokenize_suppressed]
    rfl

end Lexis
