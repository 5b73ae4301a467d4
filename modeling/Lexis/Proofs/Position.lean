/-
Where tokens stand.

A token knows its line and column only, and those are carried along through every piece of the
source.  Yet each token stands at an offset of the source where its text can be read, and its line
and column are counts over what is in front of that offset (`Token.StandsAt`).

* `exists_placed` — the tokens with their offsets, by induction along the items;
* `Token.StandsAt.precedes` — a larger offset is a later line, or a later column of the same line;
* `Token.StandsAt.line_text` — the text can be read on the line as well;
* `tokenize_standsAt` — all of it for a whole source.
-/
import Lexis.Proofs.Lexer.Run

namespace Lexis

/-- A token stands at an offset of a source. -/
structure Token.StandsAt (s : List Char) (t : Token) (p : Nat) : Prop where
  text : (s.drop p).take t.text.length = t.text.toList
  line : t.line = 1 + (s.take p).count '\n'
  column : t.column = 1 + (lastLine (s.take p)).length
  no_newline : '\n' ∉ t.text.toList
  le_length : p ≤ s.length
  at_end : t.isEnd = true → p = s.length

/-- A token comes before another one: on an earlier line, or further left on the same line. -/
def Token.Precedes (t u : Token) : Prop :=
  t.line < u.line ∨ t.line = u.line ∧ t.column < u.column

namespace Token.StandsAt

variable {s : List Char} {t u : Token} {p q : Nat}

/-- Offsets and places are in the same order. -/
theorem precedes (ht : t.StandsAt s p) (hu : u.StandsAt s q) (h : p < q) : t.Precedes u := by
  have hq := hu.le_length
  -- `w` is what stands between the two offsets
  obtain ⟨w, hw⟩ : ∃ w, s.take q = s.take p ++ w :=
    ⟨(s.drop p).take (q - p), by rw [← List.take_add]; congr 1; omega⟩
  have hlen : 0 < w.length := by
    have := congrArg List.length hw
    simp only [List.length_take, List.length_append] at this
    omega
  rw [Token.Precedes, ht.line, hu.line, ht.column, hu.column, hw, List.count_append]
  by_cases hn : '\n' ∈ w
  · left
    have := List.count_pos_iff.mpr hn
    omega
  · right
    have hc : w.count '\n' = 0 := List.count_eq_zero.mpr hn
    rw [lastLine_append_of_notMem _ hn, List.length_append]
    omega

theorem lines_in_front (h : t.StandsAt s p) : (t.line - 1).toNat = (s.take p).count '\n' := by
  have := h.line
  omega

theorem length_in_front (h : t.StandsAt s p) :
    (t.column - 1).toNat = (lastLine (s.take p)).length := by
  have := h.column
  omega

/-- The line that a token names has the token's text at the column that it names. -/
theorem line_text (h : t.StandsAt s p) :
    ∃ l, (s.splitOn '\n')[(t.line - 1).toNat]? = some l ∧
      t.text.toList <+: l.drop (t.column - 1).toNat := by
  -- the line is what is in front of the token on it, and what goes on to the next line feed
  have hl := line_of_append (s.take p) (s.drop p)
  rw [List.take_append_drop] at hl
  refine ⟨_, h.lines_in_front ▸ hl, ?_⟩
  rw [h.length_in_front, List.drop_left, ← List.take_append_drop t.text.length (s.drop p), h.text,
    List.takeWhile_append_of_pos (forall_ne_newline h.no_newline)]
  exact List.prefix_append _ _

end Token.StandsAt

/-! ### The offsets of the tokens -/

/-- The place behind a text that stands at the start of a source. -/
def placeBehind (a : List Char) : Mark :=
  (⟨0, 1, 1, 0⟩ : Mark).moveOver a

theorem placeBehind_offset (a : List Char) : (placeBehind a).offset = a.length := by
  rw [placeBehind, Mark.moveOver_offset]
  exact Int.zero_add _

theorem standsAt_endTokenAt (filename : String) (a : List Char) :
    (endTokenAt filename (placeBehind a)).StandsAt a a.length where
  text := by simp [endTokenAt]
  line := by rw [List.take_length]; exact Mark.moveOver_line _ a
  column := by rw [List.take_length]; exact Mark.moveOver_column rfl a
  no_newline := by simp [endTokenAt]
  le_length := le_rfl
  at_end _ := rfl

theorem standsAt_token (filename : String) (a : List Char) {f : Form} {l : Lexeme} {r : List Char}
    (h : f.Fits l r) :
    (l.token filename (placeBehind a)).StandsAt (a ++ (l.text ++ r)) a.length where
  text := by simp [Lexeme.token]
  line := by rw [List.take_left]; exact Mark.moveOver_line _ a
  column := by rw [List.take_left]; exact Mark.moveOver_column rfl a
  no_newline := by
    intro hn
    rw [Lexeme.token, String.toList_ofList] at hn
    exact absurd (f.not_isSpace_of_mem h hn) (by decide)
  le_length := by simp
  at_end hend := absurd (of_decide_eq_true hend) (f.kind_ne_endOfInput h)

/-- The token of an item that stands behind a text, with its offset. -/
def Item.placed (filename : String) (a : List Char) (i : Item) : List (Token × Nat) :=
  (i.lexeme?.map fun l => (l.token filename (placeBehind a), a.length)).toList

/-- The tokens of a text `r` with their offsets in a source that has `a` in front of it. -/
structure Placed (filename : String) (a r : List Char) (placed : List (Token × Nat)) : Prop where
  tokens : placed.map Prod.fst = Item.tokens filename (placeBehind a) (Item.split r)
  standsAt : ∀ q ∈ placed, a.length ≤ q.2 ∧ q.1.StandsAt (a ++ r) q.2
  apart : placed.Pairwise fun q u => q.2 < u.2 ∧ q.2 + q.1.text.length ≤ u.2

namespace Placed

variable {filename : String} {a r : List Char} {placed : List (Token × Nat)} {i : Item}

theorem nil (filename : String) (a : List Char) :
    Placed filename a [] [(endTokenAt filename (placeBehind a), a.length)] where
  tokens := by simp [Item.tokens]
  standsAt := by
    intro q hq
    obtain rfl := List.mem_singleton.mp hq
    rw [List.append_nil]
    exact ⟨le_rfl, standsAt_endTokenAt filename a⟩
  apart := List.pairwise_singleton _ _

theorem tokens_behind (h : Placed filename (a ++ i.text) r placed) :
    placed.map Prod.fst =
      Item.tokens filename ((placeBehind a).moveOver i.text) (Item.split r) := by
  rw [h.tokens, placeBehind, Mark.moveOver_append]
  rfl

/-- The tokens behind an item stand behind its text. -/
theorem standsAt_behind (h : Placed filename (a ++ i.text) r placed) :
    ∀ q ∈ placed, a.length + i.text.length ≤ q.2 ∧ q.1.StandsAt (a ++ (i.text ++ r)) q.2 := by
  intro q hq
  rw [← List.length_append, ← List.append_assoc]
  exact h.standsAt q hq

theorem trivia (h : Placed filename (a ++ i.text) r placed) (hi : i.Fits r)
    (hl : i.lexeme? = none) : Placed filename a (i.text ++ r) placed where
  tokens := by rw [Item.split_append hi, Item.tokens_of_trivia hl, h.tokens_behind]
  standsAt := by
    intro q hq
    obtain ⟨hle, hstand⟩ := h.standsAt_behind q hq
    exact ⟨by omega, hstand⟩
  apart := h.apart

theorem piece (h : Placed filename (a ++ i.text) r placed) (hi : i.Fits r) {l : Lexeme}
    (hl : i.lexeme? = some l) :
    Placed filename a (i.text ++ r) ((l.token filename (placeBehind a), a.length) :: placed) := by
  obtain ⟨f, hf⟩ := Item.exists_form_of_lexeme? hi hl
  have htext := Item.text_of_lexeme? hl
  have hpos : 0 < i.text.length := by
    rw [← htext]
    exact List.length_pos_iff.mpr (f.text_ne_nil hf)
  refine ⟨?_, ?_, List.pairwise_cons.mpr ⟨?_, h.apart⟩⟩
  · rw [Item.split_append hi, Item.tokens_of_lexeme hl, List.map_cons, h.tokens_behind]
  · intro q hq
    rcases List.mem_cons.mp hq with rfl | hq
    · rw [← htext]
      exact ⟨le_rfl, standsAt_token filename a hf⟩
    · obtain ⟨hle, hstand⟩ := h.standsAt_behind q hq
      exact ⟨by omega, hstand⟩
  · intro q hq
    have hle := (h.standsAt_behind q hq).1
    have hlen : (l.token filename (placeBehind a)).text.length = i.text.length := by
      rw [Lexeme.token, String.length_ofList, htext]
    rw [hlen]
    show a.length < q.2 ∧ a.length + i.text.length ≤ q.2
    omega

/-- The token of an item comes in front of those behind the item. -/
theorem item (h : Placed filename (a ++ i.text) r placed) (hi : i.Fits r) :
    Placed filename a (i.text ++ r) (i.placed filename a ++ placed) := by
  cases hl : i.lexeme? with
  | none =>
    rw [Item.placed, hl]
    exact h.trivia hi hl
  | some l =>
    rw [Item.placed, hl]
    exact h.piece hi hl

end Placed

/-- All tokens of a text have offsets. -/
theorem exists_placed (filename : String) (a r : List Char) :
    ∃ placed, Placed filename a r placed := by
  induction r using Item.fits_induction generalizing a with
  | nil => exact ⟨_, .nil filename a⟩
  | item i r h ih =>
    obtain ⟨placed, hp⟩ := ih (a ++ i.text)
    exact ⟨_, hp.item h⟩

/-- **Every token stands where it says**: there are offsets for the tokens, one behind the other
and the last one at the end of the source, such that each token's text, line and column are those
at its offset, the text can be read on its line, and the places go up in the order of reading. -/
theorem tokenize_standsAt (source : String) (filename : Option String) (options : Options) :
    ∃ placed : List (Token × Nat),
      placed.map Prod.fst = tokenize source filename options ∧
      (∀ q ∈ placed, q.1.StandsAt source.toList q.2 ∧
        ∃ l, (source.toList.splitOn '\n')[(q.1.line - 1).toNat]? = some l ∧
          q.1.text.toList <+: l.drop (q.1.column - 1).toNat) ∧
      placed.Pairwise (fun q u => q.2 + q.1.text.length ≤ u.2) ∧
      (tokenize source filename options).Pairwise Token.Precedes := by
  obtain ⟨placed, h⟩ := exists_placed (filename.getD options.filename) [] source.toList
  rw [tokenize_eq]
  refine ⟨placed, h.tokens, ?_, ?_, ?_⟩
  · intro q hq
    have hq := (h.standsAt q hq).2
    exact ⟨hq, hq.line_text⟩
  · exact h.apart.imp fun hqu => hqu.2
  · show (Item.tokens _ (placeBehind []) _).Pairwise _
    rw [← h.tokens, List.pairwise_map]
    refine h.apart.imp_of_mem ?_
    intro q u hq hu hqu
    exact (h.standsAt q hq).2.precedes (h.standsAt u hu).2 hqu.1

end Lexis
