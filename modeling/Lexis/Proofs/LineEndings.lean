/-
Lines that end with a carriage return and a line feed.

`Text.withReturns` puts a carriage return in front of every line feed of a text.  A source and the
one with returns have the same tokens, as many faults and the same warnings, although all behind
the first line stands at another offset (`tokenize_withReturns`).

The return is white space, and so may stand behind every item.  Two kinds of items have it in
their own text: a block comment all those of its lines, and a line comment the one at its end
(`Item.collect_append_withReturns`).
-/
import Lexis.Proofs.Lexer.Faults
import Lexis.Proofs.Lexer.Warnings

namespace Lexis

namespace Text

/-- A text with a carriage return in front of every line feed. -/
def withReturns (r : List Char) : List Char :=
  r.flatMap fun c => if c = '\n' then ['\r', '\n'] else [c]

@[simp] theorem withReturns_nil : withReturns [] = [] := rfl

theorem withReturns_lineFeed (r : List Char) :
    withReturns ('\n' :: r) = '\r' :: '\n' :: withReturns r := rfl

theorem withReturns_cons {c : Char} (h : c ≠ '\n') (r : List Char) :
    withReturns (c :: r) = c :: withReturns r := by
  rw [withReturns, List.flatMap_cons, if_neg h]
  rfl

theorem withReturns_append (r s : List Char) :
    withReturns (r ++ s) = withReturns r ++ withReturns s :=
  List.flatMap_append

theorem withReturns_of_notMem {r : List Char} (h : '\n' ∉ r) : withReturns r = r := by
  induction r with
  | nil => rfl
  | cons c r ih =>
    obtain ⟨hc, hr⟩ : '\n' ≠ c ∧ '\n' ∉ r := by simpa using h
    rw [withReturns_cons hc.symm, ih hr]

theorem forall_isSpace_withReturns {t : List Char} (h : ∀ c ∈ t, isSpace c = true) :
    ∀ c ∈ withReturns t, isSpace c = true := by
  intro c hc
  obtain ⟨d, hd, hc⟩ := List.mem_flatMap.mp hc
  by_cases hn : d = '\n'
  · rw [if_pos hn] at hc
    obtain rfl | rfl : c = '\r' ∨ c = '\n' := by simpa using hc
    · decide
    · decide
  · rw [if_neg hn] at hc
    obtain rfl := List.mem_singleton.mp hc
    exact h c hd

/-- A text without line feeds at its start begins as it did. -/
theorem head?_withReturns {r : List Char} (h : r.head? ≠ some '\n') :
    (withReturns r).head? = r.head? := by
  cases r with
  | nil => rfl
  | cons c r =>
    have hc : c ≠ '\n' := by simpa using h
    rw [withReturns_cons hc]
    rfl

end Text

open Text

/-- Behind a line feed, only the line tells of the place in front. -/
theorem Mark.place_after_lineFeed (m : Mark) : (m.after '\n').place = toLex (m.line + 1, 1) := by
  rw [after, if_pos rfl, place]

theorem Mark.line_after_return (m : Mark) : (m.after '\r').line = m.line := by
  rw [after, if_neg (by decide)]

/-- A return in front of a line feed moves no place. -/
theorem Mark.place_moveOver_withReturns {m n : Mark} (h : m.place = n.place) (t : List Char) :
    (m.moveOver (withReturns t)).place = (n.moveOver t).place := by
  induction t generalizing m n with
  | nil => exact h
  | cons c t ih =>
    obtain ⟨hline, -⟩ : m.line = n.line ∧ m.column = n.column := Prod.ext_iff.mp h
    by_cases hc : c = '\n'
    · obtain rfl := hc
      have hfeed : ((m.after '\r').after '\n').place = (n.after '\n').place := by
        rw [place_after_lineFeed, place_after_lineFeed, line_after_return, hline]
      rw [withReturns_lineFeed, moveOver_cons, moveOver_cons, moveOver_cons]
      exact ih hfeed
    · rw [withReturns_cons hc, moveOver_cons, moveOver_cons]
      exact ih (place_moveOver_congr h [c])

theorem closer_prefix_cons {c : Char} {r : List Char} :
    closer <+: c :: r ↔ c = '*' ∧ r.head? = some '/' := by
  rw [closer, List.cons_prefix_cons, List.head?_eq_some_iff, eq_comm]
  exact and_congr_right fun _ => exists_congr fun _ => eq_comm

/-- Returns neither make nor break the end of a block comment. -/
theorem infix_closer_withReturns {x : List Char} :
    closer <:+: withReturns x ↔ closer <:+: x := by
  induction x with
  | nil => rfl
  | cons c x ih =>
    have hslash : (withReturns x).head? = some '/' ↔ x.head? = some '/' := by
      by_cases hx : x.head? = some '\n'
      · obtain ⟨s, rfl⟩ := List.head?_eq_some_iff.mp hx
        rw [withReturns_lineFeed]
        simp
      · rw [head?_withReturns hx]
    by_cases hc : c = '\n'
    · obtain rfl := hc
      rw [withReturns_lineFeed, List.infix_cons_iff, List.infix_cons_iff, List.infix_cons_iff, ih,
        closer_prefix_cons, closer_prefix_cons, closer_prefix_cons]
      simp
    · rw [withReturns_cons hc, List.infix_cons_iff, List.infix_cons_iff, ih, closer_prefix_cons,
        closer_prefix_cons, hslash]

namespace Item

/-- An item of which the text has returns. -/
def withReturns : Item → Item
  | .trivia t => .trivia (t.withText (Text.withReturns t.text))
  | i => i

theorem text_withReturns {i : Item} {r : List Char} (h : i.Fits r) :
    i.withReturns.text = Text.withReturns i.text := by
  match i, h with
  | .trivia t, _ => exact t.text_withText _
  | .lexeme l, ⟨f, _, hf⟩ =>
    refine (withReturns_of_notMem fun hn => ?_).symm
    exact absurd (f.not_isSpace_of_mem hf hn) (by decide)
  | .invalid c, hf =>
    refine (withReturns_of_notMem fun hn => ?_).symm
    exact absurd (Form.stray.not_isSpace_of_mem hf hn) (by decide)

/-- An item with returns is well formed where the item is. -/
theorem fits_withReturns {i : Item} {r : List Char} (h : i.Fits r) : i.withReturns.Fits r := by
  match i, h with
  | .lexeme l, h => exact h
  | .invalid c, h => exact h
  | .trivia (.spaces t), ⟨hne, ht, hr⟩ =>
    obtain ⟨c, t, rfl⟩ := List.exists_cons_of_ne_nil hne
    refine ⟨?_, forall_isSpace_withReturns ht, hr⟩
    by_cases hc : c = '\n'
    · obtain rfl := hc
      exact List.cons_ne_nil _ _
    · rw [Trivia.text, withReturns_cons hc]
      exact List.cons_ne_nil _ _
  | .trivia (.lineComment t), ⟨x, ht, hx, hr⟩ =>
    obtain rfl := ht
    have hcomment : '\n' ∉ '/' :: '/' :: x := by simpa using hx
    exact ⟨x, withReturns_of_notMem hcomment, hx, hr⟩
  | .trivia (.blockComment t), ⟨x, ht, hx⟩ =>
    obtain rfl := ht
    refine ⟨Text.withReturns x, ?_, mt infix_closer_withReturns.mp hx⟩
    rw [Trivia.text, withReturns_cons (by decide), withReturns_cons (by decide),
      withReturns_append]
    rfl
  | .trivia (.openComment t), ⟨x, ht, hx, hr⟩ =>
    obtain rfl := ht
    exact ⟨Text.withReturns x, rfl, mt infix_closer_withReturns.mp hx, hr⟩

variable {β : Type} {f : Mark → Item → Option β}

/-- A return at the end of a line is either found as white space, or goes with a line comment. -/
theorem collect_append_return (hspaces : IgnoresSpaces f) (hkind : ByKind f) {i : Item}
    {s : List Char} (h : i.Fits ('\n' :: s)) (m : Mark) :
    collect f m (split (i.text ++ '\r' :: '\n' :: s)) =
      (f m i).toList ++ collect f (m.moveOver i.text) (split ('\r' :: '\n' :: s)) := by
  have hreturn : isSpace '\r' = true := by decide
  match i, h with
  | .lexeme l, ⟨g, hg, h⟩ =>
    have hl : (Item.lexeme l).Fits ('\r' :: '\n' :: s) := ⟨g, hg, h.before_space hreturn⟩
    exact collect_split_append hl m
  | .invalid c, h =>
    have hc : (Item.invalid c).Fits ('\r' :: '\n' :: s) :=
      Form.Fits.before_space (f := .stray) h hreturn
    exact collect_split_append hc m
  | .trivia (.spaces t), ⟨_, _, hr⟩ => exact absurd (stops_cons.mp hr) (by decide)
  | .trivia (.openComment t), ⟨_, _, _, hr⟩ => cases hr
  | .trivia (.blockComment t), h =>
    have ht : (Item.trivia (.blockComment t)).Fits ('\r' :: '\n' :: s) := h
    exact collect_split_append ht m
  | .trivia (.lineComment t), ⟨x, ht, hx, hr⟩ =>
    -- the comment has the return in its text, and it is white space behind the comment's place
    have hcomment : (Item.trivia (.lineComment (t ++ ['\r']))).Fits ('\n' :: s) := by
      refine ⟨x ++ ['\r'], by rw [ht]; rfl, ?_, hr⟩
      simpa using hx
    have hspace : ∀ c ∈ ['\r'], isSpace c = true := List.forall_mem_singleton.mpr hreturn
    have hfound := collect_split_append (f := f) hcomment m
    rw [text, Trivia.text, List.append_assoc, Mark.moveOver_append,
      ← collect_append_spaces hspaces hspace] at hfound
    rw [text, Trivia.text]
    exact hfound.trans (congrArg (·.toList ++ _) (hkind m (.lineComment t) (t ++ ['\r'])))

/-- Any item may stand in front of a text with returns. -/
theorem collect_append_withReturns (hspaces : IgnoresSpaces f) (hkind : ByKind f) {i : Item}
    {r : List Char} (h : i.Fits r) (m : Mark) :
    collect f m (split (i.text ++ Text.withReturns r)) =
      (f m i).toList ++ collect f (m.moveOver i.text) (split (Text.withReturns r)) := by
  by_cases hr : r.head? = some '\n'
  · obtain ⟨s, rfl⟩ := List.head?_eq_some_iff.mp hr
    have hline : i.Fits ('\n' :: Text.withReturns s) := h.congr rfl
    exact collect_append_return hspaces hkind hline m
  · exact collect_split_append (h.congr (head?_withReturns hr)) m

/-- Where neither offsets count nor the text of trivia, the same is found with returns. -/
theorem collect_withReturns (hspaces : IgnoresSpaces f) (hkind : ByKind f) (hplace : ByPlace f)
    {m n : Mark} (h : m.place = n.place) (r : List Char) :
    collect f m (split (Text.withReturns r)) = collect f n (split r) := by
  induction r using fits_induction generalizing m n with
  | nil =>
    rw [withReturns_nil, split_nil]
    rfl
  | item i r hi ih =>
    have hitem : f m i.withReturns = f n i := by
      rw [hplace h]
      match i with
      | .trivia t => exact hkind n t _
      | .lexeme l => rfl
      | .invalid c => rfl
    have htext := text_withReturns hi
    rw [withReturns_append, ← htext,
      collect_append_withReturns hspaces hkind (fits_withReturns hi), collect_split_append hi, hitem,
      htext, ih (Mark.place_moveOver_withReturns h i.text)]

theorem tokens_withReturns (filename : String) (m : Mark) (r : List Char) :
    tokens filename m (split (Text.withReturns r)) = tokens filename m (split r) := by
  have hend := Prod.ext_iff.mp (Mark.place_moveOver_withReturns (rfl : m.place = m.place) r)
  obtain ⟨hline, hcolumn⟩ : (m.moveOver (Text.withReturns r)).line = (m.moveOver r).line ∧
      (m.moveOver (Text.withReturns r)).column = (m.moveOver r).column := hend
  rw [tokens_split, tokens_split, endTokenAt, endTokenAt, hline, hcolumn,
    collect_withReturns (ignoresSpaces_token? filename) (byKind_token? filename)
      (byPlace_token? filename) rfl]

end Item

namespace Lexer

variable {x : Lexer} {c : Cursor} (hrest : c.rest = Text.withReturns x.rest)
  (hmark : c.toMark = x.cursor.toMark)

include hrest hmark

/-- A lexer that has a text with returns left gives the tokens of the text. -/
theorem tokens_withReturns : { x with cursor := c : Lexer }.tokens = x.tokens := by
  have h := Item.tokens_withReturns x.filename c.toMark x.rest
  rw [← hrest] at h
  rw [tokens, tokens, ← hmark, ← h]
  rfl

theorem errorCount_withReturns :
    { x with cursor := c : Lexer }.tokenize.2.diagnostics.errorCount =
      x.tokenize.2.diagnostics.errorCount := by
  rw [tokenize_errorCount, tokenize_errorCount, tokens_withReturns hrest hmark]

theorem warnings_withReturns :
    { x with cursor := c : Lexer }.tokenize.2.diagnostics.warnings =
      x.tokenize.2.diagnostics.warnings := by
  have h := Item.collect_withReturns (Item.ignoresSpaces_warning? x.filename _)
    (Item.byKind_warning? _ x.options.strictComments) (Item.byPlace_warning? _ _)
    (congrArg Mark.place hmark) x.rest
  rw [← hrest] at h
  rw [← Array.toList_inj, tokenize_warnings, tokenize_warnings, ← h]
  rfl

end Lexer

/-- A source with a carriage return in front of every line feed. -/
def withReturns (source : String) : String :=
  String.ofList (Text.withReturns source.toList)

theorem Lexer.ofSource_withReturns (source : String) (filename : Option String)
    (options : Options) :
    ofSource (Lexis.withReturns source) filename options =
      { ofSource source filename options with
        cursor := .start (Text.withReturns source.toList) } := by
  rw [ofSource, Lexis.withReturns, String.toList_ofList, ofSource]

/-- **Returns at the ends of lines change nothing**: tokens and places, the number of faults and
the warnings are the same. -/
theorem tokenize_withReturns (source : String) (filename : Option String) (options : Options) :
    tokenize (withReturns source) filename options = tokenize source filename options ∧
      (Lexer.ofSource (withReturns source) filename options).tokenize.2.diagnostics.errorCount =
        (Lexer.ofSource source filename options).tokenize.2.diagnostics.errorCount ∧
      (Lexer.ofSource (withReturns source) filename options).tokenize.2.diagnostics.warnings =
        (Lexer.ofSource source filename options).tokenize.2.diagnostics.warnings := by
  have hrest : (Cursor.start (Text.withReturns source.toList)).rest =
      Text.withReturns (Lexer.ofSource source filename options).rest := by
    rw [Lexer.rest_ofSource]
    rfl
  have hmark : (Cursor.start (Text.withReturns source.toList)).toMark =
      (Lexer.ofSource source filename options).cursor.toMark := by
    rw [Lexer.ofSource, Cursor.start, Cursor.start]
  rw [tokenize, tokenize, Lexer.tokenize_fst, Lexer.tokenize_fst, Lexer.ofSource_withReturns]
  exact ⟨Lexer.tokens_withReturns hrest hmark, Lexer.errorCount_withReturns hrest hmark,
    Lexer.warnings_withReturns hrest hmark⟩

end Lexis
