/-
Sources line by line.

A line feed may follow every item but a comment that is never closed, and no item goes on behind
it but white space.  So a source falls into two where a line ends: what is found in it is what is
found in its first part, and then what is found in its second part, further down
(`Item.collect_lineBreak`).  The one exception is a line feed inside a block comment.

Faults are compared by way of their tokens: what a fault says is what its token and the line of the
source say (`Fault.Blames.unique`), and the lines of the two parts are the lines of the whole.
-/
import Lexis.Proofs.Accounts
import Lexis.Proofs.Lexer.Warnings

namespace Lexis

/-! ### Further down -/

/-- The mark so many lines further down. -/
def Mark.moveDown (k : Int) (m : Mark) : Mark :=
  { m with line := m.line + k }

/-- The place so many lines further down. -/
def Location.moveDown (k : Int) (l : Location) : Location :=
  { l with line := l.line + k }

/-- The token so many lines further down. -/
def Token.moveDown (k : Int) (t : Token) : Token :=
  { t with line := t.line + k }

/-- The fault so many lines further down. Its cause and the line that it quotes stay. -/
def Fault.moveDown (k : Int) (f : Fault) : Fault :=
  { f with location := f.location.map (Location.moveDown k) }

theorem Mark.moveOver_moveDown (k : Int) (m : Mark) (t : List Char) :
    (m.moveDown k).moveOver t = (m.moveOver t).moveDown k := by
  induction t generalizing m with
  | nil => rfl
  | cons c t ih =>
    have hc : (m.moveDown k).after c = (m.after c).moveDown k := by
      rw [after, after]
      split
      · simp only [moveDown, Mark.mk.injEq, true_and, and_true]
        omega
      · rfl
    rw [moveOver_cons, hc, ih, moveOver_cons]

theorem Item.tokens_moveDown (filename : String) (k : Int) (m : Mark) (r : List Char) :
    tokens filename (m.moveDown k) (split r) =
      (tokens filename m (split r)).map (Token.moveDown k) := by
  have htoken : ∀ m i, token? filename (Mark.moveDown k m) i =
      (token? filename m i).map (Token.moveDown k) := by
    intro m i
    rw [token?, token?, Option.map_map]
    rfl
  rw [tokens_split, tokens_split, List.map_append,
    collect_map (Mark.moveOver_moveDown k) htoken, Mark.moveOver_moveDown]
  rfl

/-! ### Items at the end of a line -/

/-- A line feed may follow every item at the end of a text, but white space and a comment that is
never closed. -/
theorem Item.Fits.before_lineFeed {i : Item} {r : List Char} (h : i.Fits r)
    (hspaces : ∀ t, i ≠ .trivia (.spaces t)) (hclosed : ¬ i.isOpen = true) (s : List Char) :
    i.Fits (r ++ '\n' :: s) := by
  cases r with
  | cons c r => exact h.congr rfl
  | nil =>
    match i, h with
    | .trivia (.spaces t), _ => exact absurd rfl (hspaces t)
    | .trivia (.lineComment w), ⟨x, hw, hx, _⟩ => exact ⟨x, hw, hx, stops_cons.mpr (by decide)⟩
    | .trivia (.blockComment w), h => exact h
    | .trivia (.openComment w), _ => exact absurd rfl hclosed
    | .lexeme l, ⟨f, hf, h⟩ => exact ⟨f, hf, h.before_space (by decide)⟩
    | .invalid c, h => exact Form.Fits.before_space (f := .stray) h (by decide)

/-- What is found in a text is found up to the end of a line, and then behind it. -/
theorem Item.collect_lineBreak {β : Type} {f : Mark → Item → Option β} (hf : IgnoresSpaces f)
    {r : List Char} (hr : ¬ EndsOpen r) (m : Mark) (s : List Char) :
    collect f m (split (r ++ '\n' :: s)) =
      collect f m (split r) ++ collect f (m.moveOver (r ++ ['\n'])) (split s) := by
  induction r using fits_induction generalizing m with
  | nil =>
    have hspace : ∀ c ∈ ['\n'], Text.isSpace c = true := List.forall_mem_singleton.mpr (by decide)
    rw [split_nil, collect, List.nil_append, List.nil_append]
    exact collect_append_spaces hf hspace m s
  | item i r hi ih =>
    rw [endsOpen_append hi, not_or] at hr
    obtain ⟨hclosed, hr⟩ := hr
    have hrest := ih hr (m.moveOver i.text)
    rw [← Mark.moveOver_append, ← List.append_assoc] at hrest
    rw [List.append_assoc, collect_split_append hi]
    by_cases hspaces : ∃ t, i = .trivia (.spaces t)
    · -- white space may go on behind the text, and is not found either way
      obtain ⟨t, rfl⟩ := hspaces
      rw [hf, Option.toList_none, List.nil_append, ← hrest]
      exact collect_append_spaces hf hi.2.1 m _
    · have hfits := hi.before_lineFeed (fun t ht => hspaces ⟨t, ht⟩) hclosed s
      rw [collect_split_append hfits, hrest]
      simp only [List.append_assoc]

/-- Behind the end of a line, the place is the start of a line further down. -/
theorem Mark.place_behind_line (a : List Char) :
    ((⟨0, 1, 1, 0⟩ : Mark).moveOver (a ++ ['\n'])).place =
      ((⟨0, 1, 1, 0⟩ : Mark).moveDown (1 + a.count '\n')).place := by
  have hline := moveOver_line ⟨0, 1, 1, 0⟩ (a ++ ['\n'])
  have hcolumn := moveOver_column (m := ⟨0, 1, 1, 0⟩) rfl (a ++ ['\n'])
  rw [List.count_append, List.count_singleton_self] at hline
  rw [lastLine_concat, if_pos rfl] at hcolumn
  rw [place, place, hline, hcolumn]
  simp only [moveDown, List.length_nil]
  congr 2
  omega

/-- The tokens of a source that is cut at the end of a line. -/
theorem Item.tokens_lineBreak {a : List Char} (ha : ¬ EndsOpen a) (filename : String)
    (b : List Char) :
    tokens filename ⟨0, 1, 1, 0⟩ (split (a ++ '\n' :: b)) =
      (tokens filename ⟨0, 1, 1, 0⟩ (split a)).dropLast ++
        (tokens filename ⟨0, 1, 1, 0⟩ (split b)).map (Token.moveDown (1 + a.count '\n')) := by
  have hend : (⟨0, 1, 1, 0⟩ : Mark).moveOver (a ++ '\n' :: b) =
      ((⟨0, 1, 1, 0⟩ : Mark).moveOver (a ++ ['\n'])).moveOver b := by
    rw [← Mark.moveOver_append, List.append_assoc, List.singleton_append]
  have hsecond := tokens_congr_place (Mark.place_behind_line a) filename b
  rw [tokens_moveDown, tokens_split] at hsecond
  rw [← hsecond, tokens_split, tokens_split, List.dropLast_concat, hend,
    collect_lineBreak (ignoresSpaces_token? filename) ha, List.append_assoc]

/-! ### Faults by their tokens -/

namespace Fault.Blames

variable {a b : List Char} {filename : String} {t : Token} {f g : Fault}

/-- What a fault says of a token is fixed by the token and the source. -/
theorem unique (hf : f.Blames a filename t) (hg : g.Blames a filename t) : f = g := by
  obtain ⟨c, hc, hfc⟩ := hf.character
  obtain ⟨d, hd, hgd⟩ := hg.character
  obtain ⟨l, hl, hfl⟩ := hf.sourceLine
  obtain ⟨k, hk, hgk⟩ := hg.sourceLine
  obtain rfl : c = d := List.singleton_inj.mp (hc.symm.trans hd)
  obtain rfl : l = k := Option.some.inj (hl.symm.trans hk)
  obtain ⟨cause, location, sourceLine⟩ := f
  simp only at hfc hfl
  rw [hfc, hfl, show location = _ from hf.location, ← hgd, ← hgk, ← hg.location]

theorem before_lineBreak (h : f.Blames a filename t) (b : List Char) :
    f.Blames (a ++ '\n' :: b) filename t where
  character := h.character
  location := h.location
  sourceLine := by
    obtain ⟨l, hl, hf⟩ := h.sourceLine
    refine ⟨l, ?_, hf⟩
    obtain ⟨hlt, -⟩ := List.getElem?_eq_some_iff.mp hl
    rw [List.splitOn_append_cons_self, List.getElem?_append_left hlt, hl]

theorem behind_lineBreak (h : f.Blames b filename t) (ht : 1 ≤ t.line) (a : List Char) :
    (f.moveDown (1 + a.count '\n')).Blames (a ++ '\n' :: b) filename
      (t.moveDown (1 + a.count '\n')) where
  character := h.character
  location := by
    rw [Fault.moveDown, h.location]
    rfl
  sourceLine := by
    obtain ⟨l, hl, hf⟩ := h.sourceLine
    refine ⟨l, ?_, hf⟩
    -- the lines of the first part come first
    have hindex : (t.line + (1 + a.count '\n') - 1).toNat =
        (a.splitOn '\n').length + (t.line - 1).toNat := by
      rw [length_splitOn_newline]
      omega
    show ((a ++ '\n' :: b).splitOn '\n')[(t.line + (1 + a.count '\n') - 1).toNat]? = some l
    rw [hindex, List.splitOn_append_cons_self, List.getElem?_append_right (Nat.le_add_right _ _),
      Nat.add_sub_cancel_left, hl]

end Fault.Blames

namespace Lexer

theorem strays_lineBreak (filename : String) {a : List Char} (ha : ¬ EndsOpen a)
    (b : List Char) :
    strays (Item.tokens filename ⟨0, 1, 1, 0⟩ (Item.split (a ++ '\n' :: b))) =
      strays (Item.tokens filename ⟨0, 1, 1, 0⟩ (Item.split a)) ++
        (strays (Item.tokens filename ⟨0, 1, 1, 0⟩ (Item.split b))).map
          (Token.moveDown (1 + a.count '\n')) := by
  -- the end token of the first part is no stray character, so it may as well stay
  have hfirst : strays (Item.tokens filename ⟨0, 1, 1, 0⟩ (Item.split a)).dropLast =
      strays (Item.tokens filename ⟨0, 1, 1, 0⟩ (Item.split a)) := by
    rw [Item.tokens_split, List.dropLast_concat, strays, strays, List.filter_append]
    exact (List.append_nil _).symm
  rw [Item.tokens_lineBreak ha, strays, List.filter_append, List.filter_map]
  exact congrArg (· ++ _) hfirst

/-- No fault is suppressed when there is room for all. -/
theorem suppressed_eq_zero_iff (source : String) (filename : Option String) (options : Options) :
    (ofSource source filename options).tokenize.2.diagnostics.suppressed = 0 ↔
      (strays (ofSource source filename options).tokens).length ≤
        (max 0 options.maxErrors).toNat := by
  rw [suppressed_tokenize_ofSource, kept]
  omega

/-- When no fault is suppressed, all stray characters are blamed. -/
theorem forall₂_blames_of_suppressed (source : String) (filename : Option String)
    (options : Options)
    (h : (ofSource source filename options).tokenize.2.diagnostics.suppressed = 0) :
    List.Forall₂ (Fault.Blames source.toList (filename.getD options.filename))
      (strays (ofSource source filename options).tokens)
      (ofSource source filename options).tokenize.2.diagnostics.faults.toList := by
  have hkept : kept options.maxErrors (strays (ofSource source filename options).tokens).length =
      (strays (ofSource source filename options).tokens).length :=
    Nat.min_eq_left ((suppressed_eq_zero_iff source filename options).mp h)
  have hblames := forall₂_blames_tokenize source filename options
  rwa [hkept, List.take_length] at hblames

end Lexer

/-- The faults that a run over a source keeps. -/
def keptFaults (source : String) (filename : Option String) (options : Options) : List Fault :=
  (Lexer.ofSource source filename options).tokenize.2.diagnostics.faults.toList

/-- How many faults a run over a source does not keep. -/
def suppressedFaults (source : String) (filename : Option String) (options : Options) : Nat :=
  (Lexer.ofSource source filename options).tokenize.2.diagnostics.suppressed

/-- A stray character of a source is on one of its lines. -/
theorem one_le_line_of_mem_strays {source : String} {filename : Option String}
    {options : Options} {t : Token}
    (ht : t ∈ Lexer.strays (Lexer.ofSource source filename options).tokens) : 1 ≤ t.line := by
  have hplace := Item.place_le_of_mem_tokens (List.mem_of_mem_filter ht)
  rcases Prod.Lex.toLex_le_toLex.mp hplace with hline | ⟨hline, -⟩
  · exact hline.le
  · exact hline.le

/-- Of two sources on top of each other, the faults of the second are further down. -/
theorem keptFaults_lineBreak (first second : String) (filename : Option String)
    (options : Options) (h : ¬ EndsOpen first.toList)
    (hroom : suppressedFaults (first ++ "\n" ++ second) filename options = 0) :
    keptFaults (first ++ "\n" ++ second) filename options =
      keptFaults first filename options ++
        (keptFaults second filename options).map
          (Fault.moveDown (1 + first.toList.count '\n')) := by
  have hsource : (first ++ "\n" ++ second).toList = first.toList ++ '\n' :: second.toList := by
    simp
  have hstrays : Lexer.strays (Lexer.ofSource (first ++ "\n" ++ second) filename options).tokens =
      Lexer.strays (Lexer.ofSource first filename options).tokens ++
        (Lexer.strays (Lexer.ofSource second filename options).tokens).map
          (Token.moveDown (1 + first.toList.count '\n')) := by
    have hs := Lexer.strays_lineBreak (filename.getD options.filename) h second.toList
    rw [← hsource] at hs
    exact hs
  -- where there is room for all faults, there is room for those of each part
  have hlength := congrArg List.length hstrays
  rw [List.length_append, List.length_map] at hlength
  have hall := (Lexer.suppressed_eq_zero_iff _ filename options).mp hroom
  have hfirst := Lexer.forall₂_blames_of_suppressed first filename options
    ((Lexer.suppressed_eq_zero_iff _ filename options).mpr (by omega))
  have hsecond := Lexer.forall₂_blames_of_suppressed second filename options
    ((Lexer.suppressed_eq_zero_iff _ filename options).mpr (by omega))
  have hwhole := Lexer.forall₂_blames_of_suppressed _ filename options hroom
  rw [hstrays, hsource] at hwhole
  -- the faults of the parts blame the same tokens of the whole, and no others do
  have habove := hfirst.imp fun t f hf => hf.before_lineBreak second.toList
  have hbelow := ((List.forall₂_and_left _ _).mpr
    ⟨fun t ht => one_le_line_of_mem_strays ht, hsecond⟩).imp
      fun t f hf => hf.2.behind_lineBreak hf.1 first.toList
  have hparts := List.rel_append habove
    (List.forall₂_map_left_iff.mpr (List.forall₂_map_right_iff.mpr hbelow))
  exact List.right_unique_forall₂' (fun t f g hf hg => hf.unique hg) hwhole hparts

/-- **Sources compose line by line**: a source that does not end inside a block comment and one
below it have the tokens of both, and the faults of both as long as all faults are kept, those of
the second source further down by the lines of the first. -/
theorem tokenize_lineBreak (first second : String) (filename : Option String) (options : Options)
    (h : ¬ EndsOpen first.toList) :
    tokenize (first ++ "\n" ++ second) filename options =
        (tokenize first filename options).dropLast ++
          (tokenize second filename options).map
            (Token.moveDown (1 + first.toList.count '\n')) ∧
      (suppressedFaults (first ++ "\n" ++ second) filename options = 0 →
        keptFaults (first ++ "\n" ++ second) filename options =
          keptFaults first filename options ++
            (keptFaults second filename options).map
              (Fault.moveDown (1 + first.toList.count '\n'))) := by
  refine ⟨?_, keptFaults_lineBreak first second filename options h⟩
  have hsource : (first ++ "\n" ++ second).toList = first.toList ++ '\n' :: second.toList := by
    simp
  rw [tokenize_eq, tokenize_eq, tokenize_eq, hsource]
  exact Item.tokens_lineBreak h _ _

/-- The opener in the line comment opens nothing, and the star below it closes nothing. -/
theorem tokenize_lineBreak_lineComment :
    ¬ EndsOpen "x & // /*".toList ∧
      suppressedFaults "x & // /*\n*/ #" none {} = 0 ∧
      tokenize "x & // /*\n*/ #" =
        (tokenize "x & // /*").dropLast ++ (tokenize "*/ #").map (Token.moveDown 1) ∧
      keptFaults "x & // /*\n*/ #" none {} =
        keptFaults "x & // /*" none {} ++ (keptFaults "*/ #" none {}).map (Fault.moveDown 1) := by
  have hclosed : ¬ EndsOpen "x & // /*".toList := by decide +kernel
  have hroom : suppressedFaults "x & // /*\n*/ #" none {} = 0 := by decide +kernel
  obtain ⟨htokens, hfaults⟩ := tokenize_lineBreak "x & // /*" "*/ #" none {} hclosed
  exact ⟨hclosed, hroom, htokens, hfaults hroom⟩

end Lexis
