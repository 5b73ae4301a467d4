/-
Pieces written out and read again.

Pieces are written one behind the other with white space in between, or nothing.  Read again, they
are the same pieces exactly when no two fuse that nothing stands between (`relex_iff`).

A source with spaces between its pieces is a decomposition (`Decomposition.spaced`), and it goes by
maximal munch when no pieces fuse.  So in one direction it is the one decomposition of its source.
In the other direction the scanner's decomposition has the right pieces, but its gaps might hold
comments that swallowed some of the text.  Counting characters excludes this: the pieces alone use
up everything that is not white space (`Decomposition.ink`), so nothing is left for a comment.
-/
import Lexis.Proofs.Decomposition
import Lexis.Proofs.Item.Fusion

namespace Lexis

open Text

/-- The piece that a token is made of. -/
def Token.piece (t : Token) : Lexeme :=
  ⟨t.kind, t.text.toList⟩

/-- Some source has a token, other than the end token, that is made of the piece. -/
def Lexeme.Occurs (l : Lexeme) : Prop :=
  ∃ (source : String) (filename : Option String) (options : Options),
    ∃ t ∈ tokenize source filename options, t.isEnd = false ∧ t.piece = l

theorem Item.isPiece_of_mem_tokens {filename : String} {m : Mark} {r : List Char} {t : Token}
    (ht : t ∈ tokens filename m (split r)) (hend : t.isEnd = false) : t.piece.IsPiece := by
  induction r using fits_induction generalizing m with
  | nil =>
    rw [split_nil] at ht
    obtain rfl := List.mem_singleton.mp ht
    cases hend
  | item i r h ih =>
    rw [split_append h, tokens, List.mem_append] at ht
    rcases ht with ht | ht
    · obtain ⟨l, hl, rfl⟩ := Option.map_eq_some_iff.mp (Option.mem_toList.mp ht)
      obtain ⟨f, hf⟩ := exists_form_of_lexeme? h hl
      have hpiece : (l.token filename m).piece = l := by
        rw [Token.piece, Lexeme.token, String.toList_ofList]
      rw [hpiece]
      exact ⟨f, r, hf⟩
    · exact ih ht

/-- A text is made of tokens exactly when it has a form. -/
theorem Lexeme.occurs_iff {l : Lexeme} : l.Occurs ↔ l.IsPiece := by
  constructor
  · rintro ⟨source, filename, options, t, ht, hend, rfl⟩
    rw [tokenize_eq] at ht
    exact Item.isPiece_of_mem_tokens ht hend
  · rintro ⟨f, r, hf⟩
    obtain ⟨i, hi, hl⟩ := Item.exists_of_form hf
    have hmem : l.token "" ⟨0, 1, 1, 0⟩ ∈
        tokenize (String.ofList (i.text ++ r)) (some "") {} := by
      rw [tokenize_eq, String.toList_ofList, Item.split_append hi, Item.tokens_of_lexeme hl]
      exact List.mem_cons_self
    refine ⟨_, _, _, _, hmem, ?_, ?_⟩
    · exact decide_eq_false (f.kind_ne_endOfInput hf)
    · rw [Token.piece, Lexeme.token, String.toList_ofList]

theorem Lexeme.IsPiece.stops {l : Lexeme} (hl : l.IsPiece) (q : List Char) :
    Stops isSpace (l.text ++ q) := by
  obtain ⟨f, r, hf⟩ := hl
  obtain ⟨c, t, ht⟩ := List.exists_cons_of_ne_nil (f.text_ne_nil hf)
  rw [ht, List.cons_append, stops_cons]
  exact f.not_isSpace_of_mem hf (by simp [ht])

namespace Decomposition

/-! ### Pieces with spaces in between -/

/-- White space, and pieces with white space behind each. -/
def spaced : List Char → List (Lexeme × List Char) → Decomposition
  | w, [] => .last w
  | w, p :: ps => .piece w p.1 (spaced p.2 ps)

theorem text_spaced (w : List Char) (ps : List (Lexeme × List Char)) :
    (spaced w ps).text = w ++ ps.flatMap fun p => p.1.text ++ p.2 := by
  induction ps generalizing w with
  | nil => exact (List.append_nil w).symm
  | cons p ps ih =>
    rw [spaced, text, ih, List.flatMap_cons]
    simp only [List.append_assoc]

theorem pieces_spaced (w : List Char) (ps : List (Lexeme × List Char)) :
    (spaced w ps).pieces = ps.map Prod.fst := by
  induction ps generalizing w with
  | nil => rfl
  | cons p ps ih => rw [spaced, pieces, ih, List.map_cons]

theorem gap_of_spaces {w : List Char} (hw : ∀ c ∈ w, isSpace c = true) (r : List Char) :
    Gap w r := by
  have h : Gap (w ++ []) r := Gap.nil.append_spaces hw
  rwa [List.append_nil] at h

theorem existsUnique_form_iff {l : Lexeme} {r : List Char} :
    (∃! f : Form, f.Fits l r) ↔ ∃ f : Form, f.Fits l r :=
  ⟨ExistsUnique.exists, fun ⟨f, hf⟩ => ⟨f, hf, fun _ hg => Form.unique hg hf⟩⟩

/-- A piece in front of white space and another piece keeps its form, unless there is no white
space and the two fuse. -/
theorem exists_fits_iff_of_spaces {l m : Lexeme} (hl : l.IsPiece) (hm : m.IsPiece) {v : List Char}
    (hv : ∀ c ∈ v, isSpace c = true) (q : List Char) :
    (∃ f : Form, f.Fits l (v ++ (m.text ++ q))) ↔ (v = [] → ¬ l.Fuses m) := by
  match v with
  | [] => simpa using exists_fits_append_iff hl hm q
  | c :: v =>
    obtain ⟨f, r, hf⟩ := hl
    constructor
    · intro _ h
      cases h
    · intro _
      exact ⟨f, hf.before_space (hv c (by simp))⟩

theorem exists_fits_of_last {l : Lexeme} (hl : l.IsPiece) {v : List Char}
    (hv : ∀ c ∈ v, isSpace c = true) : ∃ f : Form, f.Fits l v := by
  obtain ⟨f, r, hf⟩ := hl
  match v with
  | [] => exact ⟨f, hf.at_end⟩
  | c :: v => exact ⟨f, hf.before_space (hv c (by simp))⟩

/-- Pieces with spaces in between are cut up by maximal munch when no two fuse that nothing stands
between. -/
theorem isMaximalMunch_spaced_iff {w : List Char} {ps : List (Lexeme × List Char)}
    (hw : ∀ c ∈ w, isSpace c = true)
    (hps : ∀ p ∈ ps, p.1.IsPiece ∧ ∀ c ∈ p.2, isSpace c = true) :
    (spaced w ps).IsMaximalMunch ↔ ps.IsChain fun p q => p.2 = [] → ¬ p.1.Fuses q.1 := by
  induction ps generalizing w with
  | nil =>
    have hlast : LastGap w := ⟨w, [], (List.append_nil w).symm, gap_of_spaces hw [], .inl rfl⟩
    exact ⟨fun _ => .nil, fun _ => hlast⟩
  | cons p ps ih =>
    obtain ⟨hp, hv⟩ := hps p (by simp)
    have hrest : ∀ q ∈ ps, q.1.IsPiece ∧ ∀ c ∈ q.2, isSpace c = true :=
      fun q hq => hps q (by simp [hq])
    have hgap := gap_of_spaces hw (p.1.text ++ (spaced p.2 ps).text)
    rw [spaced, IsMaximalMunch, existsUnique_form_iff, ih hv hrest, and_iff_right hgap]
    match ps with
    | [] => simpa [spaced, text] using exists_fits_of_last hp hv
    | q :: ps =>
      have hfits := exists_fits_iff_of_spaces hp (hrest q (by simp)).1 hv (spaced q.2 ps).text
      rw [List.isChain_cons_cons, ← hfits, spaced, text, List.append_assoc]

/-! ### Counting what is not white space -/

/-- The number of characters that are not white space. -/
def ink (t : List Char) : Nat :=
  t.countP fun c => !isSpace c

theorem ink_append (t u : List Char) : ink (t ++ u) = ink t + ink u := List.countP_append

theorem ink_eq_zero_iff {t : List Char} : ink t = 0 ↔ ∀ c ∈ t, isSpace c = true := by
  simp [ink, List.countP_eq_zero]

theorem ink_of_isPiece {l : Lexeme} (hl : l.IsPiece) : ink l.text = l.text.length := by
  obtain ⟨f, r, hf⟩ := hl
  rw [ink, List.countP_eq_length]
  intro c hc
  rw [f.not_isSpace_of_mem hf hc]
  rfl

/-- Pieces use up some of what is not white space. -/
theorem length_pieces_le_ink {d : Decomposition} (hd : ∀ l ∈ d.pieces, l.IsPiece) :
    (d.pieces.flatMap Lexeme.text).length ≤ ink d.text := by
  induction d with
  | last g => exact Nat.zero_le _
  | piece g l d ih =>
    have hl := ink_of_isPiece (hd l (by simp [pieces]))
    have hrest := ih fun m hm => hd m (by simp [pieces, hm])
    rw [pieces, List.flatMap_cons, List.length_append, text, ink_append, ink_append, hl]
    omega

/-- With spaces in between, pieces use up all of it. -/
theorem ink_text_spaced {w : List Char} {ps : List (Lexeme × List Char)}
    (hw : ∀ c ∈ w, isSpace c = true)
    (hps : ∀ p ∈ ps, p.1.IsPiece ∧ ∀ c ∈ p.2, isSpace c = true) :
    ink (spaced w ps).text = ((ps.map Prod.fst).flatMap Lexeme.text).length := by
  induction ps generalizing w with
  | nil => exact ink_eq_zero_iff.mpr hw
  | cons p ps ih =>
    obtain ⟨hp, hv⟩ := hps p (by simp)
    have hrest := ih hv fun q hq => hps q (by simp [hq])
    rw [spaced, text, ink_append, ink_append, ink_eq_zero_iff.mpr hw, ink_of_isPiece hp, hrest,
      List.map_cons, List.flatMap_cons, List.length_append]
    omega

/-- A decomposition into the same pieces has the same white space between them. -/
theorem eq_spaced {d : Decomposition} {w : List Char} {ps : List (Lexeme × List Char)}
    (hw : ∀ c ∈ w, isSpace c = true)
    (hps : ∀ p ∈ ps, p.1.IsPiece ∧ ∀ c ∈ p.2, isSpace c = true)
    (hpieces : d.pieces = ps.map Prod.fst) (htext : d.text = (spaced w ps).text) :
    d = spaced w ps := by
  induction ps generalizing w d with
  | nil =>
    cases d with
    | last g => exact congrArg Decomposition.last htext
    | piece g l d => simp [pieces] at hpieces
  | cons p ps ih =>
    cases d with
    | last g => simp [pieces] at hpieces
    | piece g l d =>
      obtain ⟨hp, hv⟩ := hps p (by simp)
      have hrest : ∀ q ∈ ps, q.1.IsPiece ∧ ∀ c ∈ q.2, isSpace c = true :=
        fun q hq => hps q (by simp [hq])
      rw [pieces, List.map_cons, List.cons_eq_cons] at hpieces
      obtain ⟨rfl, hpieces⟩ := hpieces
      rw [spaced, text, text] at htext
      -- nothing but white space is left for the first gap
      have hg : ∀ c ∈ g, isSpace c = true := by
        have hle := length_pieces_le_ink (d := d) (by
          intro m hm
          rw [hpieces] at hm
          obtain ⟨q, hq, rfl⟩ := List.mem_map.mp hm
          exact (hrest q hq).1)
        have hink := congrArg ink htext
        simp only [ink_append, ink_eq_zero_iff.mpr hw, ink_text_spaced hv hrest] at hink
        rw [hpieces] at hle
        exact ink_eq_zero_iff.mp (by omega)
      -- both gaps are the white space that the text begins with
      have hgw : g = w := by
        have h := congrArg (List.takeWhile isSpace) htext
        rwa [List.append_assoc, List.append_assoc, takeWhile_append_of_stops hg (hp.stops _),
          takeWhile_append_of_stops hw (hp.stops _)] at h
      subst hgw
      rw [List.append_cancel_left_eq] at htext
      rw [spaced, ← ih hv hrest hpieces htext]

/-- The pieces of a source are those that it was put together from exactly when they do not
fuse. -/
theorem pieces_ofItems_iff {w : List Char} {ps : List (Lexeme × List Char)}
    (hw : ∀ c ∈ w, isSpace c = true)
    (hps : ∀ p ∈ ps, p.1.IsPiece ∧ ∀ c ∈ p.2, isSpace c = true) :
    (ofItems (Item.split (spaced w ps).text)).pieces = ps.map Prod.fst ↔
      ps.IsChain fun p q => p.2 = [] → ¬ p.1.Fuses q.1 := by
  rw [← isMaximalMunch_spaced_iff hw hps]
  constructor
  · intro h
    have hmunch := isMaximalMunch_ofItems (spaced w ps).text
    rwa [eq_spaced hw hps h (text_ofItems _)] at hmunch
  · intro h
    rw [← eq_ofItems h, pieces_spaced]

end Decomposition

theorem isChain_of_ne_nil {ps : List (Lexeme × List Char)} (h : ∀ p ∈ ps.dropLast, p.2 ≠ []) :
    ps.IsChain fun p q => ¬ (p.2 = [] ∧ p.1.Fuses q.1) := by
  induction ps with
  | nil => exact .nil
  | cons p ps ih =>
    match ps, ih with
    | [], _ => exact .singleton p
    | q :: ps, ih =>
      rw [List.dropLast_cons_cons] at h
      refine List.isChain_cons_cons.mpr ⟨?_, ih fun p hp => h p (List.mem_cons_of_mem _ hp)⟩
      intro hfuses
      exact h p List.mem_cons_self hfuses.1

/-- White space, and pieces with white space behind each, as one text. -/
def spacedText (w : List Char) (ps : List (Lexeme × List Char)) : List Char :=
  w ++ ps.flatMap fun p => p.1.text ++ p.2

/-- **Pieces that are written out are read again** exactly when no two fuse that nothing stands
between; and so in any case when there is white space between any two. -/
theorem relex_iff (w : List Char) (ps : List (Lexeme × List Char)) (filename : Option String)
    (options : Options) (hw : ∀ c ∈ w, isSpace c = true)
    (hps : ∀ p ∈ ps, p.1.Occurs ∧ ∀ c ∈ p.2, isSpace c = true) :
    ((tokenize (String.ofList (spacedText w ps)) filename options).map Token.piece =
        ps.map Prod.fst ++ [⟨.endOfInput, []⟩] ↔
      ps.IsChain fun p q => ¬ (p.2 = [] ∧ p.1.Fuses q.1)) ∧
    ((∀ p ∈ ps.dropLast, p.2 ≠ []) →
      (tokenize (String.ofList (spacedText w ps)) filename options).map Token.piece =
        ps.map Prod.fst ++ [⟨.endOfInput, []⟩]) := by
  have hpieces : ∀ p ∈ ps, p.1.IsPiece ∧ ∀ c ∈ p.2, isSpace c = true := by
    intro p hp
    exact ⟨Lexeme.occurs_iff.mp (hps p hp).1, (hps p hp).2⟩
  have htokens : (tokenize (String.ofList (spacedText w ps)) filename options).map Token.piece =
      (Decomposition.ofItems (Item.split (Decomposition.spaced w ps).text)).pieces ++
        [⟨.endOfInput, []⟩] := by
    rw [tokenize_eq, String.toList_ofList, Decomposition.text_spaced]
    exact Decomposition.map_tokens _ _ _
  have hiff : ((tokenize (String.ofList (spacedText w ps)) filename options).map Token.piece =
        ps.map Prod.fst ++ [⟨.endOfInput, []⟩]) ↔
      ps.IsChain fun p q => ¬ (p.2 = [] ∧ p.1.Fuses q.1) := by
    simp only [not_and]
    rw [htokens, List.append_cancel_right_eq, Decomposition.pieces_ofItems_iff hw hpieces]
  refine ⟨hiff, ?_⟩
  intro hne
  exact hiff.mpr (isChain_of_ne_nil hne)

/-- A conjunction and two lone ampersands, the last of which has a space in front of it. -/
theorem relex_ampersands :
    (tokenize "\n&&& &").map Token.piece =
      [⟨.operator .and, ['&', '&']⟩, ⟨.invalid, ['&']⟩, ⟨.invalid, ['&']⟩, ⟨.endOfInput, []⟩] := by
  have hw : ∀ c ∈ ['\n'], isSpace c = true := List.forall_mem_singleton.mpr (by decide)
  have hps : ∀ p ∈ [((⟨.operator .and, ['&', '&']⟩, []) : Lexeme × List Char),
      (⟨.invalid, ['&']⟩, [' ']), (⟨.invalid, ['&']⟩, [])],
      p.1.Occurs ∧ ∀ c ∈ p.2, isSpace c = true := by
    intro p hp
    constructor
    · refine ⟨"&& &", none, {}, ?_⟩
      revert p
      decide +kernel
    · simp only [List.mem_cons, List.not_mem_nil, or_false] at hp
      rcases hp with rfl | rfl | rfl
      · exact List.forall_mem_nil _
      · exact List.forall_mem_singleton.mpr (by decide)
      · exact List.forall_mem_nil _
  exact (relex_iff _ _ none {} hw hps).1.mpr (by decide)

end Lexis
