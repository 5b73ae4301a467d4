/-
Recovery from stray characters.

A character that starts nothing has a token of its own, and the scanner goes on behind it.  Nothing
else hangs on it: with a space written over it, that token is gone and all others are what they
were, at the same places (`tokenize_overwrite`).

A character is overwritten by its line and column, which is all that a token says.  Places go up
along a text, so no character of another piece has the place of a token (`Removable.of_hit`).  The
pieces that stay keep their forms, since the next character stays or becomes a space.
-/
import Lexis.Proofs.Mark
import Lexis.Proofs.Lexer.Run

namespace Lexis

open Text

/-- A text from a mark on, with a space over the character at the place of each given token. -/
def overwrite (gone : List Token) : Mark → List Char → List Char
  | _, [] => []
  | m, c :: r =>
    (if m.place ∈ gone.map Token.place then ' ' else c) :: overwrite gone (m.after c) r

variable {gone : List Token} {filename : String} {m : Mark} {i : Item} {l : Lexeme} {r : List Char}

theorem overwrite_append (m : Mark) (t r : List Char) :
    overwrite gone m (t ++ r) = overwrite gone m t ++ overwrite gone (m.moveOver t) r := by
  induction t generalizing m with
  | nil => rfl
  | cons c t ih => rw [List.cons_append, overwrite, ih, overwrite, List.cons_append,
      Mark.moveOver_cons]

theorem overwrite_eq_self {t : List Char}
    (h : ∀ u v, u ++ v = t → v ≠ [] → (m.moveOver u).place ∉ gone.map Token.place) :
    overwrite gone m t = t := by
  induction t generalizing m with
  | nil => rfl
  | cons c t ih =>
    have hc : m.place ∉ gone.map Token.place := h [] (c :: t) rfl (by simp)
    have ht : overwrite gone (m.after c) t = t := by
      refine ih fun u v huv hv => ?_
      rw [← Mark.moveOver_cons]
      exact h (c :: u) v (by rw [← huv, List.cons_append]) hv
    rw [overwrite, if_neg hc, ht]

theorem head?_overwrite (m : Mark) (r : List Char) :
    (overwrite gone m r).head? = r.head? ∨ (overwrite gone m r).head? = some ' ' := by
  match r with
  | [] => exact .inl rfl
  | c :: r =>
    rw [overwrite, List.head?_cons, List.head?_cons]
    split
    · exact .inr rfl
    · exact .inl rfl

/-! ### Tokens that can be removed -/

/-- The given tokens that do not stand in front of a text are among its invalid ones. -/
def Removable (gone : List Token) (filename : String) (m : Mark) (r : List Char) : Prop :=
  ∀ t ∈ gone, m.place ≤ t.place →
    t ∈ Item.tokens filename m (Item.split r) ∧ t.isInvalid = true

namespace Removable

/-- A given token is the token of the first item, or stands behind it. -/
theorem first_or_behind (h : Removable gone filename m (i.text ++ r)) (hi : i.Fits r) {t : Token}
    (ht : t ∈ gone) (hle : m.place ≤ t.place) :
    (∃ l, i.lexeme? = some l ∧ t = l.token filename m) ∨
      t ∈ Item.tokens filename (m.moveOver i.text) (Item.split r) := by
  have hmem := (h t ht hle).1
  rw [Item.split_append hi, Item.tokens, List.mem_append] at hmem
  refine hmem.imp_left fun hfirst => ?_
  obtain ⟨l, hl, rfl⟩ := Option.map_eq_some_iff.mp (Option.mem_toList.mp hfirst)
  exact ⟨l, hl, rfl⟩

theorem behind (h : Removable gone filename m (i.text ++ r)) (hi : i.Fits r) :
    Removable gone filename (m.moveOver i.text) r := by
  intro t ht hle
  have hlt := m.place_lt_moveOver hi.text_ne_nil
  refine ⟨?_, (h t ht (hlt.le.trans hle)).2⟩
  rcases h.first_or_behind hi ht (hlt.le.trans hle) with ⟨l, -, rfl⟩ | hmem
  · exact absurd hlt (not_lt_of_ge hle)
  · exact hmem

/-- A given token at the place of a character of the first item is the token of that item. -/
theorem of_hit (h : Removable gone filename m (i.text ++ r)) (hi : i.Fits r) {t : Token}
    (ht : t ∈ gone) {u v : List Char} (huv : u ++ v = i.text) (hv : v ≠ [])
    (hplace : t.place = (m.moveOver u).place) :
    ∃ l, i.lexeme? = some l ∧ t = l.token filename m := by
  have hle : m.place ≤ t.place := by
    rw [hplace]
    exact m.place_le_moveOver u
  rcases h.first_or_behind hi ht hle with hfirst | hmem
  · exact hfirst
  · have hlt := (m.moveOver u).place_lt_moveOver hv
    rw [← Mark.moveOver_append, huv, ← hplace] at hlt
    exact absurd hlt (not_lt_of_ge (Item.place_le_of_mem_tokens hmem))

theorem head?_overwrite_of_space (h : Removable gone filename m r) {c : Char}
    (hc : isSpace c = true) (hr : r.head? = some c) :
    (overwrite gone m r).head? = some c := by
  induction r using Item.fits_induction generalizing m with
  | nil => cases hr
  | item i r hi _ =>
    obtain ⟨s, hs⟩ := List.head?_eq_some_iff.mp hr
    obtain ⟨d, v, hv⟩ := List.exists_cons_of_ne_nil hi.text_ne_nil
    obtain ⟨rfl, -⟩ : d = c ∧ v ++ r = s := by simpa [hv] using hs
    -- a token at this place would be that of the first item, which is white space
    have hmiss : m.place ∉ gone.map Token.place := by
      intro hmem
      obtain ⟨t, ht, hplace⟩ := List.mem_map.mp hmem
      obtain ⟨l, hl, -⟩ := h.of_hit hi ht (List.nil_append _) (by simp [hv]) hplace
      obtain ⟨f, hf⟩ := Item.exists_form_of_lexeme? hi hl
      have hd : d ∈ l.text := by simp [Item.text_of_lexeme? hl, hv]
      rw [f.not_isSpace_of_mem hf hd] at hc
      cases hc
    rw [hs, overwrite, if_neg hmiss, List.head?_cons]

end Removable

/-! ### The items of an overwritten text -/

/-- An item stays as it is when its token does. -/
theorem overwrite_item (h : Removable gone filename m (i.text ++ r)) (hi : i.Fits r)
    (hstay : ∀ l, i.lexeme? = some l → l.token filename m ∉ gone) :
    overwrite gone m i.text = i.text := by
  refine overwrite_eq_self fun u v huv hv hmem => ?_
  obtain ⟨t, ht, hplace⟩ := List.mem_map.mp hmem
  obtain ⟨l, hl, rfl⟩ := h.of_hit hi ht huv hv hplace
  exact hstay l hl ht

/-- An item whose token goes is a stray character, and becomes a space. -/
theorem exists_overwrite_stray (h : Removable gone filename m (i.text ++ r)) (hi : i.Fits r)
    (hl : i.lexeme? = some l) (hgoes : l.token filename m ∈ gone) :
    ∃ c, i.text = [c] ∧ c ≠ '\n' ∧ overwrite gone m i.text = [' '] := by
  have hinvalid : (l.token filename m).isInvalid = true := (h _ hgoes le_rfl).2
  obtain ⟨f, hf⟩ := Item.exists_form_of_lexeme? hi hl
  obtain rfl : f = .stray := by
    by_contra hne
    exact f.not_isInvalid_token hf hne filename m hinvalid
  obtain ⟨c, htext, -, hc⟩ := hf
  have hhit : m.place ∈ gone.map Token.place := List.mem_map.mpr ⟨_, hgoes, rfl⟩
  refine ⟨c, ?_, ?_, ?_⟩
  · rw [← Item.text_of_lexeme? hl, htext]
  · rintro rfl
    exact absurd hc.not_space (by decide)
  · rw [← Item.text_of_lexeme? hl, htext, overwrite, if_pos hhit, overwrite]

theorem Trivia.Fits.before_overwrite {t : Trivia} (ht : t.Fits r) (hspaces : ∀ w, t ≠ .spaces w)
    (h : Removable gone filename m r) : t.Fits (overwrite gone m r) := by
  match t, ht with
  | .spaces w, _ => exact absurd rfl (hspaces w)
  | .lineComment w, ⟨x, hw, hx, hr⟩ =>
    refine ⟨x, hw, hx, ?_⟩
    match r with
    | [] => exact stops_nil _
    | c :: r =>
      -- the line feed that ends the comment is white space, and stays
      obtain rfl : c = '\n' := by simpa using hr
      have hhead := h.head?_overwrite_of_space (c := '\n') (by decide) rfl
      intro d hd
      rw [hhead, Option.mem_some_iff] at hd
      simp [← hd]
  | .blockComment w, hw => exact hw
  | .openComment w, ⟨x, hw, hx, hr⟩ =>
    subst hr
    exact ⟨x, hw, hx, rfl⟩

theorem tokens_trivia_overwrite {t : Trivia} (ht : t.Fits r) (n : Mark)
    (h : Removable gone filename n r) (m : Mark) :
    Item.tokens filename m (Item.split (t.text ++ overwrite gone n r)) =
      Item.tokens filename (m.moveOver t.text) (Item.split (overwrite gone n r)) := by
  by_cases hspaces : ∃ w, t = .spaces w
  · -- white space might now go on in the text, but leaves no token either way
    obtain ⟨w, rfl⟩ := hspaces
    exact Item.tokens_append_spaces ht.2.1 filename m _
  · have hfits : (Item.trivia t).Fits (overwrite gone n r) :=
      ht.before_overwrite (fun w hw => hspaces ⟨w, hw⟩) h
    rw [← Item.text, Item.split_append hfits, Item.tokens_of_trivia rfl]

/-! ### The stream of an overwritten source -/

/-- The tokens of an overwritten text are those that stay. -/
theorem tokens_overwrite (h : Removable gone filename m r) :
    Item.tokens filename m (Item.split (overwrite gone m r)) =
      (Item.tokens filename m (Item.split r)).filter (· ∉ gone) := by
  induction r using Item.fits_induction generalizing m with
  | nil =>
    have hend : endTokenAt filename m ∉ gone := by
      intro hmem
      have hinvalid := (h _ hmem le_rfl).2
      cases hinvalid
    rw [overwrite, Item.split_nil, Item.tokens, List.filter_cons_of_pos (by simpa using hend),
      List.filter_nil]
  | item i r hi ih =>
    have hrest := ih (h.behind hi)
    rw [overwrite_append, Item.split_append hi]
    cases hl : i.lexeme? with
    | none =>
      obtain ⟨t, rfl⟩ := Item.exists_trivia_of_lexeme? hl
      rw [overwrite_item h hi (by simp [hl]), Item.tokens_of_trivia hl, ← hrest, Item.text]
      exact tokens_trivia_overwrite hi _ (h.behind hi) m
    | some l =>
      rw [Item.tokens_of_lexeme hl]
      by_cases hgoes : l.token filename m ∈ gone
      · -- the space goes with the trivia, and moves the place as far as the character did
        obtain ⟨c, hc, hnewline, hspace⟩ := exists_overwrite_stray h hi hl hgoes
        have hmove : m.moveOver [' '] = m.moveOver i.text := by
          simp [hc, Mark.after, hnewline]
        rw [List.filter_cons_of_neg (by simpa using hgoes), ← hrest, hspace,
          Item.tokens_append_spaces (List.forall_mem_singleton.mpr (by decide)), hmove]
      · have hstay : overwrite gone m i.text = i.text := by
          refine overwrite_item h hi fun k hk => ?_
          rw [hl, Option.some_inj] at hk
          rwa [← hk]
        have hfits : i.Fits (overwrite gone (m.moveOver i.text) r) :=
          Item.fits_of_lexeme? hi hl fun f hf => hf.before_spaced (head?_overwrite _ r)
        rw [List.filter_cons_of_pos (by simpa using hgoes), ← hrest, hstay,
          Item.split_append hfits, Item.tokens_of_lexeme hl]

/-- A source with a space over the character of each given token. -/
def overwriteSource (gone : List Token) (source : String) : String :=
  String.ofList (overwrite gone ⟨0, 1, 1, 0⟩ source.toList)

/-- **Recovery is local**: when stray characters are overwritten by spaces, their tokens are gone
and all others are the same, at the same places. -/
theorem tokenize_overwrite (source : String) (filename : Option String) (options : Options)
    (gone : List Token)
    (h : gone ⊆ (tokenize source filename options).filter (·.isInvalid)) :
    tokenize (overwriteSource gone source) filename options =
      (tokenize source filename options).filter (· ∉ gone) := by
  have hremovable : Removable gone (filename.getD options.filename) ⟨0, 1, 1, 0⟩ source.toList := by
    intro t ht _
    have hmem := List.mem_filter.mp (h ht)
    rwa [tokenize_eq] at hmem
  rw [tokenize_eq, tokenize_eq, overwriteSource, String.toList_ofList]
  exact tokens_overwrite hremovable

/-- The ampersand behind a conjunction goes, and the at sign stays. -/
theorem tokenize_overwrite_ampersand :
    [⟨.invalid, "&", 1, 4, unnamedSource⟩] ⊆ (tokenize "x&&&y@").filter (·.isInvalid) ∧
      overwriteSource [⟨.invalid, "&", 1, 4, unnamedSource⟩] "x&&&y@" = "x&& y@" ∧
      tokenize "x&& y@" =
        (tokenize "x&&&y@").filter (· ∉ [⟨.invalid, "&", 1, 4, unnamedSource⟩]) := by
  have hgone : [⟨.invalid, "&", 1, 4, unnamedSource⟩] ⊆
      (tokenize "x&&&y@").filter (·.isInvalid) := by decide +kernel
  have hsource :
      overwriteSource [⟨.invalid, "&", 1, 4, unnamedSource⟩] "x&&&y@" = "x&& y@" := by decide
  refine ⟨hgone, hsource, ?_⟩
  rw [← hsource]
  exact tokenize_overwrite _ _ _ _ hgone

end Lexis
