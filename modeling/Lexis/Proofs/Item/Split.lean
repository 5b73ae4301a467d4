/-
A text as the list of its items.

`Item.split` cuts a text into its items.  The scanner goes along this list, so that what it does is
a fold over items and all else is a matter of texts:

* `Item.split_append` — an item that fits comes first;
* `Item.fits_induction` — every text is built up from its end by items that fit;
* `Item.flatMap_text_split` — nothing is lost.
-/
import Lexis.Proofs.Item.First

namespace Lexis.Item

/-- The items of a text, in order. -/
def split (r : List Char) : List Item :=
  match _h : first? r with
  | none => []
  | some i => i :: split (r.drop i.text.length)
termination_by r.length
decreasing_by exact length_drop_lt _h

/-- The piece with a token that an item is, if it is one. -/
def lexeme? : Item → Option Lexeme
  | .trivia _ => none
  | .lexeme l => some l
  | .invalid c => some ⟨.invalid, [c]⟩

@[simp] theorem split_nil : split [] = [] := by
  rw [split]
  rfl

theorem split_append {i : Item} {r : List Char} (h : i.Fits r) :
    split (i.text ++ r) = i :: split r := by
  have hi := first?_of_fits h
  rw [split]
  split
  · rename_i hn
    rw [hi] at hn
    cases hn
  · rename_i j hj
    obtain rfl : i = j := Option.some.inj (hi.symm.trans hj)
    rw [List.drop_left]

/-- An item that may stand at the end of a text is all of its own text. -/
theorem split_text {i : Item} (h : i.Fits []) : split i.text = [i] := by
  have happend := split_append h
  rwa [List.append_nil, split_nil] at happend

theorem first?_eq_none {r : List Char} (h : first? r = none) : r = [] := by
  cases r with
  | nil => rfl
  | cons c r =>
    simp only [first?] at h
    split at h
    · cases h
    · split at h <;> cases h

/-- Induction over a text by its items, from the end. -/
theorem fits_induction {motive : List Char → Prop} (nil : motive [])
    (item : ∀ (i : Item) (r : List Char), i.Fits r → motive r → motive (i.text ++ r))
    (r : List Char) : motive r := by
  induction hn : r.length using Nat.strongRecOn generalizing r with
  | _ n ih =>
    cases hi : first? r with
    | none =>
      rw [first?_eq_none hi]
      exact nil
    | some i =>
      -- the first item is not empty, so what is behind it is shorter
      have hne := text_ne_nil hi
      obtain ⟨s, rfl, hs⟩ := exists_fits_of_first? hi
      have hlt : s.length < n := by
        have := List.length_pos_iff.mpr hne
        simp only [List.length_append] at hn
        omega
      exact item i s hs (ih s.length hlt s rfl)

/-- The items of a text put together are the text. -/
theorem flatMap_text_split (r : List Char) : (split r).flatMap text = r := by
  induction r using fits_induction with
  | nil => simp
  | item i r h ih => rw [split_append h, List.flatMap_cons, ih]

/-- The text of a piece is the text of its item. -/
theorem text_of_lexeme? {i : Item} {l : Lexeme} (h : i.lexeme? = some l) : l.text = i.text := by
  cases i with
  | trivia t => cases h
  | lexeme l => cases h; rfl
  | invalid c => cases h; rfl

theorem exists_trivia_of_lexeme? {i : Item} (h : i.lexeme? = none) : ∃ t, i = .trivia t := by
  cases i with
  | trivia t => exact ⟨t, rfl⟩
  | lexeme l => cases h
  | invalid c => cases h

/-- A piece with a token has one of the forms. -/
theorem exists_form_of_lexeme? {i : Item} {r : List Char} (hi : i.Fits r) {l : Lexeme}
    (h : i.lexeme? = some l) : ∃ f : Form, f.Fits l r := by
  cases i with
  | trivia t => cases h
  | lexeme m =>
    cases h
    obtain ⟨f, -, hf⟩ := hi
    exact ⟨f, hf⟩
  | invalid c =>
    cases h
    exact ⟨.stray, hi⟩

/-- The item of a piece fits wherever the piece keeps its form. -/
theorem fits_of_lexeme? {i : Item} {l : Lexeme} {r s : List Char} (hi : i.Fits r)
    (hl : i.lexeme? = some l) (hs : ∀ f : Form, f.Fits l r → f.Fits l s) : i.Fits s := by
  match i, hi with
  | .trivia t, _ => exact absurd hl (by simp [lexeme?])
  | .lexeme m, ⟨f, hf, hm⟩ =>
    obtain rfl : m = l := Option.some.inj hl
    exact ⟨f, hf, hs f hm⟩
  | .invalid c, hc =>
    obtain rfl : ⟨.invalid, [c]⟩ = l := Option.some.inj hl
    exact hs .stray hc

/-- A piece that has a form is the piece of an item. -/
theorem exists_of_form {f : Form} {l : Lexeme} {r : List Char} (h : f.Fits l r) :
    ∃ i : Item, i.Fits r ∧ i.lexeme? = some l := by
  by_cases hf : f = .stray
  · subst hf
    obtain ⟨kind, text⟩ := l
    obtain ⟨c, rfl, rfl, hc⟩ := h
    exact ⟨.invalid c, ⟨c, rfl, rfl, hc⟩, rfl⟩
  · exact ⟨.lexeme l, ⟨f, hf, h⟩, rfl⟩

/-- A white-space character in front of a text makes an item of its own, or joins the white space
that the text begins with. -/
theorem split_space_cons {c : Char} (hc : Text.isSpace c = true) (r : List Char) :
    split (c :: r) = .trivia (.spaces [c]) :: split r ∨
      ∃ t is, split r = .trivia (.spaces t) :: is ∧
        split (c :: r) = .trivia (.spaces (c :: t)) :: is := by
  have hall : ∀ d ∈ r.takeWhile Text.isSpace, Text.isSpace d = true :=
    List.all_eq_true.mp List.all_takeWhile
  have hrest := stops_dropWhile Text.isSpace r
  by_cases ht : r.takeWhile Text.isSpace = []
  · -- no white space follows, and the character stands alone
    left
    have hfits : (Item.trivia (.spaces [c])).Fits r := by
      refine ⟨by simp, by simpa using hc, ?_⟩
      rwa [← List.takeWhile_append_dropWhile (p := Text.isSpace) (l := r), ht]
    exact split_append hfits
  · -- the character goes in front of the run that follows
    right
    refine ⟨r.takeWhile Text.isSpace, split (r.dropWhile Text.isSpace), ?_, ?_⟩
    · have hfits : (Item.trivia (.spaces (r.takeWhile Text.isSpace))).Fits
          (r.dropWhile Text.isSpace) := ⟨ht, hall, hrest⟩
      rw [← split_append hfits, text, Trivia.text, List.takeWhile_append_dropWhile]
    · have hfits : (Item.trivia (.spaces (c :: r.takeWhile Text.isSpace))).Fits
          (r.dropWhile Text.isSpace) := ⟨by simp, by simpa [hc] using hall, hrest⟩
      rw [← split_append hfits, text, Trivia.text, List.cons_append,
        List.takeWhile_append_dropWhile]

end Lexis.Item
