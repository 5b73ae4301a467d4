/-
What is found along a text.

`Item.collect` goes along a list of items, carries the place with it, and keeps what a function
finds in each item.  The tokens of a text are collected in this way, and so are its warnings.  A
law for `collect` is a law for all of these at once:

* `collect_append_spaces` — white space in front of a text moves what is found, no more;
* `collect_map_of_rel` — from places that stay related, related things are found;
* `collect_congr_place` — where only line and column are looked at, offsets play no part;
* `collect_map` — when places are moved, what is found moves with them.
-/
import Lexis.Proofs.Item.Split
import Lexis.Proofs.Mark

namespace Lexis

/-- A piece of trivia of the same kind with another text. -/
def Trivia.withText (w : List Char) : Trivia → Trivia
  | .spaces _ => .spaces w
  | .lineComment _ => .lineComment w
  | .blockComment _ => .blockComment w
  | .openComment _ => .openComment w

@[simp] theorem Trivia.text_withText (w : List Char) (t : Trivia) : (t.withText w).text = w := by
  cases t <;> rfl

namespace Item

variable {β : Type} {f : Mark → Item → Option β} {m n : Mark} {i : Item} {r : List Char}

/-- What a function finds in the items of a list that begins at a place. -/
def collect (f : Mark → Item → Option β) : Mark → List Item → List β
  | _, [] => []
  | m, i :: is => (f m i).toList ++ collect f (m.moveOver i.text) is

/-- Nothing is found in white space. -/
def IgnoresSpaces (f : Mark → Item → Option β) : Prop :=
  ∀ m t, f m (.trivia (.spaces t)) = none

/-- Of a piece of trivia, the kind counts and the text does not. -/
def ByKind (f : Mark → Item → Option β) : Prop :=
  ∀ m (t : Trivia) (w : List Char), f m (.trivia (t.withText w)) = f m (.trivia t)

/-- What is found depends on line and column only. -/
def ByPlace (f : Mark → Item → Option β) : Prop :=
  ∀ {m n}, m.place = n.place → ∀ i, f m i = f n i

theorem collect_split_append (h : i.Fits r) (m : Mark) :
    collect f m (split (i.text ++ r)) =
      (f m i).toList ++ collect f (m.moveOver i.text) (split r) := by
  rw [split_append h, collect]

theorem collect_append (f : Mark → Item → Option β) (m : Mark) (is js : List Item) :
    collect f m (is ++ js) = collect f m is ++ collect f (m.moveOver (is.flatMap text)) js := by
  induction is generalizing m with
  | nil => rfl
  | cons i is ih =>
    rw [List.cons_append, collect, collect, ih, List.flatMap_cons, Mark.moveOver_append,
      List.append_assoc]

theorem collect_append_spaces (hf : IgnoresSpaces f) {t : List Char}
    (ht : ∀ c ∈ t, Text.isSpace c = true) (m : Mark) (r : List Char) :
    collect f m (split (t ++ r)) = collect f (m.moveOver t) (split r) := by
  induction t generalizing m with
  | nil => rfl
  | cons c t ih =>
    have hc : Text.isSpace c = true := ht c (by simp)
    rw [Mark.moveOver_cons, ← ih fun d hd => ht d (by simp [hd])]
    rcases split_space_cons hc (t ++ r) with h | ⟨w, is, h₁, h₂⟩
    · rw [List.cons_append, h, collect, hf]
      rfl
    · -- the character joins the white space behind it
      rw [List.cons_append, h₁, h₂, collect, hf, collect, hf]
      rfl

/-- Along the same items from two places that stay related, what is found stays related. -/
theorem collect_map_of_rel {γ : Type} {g : Mark → Item → Option γ} {k : β → γ}
    {R : Mark → Mark → Prop} (hmove : ∀ m n t, R m n → R (m.moveOver t) (n.moveOver t))
    (hf : ∀ m n i, R m n → g n i = (f m i).map k) (h : R m n) (is : List Item) :
    collect g n is = (collect f m is).map k := by
  induction is generalizing m n with
  | nil => rfl
  | cons i is ih =>
    rw [collect, collect, hf m n i h, ih (hmove m n i.text h), Option.toList_map, List.map_append]

theorem collect_congr_place (hf : ByPlace f) (h : m.place = n.place) (is : List Item) :
    collect f m is = collect f n is := by
  have hsame : ∀ m n i, Mark.place m = n.place → f n i = (f m i).map id := by
    intro m n i hmn
    rw [Option.map_id_fun, id, hf hmn]
  rw [collect_map_of_rel (fun m n t hmn => Mark.place_moveOver_congr hmn t) hsame h is, List.map_id]

theorem collect_map {γ : Type} {g : Mark → Item → Option γ} {move : Mark → Mark} {k : β → γ}
    (hmove : ∀ m t, (move m).moveOver t = move (m.moveOver t))
    (hf : ∀ m i, g (move m) i = (f m i).map k) (m : Mark) (is : List Item) :
    collect g (move m) is = (collect f m is).map k := by
  refine collect_map_of_rel (R := fun m n => n = move m) ?_ ?_ rfl is
  · rintro m n t rfl
    exact hmove m t
  · rintro m n i rfl
    exact hf m i

end Item

end Lexis
