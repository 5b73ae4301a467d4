/-
Tokens that no continuation of a source can change.

An item asks for nothing but the character behind it.  So two texts with the same front have the
same items as long as these end a character short of the front's end, and from the first item on
that does not, all that is found in either text reaches to the end of the front.

Tokens carry no offsets.  The offset that a token has in a source is read off its line and column
(`Token.startIn`), and it is the offset where the token stands (`Token.StandsAt.startIn_eq`).

* `Item.EndsWithin` — the first item of a text ends short of the end of a front of it;
* `exists_placed_front` — what two texts with the same front share, and what they do not;
* `tokenize_append_stable` — the tokens that are final once a front of the source is known.
-/
import Lexis.Proofs.Position

namespace Lexis

/-! ### Offsets of tokens -/

namespace Token

/-- The offset in a source that the line and the column of a token stand for. -/
def startIn (source : List Char) (t : Token) : Nat :=
  (((source.splitOn '\n').take (t.line - 1).toNat).map (·.length + 1)).sum + (t.column - 1).toNat

/-- The offset in a source where a token ends. -/
def endIn (source : List Char) (t : Token) : Nat :=
  t.startIn source + t.text.length

theorem StandsAt.startIn_eq {s : List Char} {t : Token} {p : Nat} (h : t.StandsAt s p) :
    t.startIn s = p := by
  have hsum := sum_length_lines_in_front (s.take p) (s.drop p)
  rw [List.take_append_drop, List.length_take, Nat.min_eq_left h.le_length] at hsum
  rw [startIn, h.lines_in_front, h.length_in_front, hsum]

end Token

/-- The tokens that end before an offset are among the first ones when all others reach that
offset. -/
theorem Placed.filter_endIn {filename : String} {s : List Char} {front rest : List (Token × Nat)}
    (h : Placed filename [] s (front ++ rest)) {n : Nat}
    (hrest : ∀ u ∈ rest, n ≤ u.2 + u.1.text.length) :
    (Item.tokens filename (placeBehind []) (Item.split s)).filter (fun t => t.endIn s < n) =
      (front.filter fun u => u.2 + u.1.text.length < n).map Prod.fst := by
  have hlate : rest.filter (fun u => u.2 + u.1.text.length < n) = [] := by
    refine List.filter_eq_nil_iff.mpr fun u hu => ?_
    rw [decide_eq_true_eq, not_lt]
    exact hrest u hu
  have hends : ∀ u ∈ front ++ rest, decide (u.1.endIn s < n) =
      decide (u.2 + u.1.text.length < n) := by
    intro u hu
    have hstands : u.1.StandsAt s u.2 := (h.standsAt u hu).2
    rw [Token.endIn, hstands.startIn_eq]
  rw [← h.tokens, List.filter_map]
  congr 1
  exact (List.filter_congr hends).trans (by rw [List.filter_append, hlate, List.append_nil])

theorem Item.end_of_mem_placed {filename : String} {a : List Char} {i : Item} {u : Token × Nat}
    (h : u ∈ i.placed filename a) : u.2 + u.1.text.length = a.length + i.text.length := by
  obtain ⟨l, hl, rfl⟩ := Option.map_eq_some_iff.mp (Option.mem_toList.mp h)
  rw [← Item.text_of_lexeme? hl, Lexeme.token, String.length_ofList]

/-! ### Texts with the same front -/

/-- The first item of a text ends within a front of it, at least a character before its end. -/
def Item.EndsWithin (q x : List Char) : Prop :=
  ∃ (i : Item) (u : List Char), q = i.text ++ u ∧ u ≠ [] ∧ i.Fits (u ++ x)

theorem Item.Fits.before_front {i : Item} {u x : List Char} (h : i.Fits (u ++ x)) (hu : u ≠ [])
    (y : List Char) : i.Fits (u ++ y) := by
  obtain ⟨c, u, rfl⟩ := List.exists_cons_of_ne_nil hu
  exact h.congr rfl

/-- What is behind the front plays no part. -/
theorem Item.EndsWithin.congr {q x : List Char} (h : EndsWithin q x) (y : List Char) :
    EndsWithin q y := by
  obtain ⟨i, u, hq, hu, hi⟩ := h
  exact ⟨i, u, hq, hu, hi.before_front hu y⟩

theorem Item.endsWithin_of_length_lt {i : Item} {q x r : List Char} (h : i.text ++ r = q ++ x)
    (hi : i.Fits r) (hlt : i.text.length < q.length) : EndsWithin q x := by
  obtain ⟨u, rfl⟩ : i.text <+: q :=
    List.prefix_of_prefix_length_le ⟨r, h⟩ (List.prefix_append q x) hlt.le
  rw [List.append_assoc] at h
  obtain rfl : r = u ++ x := List.append_cancel_left h
  refine ⟨i, u, rfl, ?_, hi⟩
  rintro rfl
  simp at hlt

variable (filename : String)

/-- Where the first item reaches to the end of a front, all tokens do. -/
theorem exists_placed_of_not_endsWithin {q x : List Char} (h : ¬ Item.EndsWithin q x)
    (a : List Char) :
    ∃ placed, Placed filename a (q ++ x) placed ∧
      ∀ u ∈ placed, a.length + q.length ≤ u.2 + u.1.text.length := by
  induction hr : q ++ x using Item.fits_induction with
  | nil =>
    obtain ⟨rfl, rfl⟩ := List.append_eq_nil_iff.mp hr
    refine ⟨_, .nil filename a, ?_⟩
    intro u hu
    obtain rfl := List.mem_singleton.mp hu
    exact Nat.le_add_right _ _
  | item i r hi =>
    have hle : q.length ≤ i.text.length :=
      not_lt.mp fun hlt => h (Item.endsWithin_of_length_lt hr.symm hi hlt)
    obtain ⟨placed, hp⟩ := exists_placed filename (a ++ i.text) r
    refine ⟨_, hp.item hi, ?_⟩
    intro u hu
    rcases List.mem_append.mp hu with hu | hu
    · rw [Item.end_of_mem_placed hu]
      omega
    · have hbehind := (hp.standsAt_behind u hu).1
      omega

/-- Two texts with the same front have the same tokens first, and all others of either text reach
to the end of the front. -/
theorem exists_placed_front (q x y a : List Char) :
    ∃ front px py, Placed filename a (q ++ x) (front ++ px) ∧
      Placed filename a (q ++ y) (front ++ py) ∧
      ∀ u ∈ px ++ py, a.length + q.length ≤ u.2 + u.1.text.length := by
  induction hn : q.length using Nat.strongRecOn generalizing q a with
  | _ n ih =>
    by_cases h : Item.EndsWithin q x
    · -- the item is the first one of both texts
      obtain ⟨i, u, rfl, hu, hi⟩ := h
      have hpos := List.length_pos_iff.mpr hi.text_ne_nil
      rw [List.length_append] at hn
      obtain ⟨front, px, py, hpx, hpy, hends⟩ := ih u.length (by omega) u (a ++ i.text) rfl
      refine ⟨i.placed filename a ++ front, px, py, ?_, ?_, ?_⟩
      · rw [List.append_assoc, List.append_assoc]
        exact hpx.item hi
      · rw [List.append_assoc, List.append_assoc]
        exact hpy.item (hi.before_front hu y)
      · rwa [List.length_append, Nat.add_assoc, hn] at hends
    · obtain ⟨px, hpx, hx⟩ := exists_placed_of_not_endsWithin filename h a
      obtain ⟨py, hpy, hy⟩ :=
        exists_placed_of_not_endsWithin filename (mt (Item.EndsWithin.congr · x) h) a
      refine ⟨[], px, py, hpx, hpy, ?_⟩
      rw [← hn]
      exact List.forall_mem_append.mpr ⟨hx, hy⟩

/-- **Tokens of a front are final**: whatever a source goes on with behind a front, the tokens that
end before the last character of the front does are the same. -/
theorem tokenize_append_stable (front x y : String) (filename : Option String)
    (options : Options) :
    (tokenize (front ++ x) filename options).filter
        (fun t => t.endIn (front ++ x).toList < front.length) =
      (tokenize (front ++ y) filename options).filter
        (fun t => t.endIn (front ++ y).toList < front.length) := by
  obtain ⟨shared, px, py, hx, hy, hends⟩ :=
    exists_placed_front (filename.getD options.filename) front.toList x.toList y.toList []
  rw [List.length_nil, Nat.zero_add, String.length_toList] at hends
  obtain ⟨hpx, hpy⟩ := List.forall_mem_append.mp hends
  rw [tokenize_eq, tokenize_eq, String.toList_append, String.toList_append]
  exact (hx.filter_endIn hpx).trans (hy.filter_endIn hpy).symm

end Lexis
