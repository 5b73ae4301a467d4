/-
Line endings folded into line feeds.

`FoldsTo` says, ending by ending, what becomes of a text: a carriage return with the line feed
behind it is one line feed, a carriage return alone is one, and every other character stays.  There
is one such text, and it is the one that is read (`foldsTo_iff`).
-/
import Lexis.Text.LineEnding

namespace Lexis.Text

/-- The second text is the first one with each of its line endings written as a line feed. -/
inductive FoldsTo : List Char → List Char → Prop where
  | nil : FoldsTo [] []
  | pair {r s : List Char} (h : FoldsTo r s) : FoldsTo ('\r' :: '\n' :: r) ('\n' :: s)
  | lone {r s : List Char} (hr : r.head? ≠ some '\n') (h : FoldsTo r s) :
    FoldsTo ('\r' :: r) ('\n' :: s)
  | other {c : Char} {r s : List Char} (hc : c ≠ '\r') (h : FoldsTo r s) :
    FoldsTo (c :: r) (c :: s)

variable {r s t : List Char}

/-- Going over a text puts what it folds to behind the result so far. -/
theorem exists_foldsTo (done r : List Char) :
    ∃ s, FoldsTo r s ∧ foldLineEndings done r = done.reverse ++ s := by
  induction done, r using foldLineEndings.induct with
  | case1 done r ih =>
    obtain ⟨s, hs, hfold⟩ := ih
    refine ⟨'\n' :: s, .pair hs, ?_⟩
    rw [foldLineEndings, hfold, List.reverse_cons, List.append_assoc]
    rfl
  | case2 done r hr ih =>
    obtain ⟨s, hs, hfold⟩ := ih
    have hhead : r.head? ≠ some '\n' := by
      cases r with
      | nil => exact nofun
      | cons d r =>
        rintro ⟨⟩
        exact hr r rfl
    refine ⟨'\n' :: s, .lone hhead hs, ?_⟩
    rw [foldLineEndings.eq_2 _ _ hr, hfold, List.reverse_cons, List.append_assoc]
    rfl
  | case3 done c r hpair hc ih =>
    obtain ⟨s, hs, hfold⟩ := ih
    refine ⟨c :: s, .other hc hs, ?_⟩
    rw [foldLineEndings.eq_3 _ _ _ hpair hc, hfold, List.reverse_cons, List.append_assoc]
    rfl
  | case4 done => exact ⟨[], .nil, (List.append_nil _).symm⟩

theorem FoldsTo.unique (h : FoldsTo r s) (h' : FoldsTo r t) : s = t := by
  induction h generalizing t with
  | nil =>
    cases h' with
    | nil => rfl
  | pair h ih =>
    cases h' with
    | pair h' => rw [ih h']
    | lone hr h' => exact absurd rfl hr
    | other hc h' => exact absurd rfl hc
  | lone hr h ih =>
    cases h' with
    | pair h' => exact absurd rfl hr
    | lone hr h' => rw [ih h']
    | other hc h' => exact absurd rfl hc
  | other hc h ih =>
    cases h' with
    | pair h' => exact absurd rfl hc
    | lone hr h' => exact absurd rfl hc
    | other hc h' => rw [ih h']

theorem foldsTo_withLineFeeds (r : List Char) : FoldsTo r (withLineFeeds r) := by
  obtain ⟨s, hs, hfold⟩ := exists_foldsTo [] r
  rw [withLineFeeds, hfold]
  exact hs

/-- A text folds to what is read of it, and to nothing else. -/
theorem foldsTo_iff : FoldsTo r s ↔ withLineFeeds r = s := by
  constructor
  · exact (foldsTo_withLineFeeds r).unique
  · rintro rfl
    exact foldsTo_withLineFeeds r

end Lexis.Text
