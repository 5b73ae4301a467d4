/-
What a listing tells.

The printed form of a token tells its kind, its text, its line and its column (`Token.print_inj`):
no name of a kind has a comma and no number a colon, and a quoted text tells where it ends.  No line
feed gets into it, so that the lines of a listing are the printed tokens, an empty line and the
count (`splitOn_listing`).  The two together: a listing tells all of its tokens, but for the name
of their source.
-/
import Lexis.Proofs.Text.Decimal
import Lexis.Proofs.Text.Lines
import Lexis.Proofs.Text.Quoted
import Lexis.Proofs.Token.Listing
import Mathlib.Data.List.Forall2

namespace Lexis

open Text

/-- Two texts in front of a character that they do not hold are told apart by it. -/
theorem append_cons_inj {c : Char} {s t r u : List Char} (hs : c ∉ s) (ht : c ∉ t)
    (h : s ++ c :: r = t ++ c :: u) : s = t ∧ r = u := by
  rcases List.append_eq_append_iff.mp h with ⟨a, rfl, ha⟩ | ⟨a, rfl, ha⟩
  · cases a with
    | nil => exact ⟨(List.append_nil s).symm, List.tail_eq_of_cons_eq ha⟩
    | cons d a =>
      obtain rfl := List.head_eq_of_cons_eq ha
      exact absurd (List.mem_append_right s (List.mem_cons_self ..)) ht
  · cases a with
    | nil => exact ⟨List.append_nil t, (List.tail_eq_of_cons_eq ha).symm⟩
    | cons d a =>
      obtain rfl := List.head_eq_of_cons_eq ha
      exact absurd (List.mem_append_right t (List.mem_cons_self ..)) hs

/-! ### Kinds and numbers -/

theorem Kind.ofName?_name (k : Kind) : ofName? k.name = some k := by
  have hall : ∀ k ∈ Kind.all, ofName? k.name = some k := by decide +kernel
  exact hall k k.mem_all

theorem Kind.name_injective : Function.Injective name := by
  intro k l h
  rw [← Option.some_inj, ← k.ofName?_name, ← l.ofName?_name, h]

theorem Kind.notMem_name (k : Kind) : ',' ∉ k.name.toList := by
  have hall : ∀ k ∈ Kind.all, ',' ∉ k.name.toList := by decide +kernel
  exact hall k k.mem_all

theorem notMem_toString_int (n : Int) : ':' ∉ (toString n).toList := by
  have hdigits : ∀ n : Nat, ':' ∉ Nat.toDigits 10 n := fun n h =>
    absurd (isDigit_of_mem_digits ':' h) (by decide)
  cases n with
  | ofNat n =>
    have hprint : (toString (Int.ofNat n)).toList = Nat.toDigits 10 n := Nat.toList_repr
    rw [hprint]
    exact hdigits n
  | negSucc n =>
    rw [toList_toString_negSucc, List.mem_cons, not_or]
    exact ⟨by decide, hdigits (n + 1)⟩

/-! ### Tokens -/

/-- Two tokens agree in all that is printed: everything but the name of their source. -/
structure Token.Agree (t u : Token) : Prop where
  kind : t.kind = u.kind
  text : t.text = u.text
  line : t.line = u.line
  column : t.column = u.column

theorem Token.toList_print (t : Token) :
    t.print.toList = "Token(".toList ++ (t.kind.name.toList ++ ',' :: ' ' ::
      (Quoted.encode t.text.toList ++ ',' :: ' ' :: ((toString t.line).toList ++ ':' ::
        ((toString t.column).toList ++ [')'])))) := by
  simp [print, quoted]

theorem Token.Agree.print_eq {t u : Token} (h : t.Agree u) : t.print = u.print := by
  rw [print, print, h.kind, h.text, h.line, h.column]

/-- **The printed form of a token tells its kind, its text, its line and its column.** -/
theorem Token.print_inj {t u : Token} : t.print = u.print ↔ t.Agree u := by
  refine ⟨fun h => ?_, Token.Agree.print_eq⟩
  have hchars : t.print.toList = u.print.toList := congrArg String.toList h
  rw [t.toList_print, u.toList_print] at hchars
  -- the name goes up to the first comma, the text up to its own mark, the line up to the colon
  obtain ⟨hkind, hchars⟩ :=
    append_cons_inj t.kind.notMem_name u.kind.notMem_name (List.append_cancel_left hchars)
  obtain ⟨htext, hchars⟩ := Quoted.encode_append_inj (List.tail_eq_of_cons_eq hchars)
  have hplace := List.tail_eq_of_cons_eq (List.tail_eq_of_cons_eq hchars)
  obtain ⟨hline, hcolumn⟩ :=
    append_cons_inj (notMem_toString_int t.line) (notMem_toString_int u.line) hplace
  exact
    { kind := Kind.name_injective (String.toList_inj.mp hkind)
      text := String.toList_inj.mp htext
      line := toString_int_injective hline
      column := toString_int_injective (List.append_cancel_right hcolumn) }

/-! ### Listings -/

/-- The lines of a listing, as they are read back from it. -/
theorem splitOn_listing (tokens : List Token) (showEnd : Bool) :
    (listing tokens showEnd).toList.splitOn '\n' =
      (listingLines tokens showEnd).map String.toList := by
  have hfree : ∀ line ∈ listingLines tokens showEnd, line.toList.splitOn '\n' = [line.toList] :=
    fun line hline => splitOn_newline_of_notMem
      ((isPrintable_of_mem_listingLines hline).notMem (by decide))
  obtain ⟨line, lines, hlines⟩ : ∃ line lines, listingLines tokens showEnd = line :: lines :=
    List.exists_cons_of_ne_nil (by simp [listingLines])
  rw [listing, hlines, splitOn_newline_intercalate, ← hlines, List.flatMap_congr hfree,
    List.map_eq_flatMap]

theorem listed_true (tokens : List Token) : listed tokens true = tokens :=
  List.filter_eq_self.mpr fun _ _ => rfl

theorem map_print_inj {ts us : List Token} :
    ts.map Token.print = us.map Token.print ↔ List.Forall₂ Token.Agree ts us := by
  have hagree : (fun t u : Token => t.print = u.print) = Token.Agree := by
    funext t u
    exact propext Token.print_inj
  rw [← List.forall₂_eq_eq_eq, List.forall₂_map_left_iff, List.forall₂_map_right_iff, hagree]

/-- A listing with the end in it tells its printed tokens: the two lines behind them are told
apart by their number alone. -/
theorem listing_true_inj {ts us : List Token} :
    listing ts true = listing us true ↔ ts.map Token.print = us.map Token.print := by
  constructor
  · intro h
    have hread := splitOn_listing ts true
    rw [h, splitOn_listing us true] at hread
    have hlines : listingLines us true = listingLines ts true :=
      List.map_injective_iff.mpr (fun _ _ => String.toList_injective) hread
    rw [listingLines, listingLines, listed_true, listed_true] at hlines
    exact (List.append_inj' hlines rfl).1.symm
  · intro h
    have hlength : ts.length = us.length := by simpa using congrArg List.length h
    rw [listing, listing, listingLines, listingLines, listed_true, listed_true, h, hlength]

/-- **A listing loses nothing**: with the end in it, it tells all of its tokens, but for the name
of their source; and with the end or without, its lines are those of the tokens shown, one for
each whatever their texts are, an empty one and the count. -/
theorem listing_lossless (ts us : List Token) (showEnd : Bool) :
    (listing ts true = listing us true ↔ List.Forall₂ Token.Agree ts us) ∧
    (listing ts showEnd).toList.splitOn '\n' =
      (listed ts showEnd).map (fun t => t.print.toList) ++
        [[], ("Total tokens: " ++ toString (listed ts showEnd).length).toList] ∧
    (∀ t : Token, '\n' ∉ t.print.toList) ∧
    listed ts true = ts ∧
    listed ts false = ts.filter (fun t => t.kind ≠ .endOfInput) ∧
    listing ts false = listing (ts.filter fun t => t.kind ≠ .endOfInput) true := by
  have hwithout : listed ts false = ts.filter fun t => t.kind ≠ .endOfInput :=
    List.filter_congr fun t _ => by simp [Token.isEnd]
  refine ⟨listing_true_inj.trans map_print_inj, ?_, ?_, listed_true ts, hwithout, ?_⟩
  · rw [splitOn_listing, listingLines, List.map_append, List.map_map]
    rfl
  · exact fun t => t.isPrintable_print.notMem (by decide)
  · rw [listing, listing, listingLines, listingLines, hwithout, listed_true]

end Lexis
