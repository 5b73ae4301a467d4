/-
Paths as they are displayed.

A name without slashes is displayed as it is (`displayPath_of_name`).  Other paths may be displayed
like a name that they are not: the dash is displayed for every relative path whose only component
that names something is the dash (`displayPath_eq_dash_iff`).
-/
import Lexis.Command.Path

namespace Lexis.Command

variable {path : List Char}

theorem betweenSlashes_of_notMem (h : '/' ∉ path) : betweenSlashes path = [path] := by
  induction path with
  | nil => rfl
  | cons c r ih =>
    rw [List.mem_cons, not_or] at h
    rw [betweenSlashes.eq_def]
    simp only [ih h.2]
    split
    · exact absurd rfl h.1
    · rename_i hpieces
      cases hpieces
      rfl
    · rename_i hpieces
      cases hpieces

theorem rootOf_of_head? (h : path.head? ≠ some '/') : rootOf path = [] := by
  rw [rootOf.eq_def]
  split <;> first | exact absurd rfl h | rfl

theorem exists_rootOf (h : path.head? = some '/') : ∃ r, rootOf path = '/' :: r := by
  obtain ⟨r, rfl⟩ := List.head?_eq_some_iff.mp h
  rw [rootOf.eq_def]
  split
  · exact ⟨_, rfl⟩
  · exact ⟨_, rfl⟩
  · exact ⟨_, rfl⟩
  · rename_i hr
    exact absurd rfl (hr r)

/-- What is displayed, where there is something to display. -/
theorem displayed_of_ne_nil (h : rootOf path ++ ['/'].intercalate (namesIn path) ≠ []) :
    displayed path = rootOf path ++ ['/'].intercalate (namesIn path) := by
  rw [displayed]
  split
  · exact absurd (by assumption) h
  · rfl

/-- The name of a file in the working directory is displayed as it is. -/
theorem displayPath_of_name {name : String} (hslash : '/' ∉ name.toList) (hempty : name ≠ "")
    (hdot : name ≠ ".") : displayPath name = name := by
  have hempty' : name.toList ≠ [] := fun h => hempty (String.toList_inj.mp h)
  have hdot' : name.toList ≠ ['.'] := fun h => hdot (String.toList_inj.mp h)
  have hroot : rootOf name.toList = [] := by
    refine rootOf_of_head? fun h => hslash ?_
    exact List.mem_of_mem_head? h
  have hnames : namesIn name.toList = [name.toList] := by
    rw [namesIn, betweenSlashes_of_notMem hslash]
    simp [hempty', hdot']
  have hshown : rootOf name.toList ++ ['/'].intercalate (namesIn name.toList) = name.toList := by
    rw [hroot, hnames, List.intercalate_singleton, List.nil_append]
  rw [displayPath, displayed_of_ne_nil (by rwa [hshown]), hshown, String.ofList_toList]

theorem ne_nil_of_mem_namesIn {piece : List Char} (h : piece ∈ namesIn path) : piece ≠ [] := by
  obtain ⟨-, hkept⟩ := List.mem_filter.mp h
  rintro rfl
  exact absurd hkept (by decide)

/-- Pieces that name something, put together with slashes, are a dash only if the dash is the only
piece. -/
theorem intercalate_eq_dash_iff {pieces : List (List Char)} (h : ∀ p ∈ pieces, p ≠ []) :
    ['/'].intercalate pieces = ['-'] ↔ pieces = [['-']] := by
  constructor
  · intro hdash
    match pieces with
    | [] => cases hdash
    | [p] =>
      rw [List.intercalate_singleton] at hdash
      rw [hdash]
    | p :: q :: more =>
      -- a piece and a slash are two characters already
      have hp : 0 < p.length := List.length_pos_iff.mpr (h p (List.mem_cons_self ..))
      have hlength := congrArg List.length hdash
      rw [List.intercalate_cons_cons] at hlength
      simp only [List.length_append, List.length_singleton] at hlength
      omega
  · rintro rfl
    rfl

/-- **A path is displayed as a dash** exactly if it is relative and nothing but a dash names
something in it. -/
theorem displayPath_eq_dash_iff {path : String} :
    displayPath path = "-" ↔
      path.toList.head? ≠ some '/' ∧ namesIn path.toList = [['-']] := by
  have hdash : displayPath path = "-" ↔ displayed path.toList = ['-'] := by
    rw [displayPath, ← String.toList_inj, String.toList_ofList]
    exact Iff.rfl
  rw [hdash, ← intercalate_eq_dash_iff fun _ => ne_nil_of_mem_namesIn]
  constructor
  · intro h
    have hne : rootOf path.toList ++ ['/'].intercalate (namesIn path.toList) ≠ [] := by
      intro hnil
      rw [displayed, hnil] at h
      cases h
    rw [displayed_of_ne_nil hne] at h
    have hhead : path.toList.head? ≠ some '/' := by
      intro hhead
      obtain ⟨r, hr⟩ := exists_rootOf hhead
      rw [hr] at h
      cases h
    rw [rootOf_of_head? hhead] at h
    exact ⟨hhead, h⟩
  · rintro ⟨hhead, h⟩
    have hshown : rootOf path.toList ++ ['/'].intercalate (namesIn path.toList) = ['-'] := by
      rw [rootOf_of_head? hhead, h, List.nil_append]
    rw [displayed_of_ne_nil (by rw [hshown]; exact List.cons_ne_nil _ _), hshown]

end Lexis.Command
