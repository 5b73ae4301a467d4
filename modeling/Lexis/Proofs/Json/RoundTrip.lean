/-
JSON values in print, read back.

The round trip has two halves, with the pieces of a value between them (`Value.pieces`).  The text
of a value is cut into its pieces wherever no digit stands behind it (`Value.cut_write`), and its
pieces bring the stack machine from a place where a value may stand to the place behind that value,
whatever blocks are open (`Value.run_pieces`).  Both go by the recursion that writes a value; a
block is the same induction over its elements for lists and objects.
-/
import Lexis.Proofs.Json.Reader

namespace Lexis.Json

open Text

/-! ### The pieces of a value -/

/-- Elements between two brackets, with commas between them. -/
def block (opening closing : Piece) (elements : List (List Piece)) : List Piece :=
  opening :: ((elements.intersperse [.comma]).flatten ++ [closing])

/-- The pieces of a value. -/
def Value.pieces (v : Value) : List Piece :=
  match v with
  | .text s => [.text s]
  | .number n => [.number n]
  | .list items => block .listOpen .listClose (items.map fun item => item.pieces)
  | .object fields =>
    block .objectOpen .objectClose
      (fields.map fun field => .text field.1 :: .colon :: field.2.pieces)
termination_by v
decreasing_by
  · decreasing_tactic
  · rename_i h
    have h₁ := List.sizeOf_lt_of_mem h
    obtain ⟨name, value⟩ := field
    simp only [Value.object.sizeOf_spec, Prod.mk.sizeOf_spec] at *
    omega

/-! ### Cutting a text -/

/-- A text is cut into pieces, where no digit stands behind it. -/
def Cut (s : List Char) (ps : List Piece) : Prop :=
  ∀ r, NoDigit r → Json.pieces (s ++ r) = (Json.pieces r).map (ps ++ ·)

/-- No piece begins with a blank. -/
theorem isBlank_of_piece? {c : Char} {s r : List Char} {p : Piece}
    (h : piece? (c :: s) = some (p, r)) : isBlank c = false := by
  by_contra hblank
  simp only [isBlank, Bool.not_eq_false, Bool.or_eq_true, decide_eq_true_eq] at hblank
  rcases hblank with ((rfl | rfl) | rfl) | rfl <;> cases h

theorem pieces_of_piece? {s r : List Char} {p : Piece} (h : piece? s = some (p, r)) :
    Json.pieces s = (Json.pieces r).map (p :: ·) := by
  cases s with
  | nil => cases h
  | cons c s =>
    rw [Json.pieces, if_neg (by simp [isBlank_of_piece? h])]
    split
    · next hnone =>
      rw [h] at hnone
      cases hnone
    · next hsome =>
      rw [h] at hsome
      cases hsome
      rfl

theorem Cut.nil : Cut [] [] := by
  intro r _
  simp

theorem Cut.blank {c : Char} {s : List Char} {ps : List Piece} (hc : isBlank c = true)
    (h : Cut s ps) : Cut (c :: s) ps := by
  intro r hr
  rw [List.cons_append, Json.pieces, if_pos hc, h r hr]

theorem Cut.newLine {s : List Char} {ps : List Piece} (depth : Nat) (h : Cut s ps) :
    Cut (newLine depth ++ s) ps := by
  refine Cut.blank rfl ?_
  induction 2 * depth with
  | zero => exact h
  | succ n ih => exact Cut.blank rfl ih

/-- A mark is a piece, whatever stands behind it. -/
theorem Cut.mark {c : Char} {p : Piece} {s : List Char} {ps : List Piece}
    (hc : ∀ s, piece? (c :: s) = some (p, s)) (h : Cut s ps) : Cut (c :: s) (p :: ps) := by
  intro r hr
  rw [List.cons_append, pieces_of_piece? (hc _), h r hr, Option.map_map]
  rfl

theorem Cut.append {c : Char} {s t : List Char} {ps qs : List Piece} (hc : c.isDigit = false)
    (hs : Cut s ps) (ht : Cut (c :: t) qs) : Cut (s ++ c :: t) (ps ++ qs) := by
  intro r hr
  have hfirst : NoDigit (c :: t ++ r) := by
    intro d hd
    obtain rfl : c = d := Option.some.inj hd
    exact hc
  rw [List.append_assoc, hs _ hfirst, ht r hr, Option.map_map]
  exact congrArg (Option.map · _) (funext fun rs => (List.append_assoc ps qs rs).symm)

theorem cut_writeText (s : String) : Cut (writeText s) [.text s] := by
  intro r _
  have hpiece : piece? (writeText s ++ r) = some (.text s, r) := by
    rw [writeText, List.cons_append, piece?, List.append_assoc, List.singleton_append,
      readString?_writeText]
    rfl
  exact pieces_of_piece? hpiece

/-- Where a number stands, no other piece does. -/
theorem piece?_of_takeInt? {s r : List Char} {n : Int} (h : takeInt? s = some (n, r)) :
    piece? s = some (.number n, r) := by
  rw [piece?.eq_def]
  split
  case h_8 =>
    rw [h]
    rfl
  all_goals cases h

theorem cut_number (n : Int) : Cut (toString n).toList [.number n] := by
  intro r hr
  exact pieces_of_piece? (piece?_of_takeInt? (takeInt?_toString n hr))

/-- The elements of a block are cut one by one. -/
theorem cut_elements {α : Type} {l : List α} {f : α → List Char} {g : α → List Piece}
    (depth : Nat) (h : ∀ a ∈ l, Cut (f a) (g a)) :
    Cut (((l.map f).map (Json.newLine depth ++ ·)).intersperse [',']).flatten
      ((l.map g).intersperse [.comma]).flatten := by
  induction l with
  | nil => exact Cut.nil
  | cons a l ih =>
    -- a number may stand at the end of an element, but a comma or the end is behind it
    have ha := h a (List.mem_cons_self ..)
    have hl := ih fun b hb => h b (List.mem_cons_of_mem a hb)
    cases l with
    | nil => simpa using ha.newLine depth
    | cons b l =>
      have hrest := Cut.append (by decide) ha (Cut.mark (c := ',') (fun _ => rfl) hl)
      simpa [List.intersperse_cons_cons] using hrest.newLine depth

theorem cut_writeBlock {α : Type} {l : List α} {f : α → List Char} {g : α → List Piece}
    {opening closing : Char} {p q : Piece} (depth : Nat)
    (ho : ∀ s, piece? (opening :: s) = some (p, s))
    (hc : ∀ s, piece? (closing :: s) = some (q, s)) (h : ∀ a ∈ l, Cut (f a) (g a)) :
    Cut (writeBlock opening closing depth (l.map f)) (block p q (l.map g)) := by
  have hend : Cut [closing] [q] := Cut.mark hc Cut.nil
  cases l with
  | nil => exact Cut.mark ho hend
  | cons a l =>
    have hinside := Cut.append (by decide) (cut_elements (depth + 1) h) (hend.newLine depth)
    have hblock := Cut.mark ho hinside
    simpa [writeBlock, block, Json.newLine] using hblock

/-- **The text of a value is cut into its pieces**, where no digit stands behind it. -/
theorem Value.cut_write (depth : Nat) (v : Value) : Cut (v.write depth) v.pieces := by
  induction depth, v using Value.write.induct with
  | case1 depth s =>
    rw [write, pieces]
    exact cut_writeText s
  | case2 depth n =>
    rw [write, pieces]
    exact cut_number n
  | case3 depth items ih =>
    rw [write, pieces]
    exact cut_writeBlock depth (fun _ => rfl) (fun _ => rfl) ih
  | case4 depth fields ih =>
    rw [write, pieces]
    refine cut_writeBlock depth (fun _ => rfl) (fun _ => rfl) fun field hfield => ?_
    have hvalue := Cut.blank (c := ' ') rfl (ih field hfield)
    exact Cut.append (by decide) (cut_writeText field.1) (Cut.mark (fun _ => rfl) hvalue)

/-! ### Running the machine -/

theorem run_append {a b : State} {ps : List Piece} (h : run a ps = some b) (qs : List Piece) :
    run a (ps ++ qs) = run b qs := by
  rw [run, List.foldlM_append, show ps.foldlM step a = some b from h]
  rfl

/-- The elements of a block are read one by one, with what is read of the block so far in the
state. -/
theorem run_elements {α : Type} (start stop : List α → State) {g : α → List Piece}
    {closing : Piece} {l : List α} (hne : l ≠ [])
    (hcomma : ∀ a ∈ l, ∀ before,
      run (start before) (g a ++ [.comma]) = some (start (before ++ [a])))
    (hclose : ∀ a ∈ l, ∀ before,
      run (start before) (g a ++ [closing]) = some (stop (before ++ [a])))
    (before : List α) :
    run (start before) (((l.map g).intersperse [.comma]).flatten ++ [closing]) =
      some (stop (before ++ l)) := by
  induction l generalizing before with
  | nil => exact absurd rfl hne
  | cons a l ih =>
    cases l with
    | nil => simpa using hclose a (List.mem_cons_self ..) before
    | cons b l =>
      have hl := ih (List.cons_ne_nil b l) (fun c hc => hcomma c (List.mem_cons_of_mem a hc))
        (fun c hc => hclose c (List.mem_cons_of_mem a hc)) (before ++ [a])
      have ha := run_append (hcomma a (List.mem_cons_self ..) before)
        (((b :: l).map g |>.intersperse [.comma]).flatten ++ [closing])
      rw [hl, List.append_assoc, List.singleton_append] at ha
      simpa [List.intersperse_cons_cons] using ha

/-- The pieces of a value are read as that value, whatever blocks are open around it. -/
def ReadAs (ps : List Piece) (v : Value) : Prop :=
  ∀ frames, run (.value frames) ps = some (.done v frames)

theorem readAs_list {items : List Value} (h : ∀ v ∈ items, ReadAs v.pieces v) :
    ReadAs (block .listOpen .listClose (items.map Value.pieces)) (.list items) := by
  intro frames
  cases items with
  | nil => rfl
  | cons v items =>
    exact run_elements (fun before => .value (.list before :: frames))
      (fun before => .done (.list before) frames) (List.cons_ne_nil v items)
      (fun v hv before => by rw [run_append (h v hv _)]; rfl)
      (fun v hv before => by rw [run_append (h v hv _)]; rfl) []

theorem readAs_object {fields : List (String × Value)}
    (h : ∀ field ∈ fields, ReadAs field.2.pieces field.2) :
    ReadAs (block .objectOpen .objectClose
      (fields.map fun field => .text field.1 :: .colon :: field.2.pieces)) (.object fields) := by
  intro frames
  have hfield : ∀ field ∈ fields, ∀ before,
      run (.name before frames) (.text field.1 :: .colon :: field.2.pieces) =
        some (.done field.2 (.object before field.1 :: frames)) :=
    fun field hfield before => h field hfield _
  cases fields with
  | nil => rfl
  | cons field fields =>
    exact run_elements (fun before => .name before frames)
      (fun before => .done (.object before) frames) (List.cons_ne_nil field fields)
      (fun field hmem before => by rw [run_append (hfield field hmem before)]; rfl)
      (fun field hmem before => by rw [run_append (hfield field hmem before)]; rfl) []

/-- **The pieces of a value are read as that value**, whatever blocks are open around it. -/
theorem Value.readAs_pieces (v : Value) : ReadAs v.pieces v := by
  induction v using Value.pieces.induct with
  | case1 s =>
    rw [pieces]
    exact fun _ => rfl
  | case2 n =>
    rw [pieces]
    exact fun _ => rfl
  | case3 items ih =>
    rw [pieces]
    exact readAs_list ih
  | case4 fields ih =>
    rw [pieces]
    exact readAs_object ih

theorem pieces_of_blanks {blanks : List Char} (h : ∀ c ∈ blanks, isBlank c = true) :
    Json.pieces blanks = some [] := by
  induction blanks with
  | nil => rw [Json.pieces]
  | cons c blanks ih =>
    rw [Json.pieces, if_pos (h c (List.mem_cons_self ..)),
      ih fun d hd => h d (List.mem_cons_of_mem c hd)]

/-- **A value in print is read back**, with blanks behind it or without. -/
theorem read_write (v : Value) (depth : Nat) {blanks : List Char}
    (h : ∀ c ∈ blanks, isBlank c = true) : read (v.write depth ++ blanks) = some v := by
  -- a number may be the value, and no blank goes on with it
  have hdigit : NoDigit blanks := by
    intro c hc
    have hblank := h c (List.mem_of_mem_head? hc)
    simp only [isBlank, Bool.or_eq_true, decide_eq_true_eq] at hblank
    rcases hblank with ((rfl | rfl) | rfl) | rfl <;> rfl
  rw [read, v.cut_write depth blanks hdigit, pieces_of_blanks h, Option.map_some, Option.bind_some,
    List.append_nil, v.readAs_pieces]
  rfl

end Lexis.Json
