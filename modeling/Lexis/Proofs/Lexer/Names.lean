/-
The name of a source in what is told of it.

A fault is printed on lines that are the same for every name, but for the headline, which has the
name in front (`Fault.print_rename`); so has a warning.  Which faults and warnings a source has does
not depend on its name (`Lexer.faults_eq_map_rename`, `Item.collect_warning?`).
-/
import Lexis.Proofs.Lexer.Faults
import Lexis.Proofs.Lexer.Warnings

namespace Lexis

/-- A line about a source: a text of its own, or one that has the name of the source in front. -/
inductive Line where
  | plain (text : String)
  | named (text : String)

/-- The line about a source of some name. -/
def Line.text (name : String) : Line → String
  | .plain text => text
  | .named text => name ++ text

/-- Lines of their own read the same under every name. -/
theorem Line.map_text_plain (name : String) (ls : List String) :
    (ls.map Line.plain).map (Line.text name) = ls := by
  rw [List.map_map]
  exact List.map_id ls

/-! ### Faults -/

namespace Fault

/-- The fault in a source of another name. -/
def rename (name : String) (f : Fault) : Fault :=
  { f with location := f.location.map fun l => { l with filename := name } }

/-- The headline, whatever the name of the source is. -/
def headlineLine (f : Fault) : Line :=
  match f.location with
  | some l =>
    .named (":" ++ toString l.line ++ ":" ++ toString l.column ++ ": error: " ++ f.cause.message)
  | none => .plain ("error: " ++ f.cause.message)

/-- The lines of a fault, whatever the name of its source is. -/
def lines (f : Fault) : List Line :=
  match f.cause with
  | .summary report _ => [.plain report]
  | _ => f.headlineLine :: (f.excerpt ++ f.hintLine).map .plain

theorem headline_rename (name : String) (f : Fault) :
    (f.rename name).headline = f.headlineLine.text name := by
  rw [headline, headlineLine, rename]
  cases f.location with
  | none => rfl
  | some l =>
    simp only [Option.map_some, Location.print, Line.text, String.append_assoc]

theorem excerpt_rename (name : String) (f : Fault) : (f.rename name).excerpt = f.excerpt := by
  rw [excerpt, excerpt, rename]
  cases f.sourceLine <;> cases f.location <;> rfl

/-- A fault is printed by its lines. -/
theorem print_rename (name : String) (f : Fault) :
    (f.rename name).print = "\n".intercalate (f.lines.map (Line.text name)) := by
  have hline : (f.rename name).headline :: ((f.rename name).excerpt ++ (f.rename name).hintLine) =
      (f.headlineLine :: (f.excerpt ++ f.hintLine).map .plain).map (Line.text name) := by
    rw [List.map_cons, Line.map_text_plain, headline_rename, excerpt_rename]
    rfl
  have hcause : (f.rename name).cause = f.cause := rfl
  rw [print, hcause, lines]
  cases f.cause with
  | summary report hint => exact String.intercalate_singleton.symm
  | invalidCharacter c | openComment | described message hint =>
    exact congrArg "\n".intercalate hline

theorem lines_ne_nil (f : Fault) : f.lines ≠ [] := by
  rw [lines]
  cases f.cause <;> exact List.cons_ne_nil _ _

end Fault

namespace Lexer

variable {x y : Lexer}

theorem fault?_eq_map_rename (h : x.cursor = y.cursor) (i : Item) :
    y.fault? i = (x.fault? i).map (Fault.rename y.filename) := by
  match i with
  | .trivia t => rfl
  | .lexeme l => rfl
  | .invalid c =>
    have hfault : y.faultAt c = (x.faultAt c).rename y.filename := by
      rw [faultAt, faultAt, here, here, h]
      rfl
    exact congrArg some hfault

/-- A source has the same faults under every name. -/
theorem faults_eq_map_rename (h : x.cursor = y.cursor) (is : List Item) :
    y.faults is = (x.faults is).map (Fault.rename y.filename) := by
  induction is generalizing x y with
  | nil => rfl
  | cons i is ih =>
    have hnext : (x.after i).cursor = (y.after i).cursor := by rw [after_cursor, after_cursor, h]
    rw [faults, faults, ih hnext, after_filename, fault?_eq_map_rename h, Option.toList_map,
      List.map_append]

end Lexer

/-! ### Warnings -/

/-- The warning about an item at a place, whatever the name of the source is. -/
def Item.warningLine? (strict : Bool) (m : Mark) (i : Item) : Option Line :=
  if i.isOpen && strict then
    some (.named (":" ++ toString m.line ++ ":" ++ toString m.column ++ ": warning: " ++
      Cause.openComment.message))
  else none

/-- A source has the same warnings under every name. -/
theorem Item.collect_warning? (name : String) (strict : Bool) (m : Mark) (is : List Item) :
    collect (warning? name strict) m is =
      (collect (warningLine? strict) m is).map (Line.text name) := by
  have hline : ∀ m i, warning? name strict m i = (warningLine? strict m i).map (Line.text name) := by
    intro m i
    rw [warning?, warningLine?]
    split
    · simp only [Option.map_some, Line.text, Diagnostics.warningLine, Location.print,
        String.append_assoc]
    · rfl
  show collect (warning? name strict) (id m) is = _
  exact collect_map (fun _ _ => rfl) hline m is

/-! ### Whole sources -/

/-- What the diagnostics of a source of some name hold, in terms that know no name. -/
structure Diagnostics.Holds (d : Diagnostics) (name : String) (faults : List Fault)
    (warnings : List Line) (suppressed errors : Nat) : Prop where
  faults : d.faults.toList = faults.map (Fault.rename name)
  warnings : d.warnings.toList = warnings.map (Line.text name)
  suppressed : d.suppressed = suppressed
  errorCount : d.errorCount = errors

/-- A source comes to the same diagnostics under every name. -/
theorem Lexer.exists_holds_tokenize (source : String) (options : Options) :
    ∃ faults warnings suppressed errors, ∀ name,
      (ofSource source none { options with filename := name }).tokenize.2.diagnostics.Holds name
        faults warnings suppressed errors := by
  set x := ofSource source none { options with filename := "" }
  refine ⟨(x.faults (Item.split x.rest)).take x.diagnostics.room,
    Item.collect (Item.warningLine? options.strictComments) x.cursor.toMark (Item.split x.rest),
    (x.faults (Item.split x.rest)).length - x.diagnostics.room,
    (x.faults (Item.split x.rest)).length, fun name => ?_⟩
  set y := ofSource source none { options with filename := name }
  have hfaults : y.faults (Item.split y.rest) =
      (x.faults (Item.split x.rest)).map (Fault.rename name) :=
    faults_eq_map_rename (x := x) (y := y) rfl _
  have hlength := congrArg List.length hfaults
  rw [List.length_map] at hlength
  constructor
  · rw [toList_faults_tokenize, hfaults, ← List.map_take]
    rfl
  · rw [tokenize_warnings, ← Item.collect_warning?]
    rfl
  · rw [tokenize_suppressed, ← length_faults, hlength]
    exact Nat.zero_add _
  · rw [tokenize_errorCount, ← length_faults, hlength]
    exact Nat.zero_add _

end Lexis
