/-
What a run writes to standard error.

All that a run tells without being verbose is shown line by line, and every line is either the same
for all names of the source or has the name in front (`Plan.exists_told`): a warning about the
environment, the warnings about the source, and in a strict run the report on its faults.
-/
import Lexis.Proofs.Command.Output
import Lexis.Proofs.Lexer.Names

namespace Lexis

open Text

/-! ### Reports by lines -/

/-- The lines of a report, whatever the name of the source is. -/
def reportLines (faults : List Fault) (warnings : List Line) (suppressed errors : Nat) :
    List Line :=
  faults.flatMap (fun f => f.lines ++ [.plain ""]) ++ warnings ++
    (if suppressed = 0 then []
      else [.plain ("(" ++ toString suppressed ++ " more errors not shown)")]) ++
    [.plain ("\n" ++ Diagnostics.counted errors "error" ++ ", " ++
      Diagnostics.counted warnings.length "warning")]

namespace Command

/-- What is shown of lines about a source of some name. -/
def told (name : String) (lines : List Line) : String :=
  String.join (lines.map fun l => shown (l.text name))

theorem told_cons (name : String) (l : Line) (lines : List Line) :
    told name (l :: lines) = shown (l.text name) ++ told name lines := String.join_cons

theorem told_append (name : String) (lines more : List Line) :
    told name (lines ++ more) = told name lines ++ told name more := by
  rw [told, List.map_append, String.join_append, told, told]

theorem told_eq_join (name : String) (lines : List Line) :
    told name lines = String.join ((lines.map (Line.text name)).map shown) := by
  rw [told, List.map_map]
  rfl

theorem told_singleton (name : String) (l : Line) : told name [l] = shown (l.text name) := by
  rw [told_cons]
  exact String.append_empty

theorem shown_print_rename (name : String) (f : Fault) :
    shown (f.rename name).print = told name f.lines := by
  obtain ⟨l, ls, hl⟩ := List.exists_cons_of_ne_nil f.lines_ne_nil
  rw [Fault.print_rename, told_eq_join, hl, List.map_cons, shown_intercalate]

/-- The faults of a report are shown one below the other. -/
theorem join_shown_faults (faults : List Fault) :
    String.join ((faults.flatMap fun f => [f.print, ""]).map shown) =
      String.join (faults.map fun f => shown f.print ++ "\n") := by
  have hempty : shown "" = "\n" := shown_of_notMem List.not_mem_nil
  induction faults with
  | nil => rfl
  | cons f faults ih =>
    rw [List.flatMap_cons, List.map_append, String.join_append, ih, List.map_cons, List.map_cons,
      List.map_nil, String.join_cons, String.join_cons, String.join_nil, String.append_empty,
      hempty, List.map_cons, String.join_cons]

theorem told_faults (name : String) (faults : List Fault) :
    String.join (((faults.map (Fault.rename name)).flatMap fun f => [f.print, ""]).map shown) =
      told name (faults.flatMap fun f => f.lines ++ [.plain ""]) := by
  have hempty : shown (Line.text name (.plain "")) = "\n" := shown_of_notMem List.not_mem_nil
  rw [join_shown_faults]
  induction faults with
  | nil => rfl
  | cons f faults ih =>
    rw [List.map_cons, List.map_cons, String.join_cons, ih, List.flatMap_cons, told_append,
      told_append, ← shown_print_rename, told_singleton, hempty]

theorem join_shown_suppressed (name : String) (n : Nat) :
    String.join ((if n = 0 then []
      else ["(" ++ toString n ++ " more errors not shown)"]).map shown) =
        told name (if n = 0 then []
          else [.plain ("(" ++ toString n ++ " more errors not shown)")]) := by
  split
  · rfl
  · rw [told_eq_join]
    rfl

/-- A report is shown by its parts. -/
theorem shown_report_eq_join (d : Diagnostics) :
    shown d.report = String.join (d.reportParts.map shown) := by
  have hparts : d.reportParts ≠ [] := List.append_ne_nil_of_right_ne_nil _ (List.cons_ne_nil _ _)
  obtain ⟨l, ls, hl⟩ := List.exists_cons_of_ne_nil hparts
  rw [Diagnostics.report, hl, shown_intercalate]

/-- A report is shown by its lines. -/
theorem shown_report {d : Diagnostics} {name : String} {faults : List Fault}
    {warnings : List Line} {suppressed errors : Nat}
    (h : d.Holds name faults warnings suppressed errors) :
    shown d.report = told name (reportLines faults warnings suppressed errors) := by
  have hsize : d.warnings.size = warnings.length := by
    rw [← Array.length_toList, h.warnings, List.length_map]
  rw [shown_report_eq_join, Diagnostics.reportParts, h.faults, h.warnings, hsize, h.suppressed,
    h.errorCount, reportLines]
  simp only [List.map_append, String.join_append, told_append, told_faults]
  rw [join_shown_suppressed, told_eq_join name warnings, told_eq_join name [_]]
  rfl

/-! ### Notices by lines -/

theorem printAll_cons (verbose : Bool) (n : Notice) (notices : List Notice) :
    printAll verbose (n :: notices) = n.print verbose ++ printAll verbose notices :=
  String.join_cons

theorem printAll_append (verbose : Bool) (notices more : List Notice) :
    printAll verbose (notices ++ more) = printAll verbose notices ++ printAll verbose more := by
  rw [printAll, List.map_append, String.join_append, printAll, printAll]

theorem printAll_lines (verbose : Bool) (lines : List String) :
    printAll verbose (lines.map .line) = String.join (lines.map shown) := by
  rw [printAll, List.map_map]
  rfl

/-- Details are kept back unless the run is verbose. -/
theorem printAll_details {records : List LogRecord} (h : ∀ r ∈ records, r.level = .debug) :
    printAll false (records.map .record) = "" := by
  induction records with
  | nil => rfl
  | cons r records ih =>
    obtain ⟨hr, hrecords⟩ := List.forall_mem_cons.mp h
    have hprint : (Notice.record r).print false = "" := by
      simp only [Notice.print, Bool.false_eq_true, if_false, hr]
    rw [List.map_cons, printAll_cons, ih hrecords, hprint, String.append_empty]

/-- A printable warning in the log reads like a line. -/
theorem printAll_warnings {records : List LogRecord}
    (h : ∀ r ∈ records, r.level = .warning ∧ IsPrintable r.message.toList) (name : String) :
    printAll false (records.map .record) = told name (records.map fun r => .plain r.message) := by
  induction records with
  | nil => rfl
  | cons r records ih =>
    obtain ⟨⟨hr, hmessage⟩, hrecords⟩ := List.forall_mem_cons.mp h
    have hprint : (Notice.record r).print false = shown r.message := by
      rw [shown_of_notMem (hmessage.notMem not_isPrintable_escape)]
      simp only [Notice.print, Bool.false_eq_true, if_false, hr]
    rw [List.map_cons, printAll_cons, ih hrecords, hprint, List.map_cons, told_cons]
    rfl

/-- The environment brings in one kind of warning. -/
theorem exists_record_ofEnvironment {env : Environment} {r : LogRecord}
    (h : r ∈ (Options.ofEnvironment env).2) :
    ∃ text, r = ⟨.warning, "Ignoring invalid MINIJAVA_MAX_ERRORS value " ++ quoted text⟩ := by
  rw [Options.ofEnvironment] at h
  split at h
  · cases h
  · split at h
    · cases h
    · exact ⟨_, List.mem_singleton.mp h⟩

/-- The environment brings in printable warnings only. -/
theorem records_ofEnvironment (env : Environment) :
    ∀ r ∈ (Options.ofEnvironment env).2, r.level = .warning ∧ IsPrintable r.message.toList := by
  have hfront : IsAscii "Ignoring invalid MINIJAVA_MAX_ERRORS value ".toList := by decide +kernel
  intro r hr
  obtain ⟨text, rfl⟩ := exists_record_ofEnvironment hr
  refine ⟨rfl, ?_⟩
  rw [String.toList_append, isPrintable_append]
  exact ⟨hfront.isPrintable, isPrintable_quoted _⟩

/-- Whatever a lexer logs is a detail. -/
theorem records_tokenize (source : String) (options : Options) :
    ∀ r ∈ (Lexer.ofSource source none options).tokenize.2.log.toList, r.level = .debug := by
  obtain ⟨opened, hlog⟩ := (Lexer.ofSource source none options).tokenize_log
  have hstart : (Lexer.ofSource source none options).log.toList = [] := rfl
  rw [hlog, hstart, List.nil_append]
  intro r hr
  rcases List.mem_append.mp hr with hr | hr
  · rcases List.mem_append.mp hr with hr | hr
    · obtain ⟨t, -, rfl⟩ := List.mem_map.mp hr
      rfl
    · obtain ⟨start, -, rfl⟩ := List.mem_map.mp hr
      rfl
  · obtain rfl := List.mem_singleton.mp hr
    rfl

/-- The notices of a run that is not verbose: the warning about the environment, and those about
the source. -/
theorem Plan.printAll_notices {p : Plan} (hverbose : p.verbose = false) (env : Environment)
    (source : Source) :
    printAll false (p.notices env source.name (p.lexer env source).tokenize.2) =
      told source.name ((Options.ofEnvironment env).2.map fun r => .plain r.message) ++
        String.join ((p.lexer env source).tokenize.2.diagnostics.warnings.toList.map shown) := by
  have hlog := printAll_details (records_tokenize source.text (p.options env source.name).1)
  have hoptions : printAll false ([(⟨.debug, "Lexer options: " ++
      (p.options env source.name).1.print⟩ : LogRecord)].map .record) = "" :=
    printAll_details (List.forall_mem_singleton.mpr rfl)
  rw [← printAll_warnings (records_ofEnvironment env), ← printAll_lines false, notices, hverbose]
  simp only [Bool.false_eq_true, if_false, List.append_nil, List.map_append, printAll_append]
  rw [hoptions, lexer, hlog, String.append_empty, String.append_empty]
  rfl

/-! ### Runs by lines -/

/-- **All that a run tells is told line by line**, and only the front of a line knows the name of
the source. -/
theorem Plan.exists_told {p : Plan} (hverbose : p.verbose = false) (env : Environment)
    (text : String) :
    ∃ lines, ∀ name, (p.tokenize env ⟨name, text⟩).errors = told name lines := by
  obtain ⟨faults, warnings, suppressed, errors, hholds⟩ :=
    Lexer.exists_holds_tokenize text (p.options env "").1
  refine ⟨((Options.ofEnvironment env).2.map fun r => .plain r.message) ++ warnings ++
    (if p.strict && (Lexis.tokenize text).any Token.isInvalid then
      reportLines faults warnings suppressed errors else []), fun name => ?_⟩
  have hd : (p.lexer env ⟨name, text⟩).tokenize.2.diagnostics.Holds name faults warnings
      suppressed errors := hholds name
  rw [p.tokenize_eq, hverbose, printAll_notices hverbose, p.fails_eq, hd.warnings,
    shown_report hd, told_append, told_append, told_eq_join name warnings]
  split <;> rfl

end Command

end Lexis
