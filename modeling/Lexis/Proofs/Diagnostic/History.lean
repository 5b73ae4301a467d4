/-
Diagnostics over a history of requests.

Faults, warnings, limits, clears and questions may come in any order and any number.  What the
diagnostics hold behind such a history can be told from the history alone (`account_after`): every
fault since the last clear is counted, whatever became of the limit; those are kept that came while
fewer were kept than the limit of that moment allowed; and the warnings are all there.

What one request does to each field is said once (`limit_perform`, `errorCount_perform`,
`faults_perform`, `warnings_perform`); a history is one request behind another.
-/
import Lexis.Diagnostic.Diagnostics
import Mathlib.Data.List.DropRight

namespace Lexis.Diagnostics

/-- A request to diagnostics. -/
inductive Request where
  | add (f : Fault)
  | warn (message : String) (location : Option Location)
  | setLimit (limit : Int)
  | clear
  /-- Asks for a summary of the faults, if there are any. -/
  | summary
  | report
  | faults
  | warnings
  | hasErrors
  | isFull
  | errorCount
  | warningCount
  deriving DecidableEq, Repr

/-- A reply to a request. -/
inductive Reply where
  | nothing
  | truth (b : Bool)
  | count (n : Nat)
  | text (s : String)
  | texts (ss : List String)
  | fault (f : Fault)
  deriving DecidableEq, Repr

/-- Carries out a request. -/
def perform (d : Diagnostics) : Request → Reply × Diagnostics
  | .add f => (.nothing, d.add f)
  | .warn message location => (.nothing, d.warn message location)
  | .setLimit limit => (.nothing, { d with limit := limit })
  | .clear => (.nothing, d.clear)
  | .summary =>
    match d.summary? with
    | some f => (.fault f, d)
    | none => (.nothing, d)
  | .report => (.text d.report, d)
  | .faults => (.texts (d.faults.toList.map Fault.print), d)
  | .warnings => (.texts d.warnings.toList, d)
  | .hasErrors => (.truth d.hasErrors, d)
  | .isFull => (.truth d.isFull, d)
  | .errorCount => (.count d.errorCount, d)
  | .warningCount => (.count d.warnings.size, d)

/-- The diagnostics behind a history that begins with a limit and nothing else. -/
def after (limit : Int) (h : List Request) : Diagnostics :=
  h.foldl (fun d r => (d.perform r).2) { limit }

namespace Request

/-- The fault that a request brings in. -/
def fault? : Request → Option Fault
  | .add f => some f
  | _ => none

/-- The warning that a request brings in. -/
def warning? : Request → Option String
  | .warn message location => some (warningLine message location)
  | _ => none

/-- The limit that a request sets. -/
def limit? : Request → Option Int
  | .setLimit limit => some limit
  | _ => none

/-- Is it a question, which brings in nothing and changes nothing? -/
def isQuestion : Request → Bool
  | .add _ | .warn _ _ | .setLimit _ | .clear => false
  | _ => true

end Request

/-! ### What a history says -/

/-- The requests behind the last clear, or all of them where there is none. -/
def sinceClear (h : List Request) : List Request :=
  h.rtakeWhile (· ≠ .clear)

/-- The faults that requests bring in. -/
def added (h : List Request) : List Fault :=
  h.filterMap Request.fault?

/-- The limit that was set last, or the one at the start. -/
def limitAfter (limit : Int) (h : List Request) : Int :=
  ((h.filterMap Request.limit?).getLast?).getD limit

/-- The requests of a history, each with all that came before it. -/
def momentsFrom (front : List Request) : List Request → List (List Request × Request)
  | [] => []
  | r :: h => (front, r) :: momentsFrom (front ++ [r]) h

/-- Are fewer faults kept behind a history than the limit that is in force then? -/
def HasRoom (limit : Int) (h : List Request) : Prop :=
  ((after limit h).faults.size : Int) < limitAfter limit h

instance (limit : Int) (h : List Request) : Decidable (HasRoom limit h) :=
  inferInstanceAs (Decidable (((after limit h).faults.size : Int) < limitAfter limit h))

/-- The faults since the last clear that came when there was room for them. -/
def keptFaults (limit : Int) (h : List Request) : List Fault :=
  ((momentsFrom [] h).rtakeWhile (·.2 ≠ .clear)).filterMap fun m =>
    if HasRoom limit m.1 then m.2.fault? else none

variable (limit : Int) (h : List Request) (r : Request)

theorem sinceClear_concat :
    sinceClear (h ++ [r]) = if r = .clear then [] else sinceClear h ++ [r] := by
  rw [sinceClear, List.rtakeWhile_concat]
  by_cases hr : r = .clear
  · simp [hr]
  · simp [hr, sinceClear]

theorem limitAfter_concat : limitAfter limit (h ++ [r]) = r.limit?.getD (limitAfter limit h) := by
  rw [limitAfter, List.filterMap_append]
  cases hr : r.limit? with
  | none => simp [limitAfter, hr]
  | some n => simp [hr]

theorem momentsFrom_append (front h k : List Request) :
    momentsFrom front (h ++ k) = momentsFrom front h ++ momentsFrom (front ++ h) k := by
  induction h generalizing front with
  | nil => simp [momentsFrom]
  | cons r h ih => simp [momentsFrom, ih]

theorem keptFaults_concat :
    keptFaults limit (h ++ [r]) =
      if r = .clear then []
      else keptFaults limit h ++ (if HasRoom limit h then r.fault? else none).toList := by
  rw [keptFaults, momentsFrom_append, List.nil_append, momentsFrom, momentsFrom,
    List.rtakeWhile_concat]
  by_cases hr : r = .clear
  · simp [hr]
  · have hlast : [(h, r)].filterMap (fun m => if HasRoom limit m.1 then m.2.fault? else none) =
        (if HasRoom limit h then r.fault? else none).toList := by
      cases hm : (if HasRoom limit h then r.fault? else none) <;> simp [hm]
    simp [hr, keptFaults, hlast]

theorem after_concat : after limit (h ++ [r]) = ((after limit h).perform r).2 := by
  rw [after, List.foldl_append]
  rfl

/-! ### What one request does -/

variable (d : Diagnostics)

theorem perform_of_isQuestion {r : Request} (hr : r.isQuestion = true) : (d.perform r).2 = d := by
  cases r with
  | add | warn | setLimit | clear => cases hr
  | summary =>
    rw [perform]
    split <;> rfl
  | report | faults | warnings | hasErrors | isFull | errorCount | warningCount => rfl

theorem limit_perform : (d.perform r).2.limit = r.limit?.getD d.limit := by
  cases r with
  | add f =>
    show (d.add f).limit = d.limit
    rw [add]
    split <;> rfl
  | warn | setLimit | clear => rfl
  | summary | report | faults | warnings | hasErrors | isFull | errorCount | warningCount =>
    rw [perform_of_isQuestion d rfl]
    rfl

theorem faults_perform :
    (d.perform r).2.faults.toList =
      if r = .clear then []
      else d.faults.toList ++ (if (d.faults.size : Int) < d.limit then r.fault? else none).toList := by
  cases r with
  | add f =>
    show (d.add f).faults.toList = d.faults.toList ++ _
    rw [add, isFull]
    by_cases hfull : d.limit ≤ d.faults.size
    · simp [hfull, Int.not_lt.mpr hfull]
    · simp [hfull, Int.not_le.mp hfull, Request.fault?]
  | warn | setLimit => simp [perform, warn, Request.fault?]
  | clear => rfl
  | summary | report | faults | warnings | hasErrors | isFull | errorCount | warningCount =>
    rw [perform_of_isQuestion d rfl]
    simp [Request.fault?]

theorem errorCount_perform :
    (d.perform r).2.errorCount = if r = .clear then 0 else d.errorCount + r.fault?.toList.length := by
  cases r with
  | add f =>
    show (d.add f).errorCount = d.errorCount + 1
    rw [add]
    split <;> simp only [errorCount, Array.size_push] <;> omega
  | warn | setLimit => rfl
  | clear => rfl
  | summary | report | faults | warnings | hasErrors | isFull | errorCount | warningCount =>
    rw [perform_of_isQuestion d rfl]
    rfl

theorem warnings_perform :
    (d.perform r).2.warnings.toList =
      if r = .clear then [] else d.warnings.toList ++ r.warning?.toList := by
  cases r with
  | add f =>
    show (d.add f).warnings.toList = d.warnings.toList ++ []
    rw [add]
    split <;> simp
  | warn message location => simp [perform, warn, Request.warning?]
  | setLimit limit => simp [perform, Request.warning?]
  | clear => rfl
  | summary | report | faults | warnings | hasErrors | isFull | errorCount | warningCount =>
    rw [perform_of_isQuestion d rfl]
    simp [Request.warning?]

/-! ### What the diagnostics hold -/

/-- What diagnostics that began with a limit hold behind a history. -/
structure Account (limit : Int) (h : List Request) (d : Diagnostics) : Prop where
  /-- The limit in force is the one that was set last. -/
  limit_eq : d.limit = limitAfter limit h
  /-- Every fault since the last clear is counted, kept or not. -/
  errorCount_eq : d.errorCount = (added (sinceClear h)).length
  /-- Those that there was room for are kept, in order. -/
  faults_eq : d.faults.toList = keptFaults limit h
  faults_sublist : d.faults.toList.Sublist (added (sinceClear h))
  /-- Only a clear takes faults away. -/
  faults_prefix : ∀ front behind, h = front ++ behind → .clear ∉ behind →
    (after limit front).faults.toList <+: d.faults.toList
  /-- The limit has no say in warnings. -/
  warnings_eq : d.warnings.toList = (sinceClear h).filterMap Request.warning?
  hasErrors_iff : d.hasErrors = true ↔ 0 < d.errorCount
  /-- A summary is given exactly if there are errors, and reads as the report. -/
  summary_iff : (∃ f, (d.perform .summary).1 = .fault f) ↔ d.hasErrors = true
  summary_print : ∀ f, (d.perform .summary).1 = .fault f →
    f.cause = .summary d.report none ∧ f.print = d.report
  /-- Questions, that for a summary among them, change nothing. -/
  question : ∀ r : Request, r.isQuestion = true → (d.perform r).2 = d
  /-- The report ends with the counts of errors and of warnings. -/
  report_eq : ∃ front, d.report = front ++ "\n" ++
    counted (added (sinceClear h)).length "error" ++ ", " ++
      counted ((sinceClear h).filterMap Request.warning?).length "warning"

theorem limit_after : (after limit h).limit = limitAfter limit h := by
  induction h using List.reverseRecOn with
  | nil => rfl
  | append_singleton h r ih => rw [after_concat, limit_perform, limitAfter_concat, ih]

theorem errorCount_after : (after limit h).errorCount = (added (sinceClear h)).length := by
  induction h using List.reverseRecOn with
  | nil => rfl
  | append_singleton h r ih =>
    rw [after_concat, errorCount_perform, sinceClear_concat, ih]
    split
    · rfl
    · rw [added, added, List.filterMap_append, List.length_append]
      cases hr : r.fault? <;> simp [hr]

theorem faults_after : (after limit h).faults.toList = keptFaults limit h := by
  induction h using List.reverseRecOn with
  | nil => rfl
  | append_singleton h r ih =>
    rw [after_concat, faults_perform, keptFaults_concat, ih, limit_after]
    rfl

theorem warnings_after :
    (after limit h).warnings.toList = (sinceClear h).filterMap Request.warning? := by
  induction h using List.reverseRecOn with
  | nil => rfl
  | append_singleton h r ih =>
    rw [after_concat, warnings_perform, sinceClear_concat, ih]
    split
    · rfl
    · rw [List.filterMap_append]
      cases hr : r.warning? <;> simp [hr]

theorem keptFaults_sublist : (keptFaults limit h).Sublist (added (sinceClear h)) := by
  induction h using List.reverseRecOn with
  | nil => exact List.Sublist.refl _
  | append_singleton h r ih =>
    rw [keptFaults_concat, sinceClear_concat]
    split
    · exact List.Sublist.refl _
    · rw [added, List.filterMap_append]
      refine ih.append ?_
      cases hr : r.fault? <;> split <;> simp [hr]

theorem faults_after_prefix {front behind : List Request} (hclear : .clear ∉ behind) :
    (after limit front).faults.toList <+: (after limit (front ++ behind)).faults.toList := by
  induction behind using List.reverseRecOn with
  | nil => simp
  | append_singleton behind r ih =>
    rw [List.mem_append, not_or, List.mem_singleton] at hclear
    rw [← List.append_assoc, after_concat, faults_perform, if_neg (Ne.symm hclear.2)]
    exact (ih hclear.1).trans (List.prefix_append _ _)

/-! ### Summaries and reports -/

theorem perform_summary_iff (f : Fault) :
    (d.perform .summary).1 = .fault f ↔
      d.hasErrors = true ∧ f = { cause := .summary d.report none } := by
  rw [perform, summary?]
  cases d.hasErrors with
  | false => simp
  | true => simp [eq_comm]

/-- A report ends with a line of counts. -/
theorem exists_report_eq :
    ∃ front, d.report = front ++ "\n" ++ counted d.errorCount "error" ++ ", " ++
      counted d.warnings.size "warning" := by
  rw [report, reportParts]
  set parts := d.faults.toList.flatMap (fun f => [f.print, ""]) ++ d.warnings.toList ++
    (if d.suppressed = 0 then [] else ["(" ++ toString d.suppressed ++ " more errors not shown)"])
  by_cases hparts : parts = []
  · refine ⟨"", ?_⟩
    rw [hparts, List.nil_append, String.intercalate_singleton, String.empty_append]
  · refine ⟨"\n".intercalate parts ++ "\n", ?_⟩
    rw [String.intercalate_append_of_ne_nil hparts (List.cons_ne_nil _ _),
      String.intercalate_singleton]
    simp only [String.append_assoc]

/-- **Diagnostics keep the exact account of their history**, whatever is asked of them in whatever
order: stored and suppressed faults together are all that came since the last clear. -/
theorem account_after : Account limit h (after limit h) where
  limit_eq := limit_after limit h
  errorCount_eq := errorCount_after limit h
  faults_eq := faults_after limit h
  faults_sublist := by
    rw [faults_after]
    exact keptFaults_sublist limit h
  faults_prefix := by
    rintro front behind rfl hclear
    exact faults_after_prefix limit hclear
  warnings_eq := warnings_after limit h
  hasErrors_iff := by
    rw [hasErrors, decide_eq_true_eq]
  summary_iff := by
    simp only [perform_summary_iff, exists_and_left, exists_eq, and_true]
  summary_print := by
    intro f hf
    obtain ⟨-, rfl⟩ := (perform_summary_iff _ f).mp hf
    exact ⟨rfl, rfl⟩
  question := fun _ hr => perform_of_isQuestion _ hr
  report_eq := by
    rw [← errorCount_after limit h, ← warnings_after limit h, Array.length_toList]
    exact exists_report_eq _

end Lexis.Diagnostics
