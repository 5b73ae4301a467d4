/-
Files and standard input.

The same bytes come to the same run, whether they are in a file that is named or on standard input
(`run_of_file_of_standardInput`): what is printed and the exit code are equal, and so is what is
told, but for the name of the source at the front of its lines.  If the bytes are those of no text,
both runs end with the same message and print nothing.
-/
import Lexis.Proofs.Command.Input
import Lexis.Proofs.Command.Report

namespace Lexis.Command

open Text

variable {look look' : String → Entry} {words words' arguments : List String}
variable {settings : List Setting} {path name name' : String} {bytes : List UInt8}
variable {format : Format} {plan : Plan}

/-- Two outcomes are the same but for the names of their sources. -/
structure Outcome.SameButForNames (o o' : Outcome) (name name' : String) : Prop where
  output : o.output = o'.output
  exit : o.exit = o'.exit
  errors : ∃ lines, o.errors = told name lines ∧ o'.errors = told name' lines

theorem Plan.sameButForNames_tokenize (hverbose : plan.verbose = false) (env : Environment)
    (text name name' : String) :
    (plan.tokenize env ⟨name, text⟩).SameButForNames (plan.tokenize env ⟨name', text⟩) name
      name' := by
  obtain ⟨lines, hlines⟩ := plan.exists_told hverbose env text
  refine ⟨?_, ?_, lines, hlines name, hlines name'⟩
  · rw [output_tokenize, output_tokenize]
  · rw [tokenize_eq, tokenize_eq, fails_eq, fails_eq]

theorem sameButForNames_refusal (e : Utf8.IllFormed) (name name' : String) :
    (refusal e).SameButForNames (refusal e) name name' := by
  have htold : ∀ name, (refusal e).errors = told name [.plain ("Error: " ++ printIllFormed e)] := by
    intro name
    rw [told_singleton]
    exact (shown_illFormed e).symm
  exact ⟨rfl, rfl, _, htold name, htold name'⟩

/-- What a run reads of some bytes, it reads of them under every name. -/
theorem Plan.sameButForNames_onBytes (hverbose : plan.verbose = false) (env : Environment)
    (bytes : List UInt8) (name name' : String) :
    (plan.onBytes env name bytes).SameButForNames (plan.onBytes env name' bytes) name name' := by
  by_cases h : ∃ s : String, bytes = s.toUTF8.data.toList
  · obtain ⟨s, hs⟩ := h
    have ht := foldsTo_withLineFeeds s.toList
    rw [plan.onBytes_of_utf8 hs ht, plan.onBytes_of_utf8 hs ht]
    exact sameButForNames_tokenize hverbose env _ name name'
  · obtain ⟨e, he⟩ := exists_firstIn fun s hs => h ⟨s, hs⟩
    rw [plan.onBytes_of_firstIn he, plan.onBytes_of_firstIn he]
    exact sameButForNames_refusal e name name'

theorem run_of_displayed (hline : CommandLine.read words = .ok ⟨settings, [path]⟩)
    (hinfo : (CommandLine.mk settings []).information? = none)
    (hformat : checkFormat (CommandLine.mk settings []).format? = .ok format)
    (hsample : .flag .sample ∉ settings) (hdisplay : displayPath path ≠ "-")
    (hlook : look path = .file bytes) (env : Environment) (stdin : List UInt8) :
    run look env words stdin =
      ((CommandLine.mk settings []).planFor format none).onBytes env (displayPath path) bytes := by
  have hpath : path ≠ "-" := by
    rintro rfl
    exact hdisplay (by decide +kernel)
  have hinput := checkArguments_of_file hpath hlook
  rw [if_neg hdisplay] at hinput
  exact run_of_input hline hinfo hformat (decide_eq_false hsample) hinput env stdin

theorem run_of_dash (hline : CommandLine.read words = .ok ⟨settings, arguments⟩)
    (harguments : arguments = [] ∨ arguments = ["-"])
    (hinfo : (CommandLine.mk settings []).information? = none)
    (hformat : checkFormat (CommandLine.mk settings []).format? = .ok format)
    (hsample : .flag .sample ∉ settings) (env : Environment) (stdin : List UInt8) :
    run look env words stdin =
      ((CommandLine.mk settings []).planFor format none).onBytes env standardInputName stdin := by
  have hflag : (CommandLine.mk settings arguments).has .sample = false := decide_eq_false hsample
  rcases harguments with rfl | rfl
  · exact run_of_input hline hinfo hformat hflag rfl env stdin
  · exact run_of_input hline hinfo hformat hflag (checkArguments_singleton look "-") env stdin

/-- **A file and standard input with the same bytes come to the same run**, but for the name of the
source.  The bytes of a text are tokenized with all line endings folded, and bytes that are those of
no text come to the same refusal. -/
theorem run_of_file_of_standardInput
    (hfile : CommandLine.read words = .ok ⟨settings, [path]⟩)
    (hpiped : CommandLine.read words' = .ok ⟨settings, arguments⟩)
    (harguments : arguments = [] ∨ arguments = ["-"])
    (hinfo : (CommandLine.mk settings []).information? = none)
    (hformat : checkFormat (CommandLine.mk settings []).format? = .ok format)
    (hsample : .flag .sample ∉ settings) (hverbose : .flag .verbose ∉ settings)
    (hdisplay : displayPath path ≠ "-") (hlook : look path = .file bytes)
    (env : Environment) (stdin : List UInt8) :
    (run look env words stdin).SameButForNames (run look' env words' bytes) (displayPath path)
      "<stdin>" ∧
    (∀ s : String, bytes = s.toUTF8.data.toList → ∃ t, FoldsTo s.toList t ∧
      run look env words stdin =
        ((CommandLine.mk settings []).planFor format none).tokenize env
          ⟨displayPath path, String.ofList t⟩ ∧
      run look' env words' bytes =
        ((CommandLine.mk settings []).planFor format none).tokenize env
          ⟨"<stdin>", String.ofList t⟩) ∧
    ((∀ s : String, bytes ≠ s.toUTF8.data.toList) → ∃ e : Utf8.IllFormed, e.FirstIn bytes ∧
      run look env words stdin = refusal e ∧ run look' env words' bytes = refusal e) := by
  rw [run_of_displayed hfile hinfo hformat hsample hdisplay hlook,
    run_of_dash hpiped harguments hinfo hformat hsample]
  refine ⟨?_, ?_, ?_⟩
  · exact Plan.sameButForNames_onBytes (decide_eq_false hverbose) env bytes _ _
  · intro s hs
    have ht := foldsTo_withLineFeeds s.toList
    exact ⟨_, ht, Plan.onBytes_of_utf8 _ hs ht, Plan.onBytes_of_utf8 _ hs ht⟩
  · intro hnone
    obtain ⟨e, he⟩ := exists_firstIn hnone
    exact ⟨e, he, Plan.onBytes_of_firstIn _ he, Plan.onBytes_of_firstIn _ he⟩

/-- A stray character and a line ending of two characters, in a file and on standard input, under
strict comments and in a strict run. -/
theorem run_of_stray_character :
    CommandLine.read ["--strict", "A.java"] = .ok ⟨[.flag .strict], ["A.java"]⟩ ∧
    CommandLine.read ["-", "--strict"] = .ok ⟨[.flag .strict], ["-"]⟩ ∧
    (CommandLine.mk [.flag .strict] []).information? = none ∧
    checkFormat (CommandLine.mk [.flag .strict] []).format? = .ok .text ∧
    .flag .sample ∉ [Setting.flag .strict] ∧ .flag .verbose ∉ [Setting.flag .strict] ∧
    displayPath "A.java" ≠ "-" ∧
    (FileTree.ofPaths [] [("A.java", [0x40, 0x0d, 0x0a])]).lookup "A.java" =
      .file [0x40, 0x0d, 0x0a] ∧
    (run (FileTree.ofPaths [] [("A.java", [0x40, 0x0d, 0x0a])]).lookup
        { strictComments := some "on" } ["--strict", "A.java"] []).SameButForNames
      (run (fun _ => .missing) { strictComments := some "on" } ["-", "--strict"] [0x40, 0x0d, 0x0a])
      "A.java" "<stdin>" := by
  have hfile : CommandLine.read ["--strict", "A.java"] = .ok ⟨[.flag .strict], ["A.java"]⟩ := by
    decide +kernel
  have hpiped : CommandLine.read ["-", "--strict"] = .ok ⟨[.flag .strict], ["-"]⟩ := by
    decide +kernel
  have hinfo : (CommandLine.mk [.flag .strict] []).information? = none := by decide
  have hsample : .flag .sample ∉ [Setting.flag .strict] := by decide
  have hverbose : .flag .verbose ∉ [Setting.flag .strict] := by decide
  have hdisplay : displayPath "A.java" = "A.java" :=
    displayPath_of_name (by decide) (by decide) (by decide)
  have hdash : displayPath "A.java" ≠ "-" := by
    rw [hdisplay]
    decide
  have hlook : (FileTree.ofPaths [] [("A.java", [0x40, 0x0d, 0x0a])]).lookup "A.java" =
      .file [0x40, 0x0d, 0x0a] := by decide +kernel
  have hsame : (run (FileTree.ofPaths [] [("A.java", [0x40, 0x0d, 0x0a])]).lookup
        { strictComments := some "on" } ["--strict", "A.java"] []).SameButForNames
      (run (fun _ => .missing) { strictComments := some "on" } ["-", "--strict"] [0x40, 0x0d, 0x0a])
      (displayPath "A.java") "<stdin>" :=
    (run_of_file_of_standardInput hfile hpiped (.inr rfl) hinfo rfl hsample hverbose hdash hlook
      _ _).1
  rw [hdisplay] at hsame
  exact ⟨hfile, hpiped, hinfo, rfl, hsample, hverbose, hdash, hlook, hsame⟩

end Lexis.Command
