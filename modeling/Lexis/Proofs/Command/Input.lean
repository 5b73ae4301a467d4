/-
What a run reads.

Wherever they come from, the bytes of an input are either those of a text, which is tokenized under
the name of the input with its line endings folded, or else the run ends at the first ill-formed
sequence and prints nothing but the message about it (`Plan.Reads`, `Plan.reads_onBytes`).

An argument that names a file is read from there, and standard input plays no part then, unless the
path is displayed as a dash.  In that case it is the file that plays no part (`run_of_path`).
-/
import Lexis.Command.FileTree
import Lexis.Proofs.Command.Path
import Lexis.Proofs.Command.Shown
import Lexis.Proofs.Command.Task
import Lexis.Proofs.Text.LineEnding
import Lexis.Proofs.Text.Utf8.Decode

namespace Lexis.Command

open Text

variable {look : String → Entry} {words : List String} {line : CommandLine} {plan : Plan}
variable {env : Environment} {name path : String} {bytes content stdin : List UInt8}
variable {format : Format}

/-! ### Bytes -/

theorem readText_of_utf8 {s : String} (h : bytes = s.toUTF8.data.toList) :
    readText bytes = .ok (String.ofList (withLineFeeds s.toList)) := by
  rw [readText, h, ← Utf8.encode_toList, Utf8.decode_encode]

theorem readText_of_firstIn {e : Utf8.IllFormed} (h : e.FirstIn bytes) :
    readText bytes = .error (.illFormed e) := by
  rw [readText, Utf8.decode_eq_error_iff.mpr h]

/-- Bytes that are those of no text have a first ill-formed sequence. -/
theorem exists_firstIn (h : ∀ s : String, bytes ≠ s.toUTF8.data.toList) :
    ∃ e : Utf8.IllFormed, e.FirstIn bytes := by
  cases hd : Utf8.decode bytes with
  | ok s =>
    have hs : bytes = Utf8.encode (String.ofList s).toList := by
      rw [String.toList_ofList]
      exact Utf8.decode_eq_ok_iff.mp hd
    rw [Utf8.encode_toList] at hs
    exact absurd hs (h _)
  | error e => exact ⟨e, Utf8.decode_eq_error_iff.mp hd⟩

theorem isAscii_flawName (flaw : Utf8.Flaw) : IsAscii (flawName flaw).toList := by
  cases flaw <;> decide +kernel

theorem isAscii_printIllFormed (e : Utf8.IllFormed) : IsAscii (printIllFormed e).toList := by
  have hfront : IsAscii "'utf-8' codec can't decode ".toList := by decide +kernel
  have hbyte : IsAscii "byte 0x".toList := by decide +kernel
  have hposition : IsAscii " in position ".toList := by decide +kernel
  have hbytes : IsAscii "bytes in position ".toList := by decide +kernel
  have hdash : IsAscii "-".toList := by decide +kernel
  have hcolon : IsAscii ": ".toList := by decide +kernel
  have hflaw := isAscii_flawName e.flaw
  unfold printIllFormed
  split
  · simp only [String.toList_append, String.toList_ofList, isAscii_append, and_assoc]
    exact ⟨hfront, hbyte, isAscii_fixedHex _ _, hposition, isAscii_nat _, hcolon, hflaw⟩
  · simp only [String.toList_append, isAscii_append, and_assoc]
    exact ⟨hfront, hbytes, isAscii_nat _, hdash, isAscii_nat _, hcolon, hflaw⟩

/-- The outcome of a run over bytes that are those of no text: one line about the first of them. -/
def refusal (e : Utf8.IllFormed) : Outcome where
  exit := .invalidArguments
  output := ""
  errors := "Error: " ++ printIllFormed e ++ "\n"

theorem shown_illFormed (e : Utf8.IllFormed) :
    shown ("Error: " ++ printIllFormed e) = "Error: " ++ printIllFormed e ++ "\n" := by
  have herror : IsAscii "Error: ".toList := by decide
  have hmessage : IsAscii ("Error: " ++ printIllFormed e).toList := by
    rw [String.toList_append, isAscii_append]
    exact ⟨herror, isAscii_printIllFormed e⟩
  exact shown_of_notMem (hmessage.isPrintable.notMem not_isPrintable_escape)

theorem outcome_illFormed (e : Utf8.IllFormed) (verbose : Bool) :
    (Failure.illFormed e).outcome verbose = refusal e := by
  rw [refusal, ← shown_illFormed]
  exact congrArg (Outcome.mk .invalidArguments "") String.append_empty

/-- The outcome of a run over the bytes of an input of some name. -/
def Plan.onBytes (p : Plan) (env : Environment) (name : String) (bytes : List UInt8) : Outcome :=
  match readText bytes with
  | .ok text => p.tokenize env ⟨name, text⟩
  | .error failure => failure.outcome p.verbose

/-- An outcome tells of the bytes of an input: of their text with its line endings folded, or of the
first of them that belong to no text. -/
inductive Plan.Reads (p : Plan) (env : Environment) (name : String) (bytes : List UInt8) :
    Outcome → Prop where
  | text {s : String} {t : List Char} (hs : bytes = s.toUTF8.data.toList)
    (ht : FoldsTo s.toList t) : Reads p env name bytes (p.tokenize env ⟨name, String.ofList t⟩)
  | refused {e : Utf8.IllFormed} (h : ∀ s : String, bytes ≠ s.toUTF8.data.toList)
    (he : e.FirstIn bytes) : Reads p env name bytes (refusal e)

theorem Plan.onBytes_of_utf8 (p : Plan) {s : String} {t : List Char}
    (hs : bytes = s.toUTF8.data.toList) (ht : FoldsTo s.toList t) :
    p.onBytes env name bytes = p.tokenize env ⟨name, String.ofList t⟩ := by
  rw [onBytes, readText_of_utf8 hs, foldsTo_iff.mp ht]

theorem Plan.onBytes_of_firstIn (p : Plan) {e : Utf8.IllFormed} (he : e.FirstIn bytes) :
    p.onBytes env name bytes = refusal e := by
  rw [onBytes, readText_of_firstIn he, ← outcome_illFormed e p.verbose]

theorem Plan.reads_onBytes (p : Plan) (env : Environment) (name : String) (bytes : List UInt8) :
    p.Reads env name bytes (p.onBytes env name bytes) := by
  by_cases h : ∃ s : String, bytes = s.toUTF8.data.toList
  · obtain ⟨s, hs⟩ := h
    have ht := foldsTo_withLineFeeds s.toList
    rw [p.onBytes_of_utf8 hs ht]
    exact .text hs ht
  · have hnone : ∀ s : String, bytes ≠ s.toUTF8.data.toList := fun s hs => h ⟨s, hs⟩
    obtain ⟨e, he⟩ := exists_firstIn hnone
    rw [p.onBytes_of_firstIn he]
    exact .refused hnone he

/-! ### Inputs -/

/-- The name of an input as a source. -/
def nameOf : Option Input → String
  | some (.file path _) => path
  | _ => standardInputName

/-- The bytes of an input, given what standard input holds. -/
def bytesOf (stdin : List UInt8) : Option Input → List UInt8
  | some (.file _ content) => content
  | _ => stdin

theorem Plan.run_eq_onBytes (hsample : plan.sample = false) (env : Environment)
    (stdin : List UInt8) :
    plan.run env stdin = plan.onBytes env (nameOf plan.input) (bytesOf stdin plan.input) := by
  have hsource : plan.source stdin =
      (readText (bytesOf stdin plan.input)).map (⟨nameOf plan.input, ·⟩) := by
    rw [source, hsample]
    match plan.input with
    | none | some .standardInput | some (.file path content) => rfl
  rw [run, hsource, onBytes]
  cases readText (bytesOf stdin plan.input) <;> rfl

/-- The whole command, by the input that its arguments name. -/
theorem run_of_input (hline : CommandLine.read words = .ok line) (hinfo : line.information? = none)
    (hformat : checkFormat line.format? = .ok format) (hsample : line.has .sample = false)
    {input : Option Input} (hinput : checkArguments look line.arguments = .ok input)
    (env : Environment) (stdin : List UInt8) :
    run look env words stdin =
      (line.planFor format input).onBytes env (nameOf input) (bytesOf stdin input) := by
  rw [run_of_plan hline hinfo (CommandLine.plan_of_checks hformat hinput)]
  exact Plan.run_eq_onBytes hsample env stdin

theorem checkArguments_of_file (hpath : path ≠ "-") (hlook : look path = .file content) :
    checkArguments look [path] =
      .ok (some (if displayPath path = "-" then .standardInput
        else .file (displayPath path) content)) := by
  rw [checkArguments_singleton, checkInput, if_neg hpath, hlook]
  show Except.map some (if _ then _ else _) = _
  rw [← apply_ite Except.ok]
  rfl

/-- **A file that an argument names is read**, and then nothing depends on standard input, unless
its path is displayed as a dash.  In that case standard input is read, and the file is not. -/
theorem run_of_path (hline : CommandLine.read words = .ok line) (hinfo : line.information? = none)
    (hformat : checkFormat line.format? = .ok format) (hsample : line.has .sample = false)
    (harguments : line.arguments = [path]) (hpath : path ≠ "-") (hlook : look path = .file content)
    (env : Environment) :
    (displayPath path ≠ "-" → ∃ outcome,
      (line.planFor format (some (.file (displayPath path) content))).Reads env (displayPath path)
        content outcome ∧
      ∀ stdin, run look env words stdin = outcome) ∧
    (displayPath path = "-" → ∀ stdin,
      (line.planFor format (some .standardInput)).Reads env "<stdin>" stdin
        (run look env words stdin)) := by
  have hinput := checkArguments_of_file hpath hlook
  rw [← harguments] at hinput
  constructor
  · intro hdisplay
    rw [if_neg hdisplay] at hinput
    exact ⟨_, Plan.reads_onBytes _ _ _ _, run_of_input hline hinfo hformat hsample hinput env⟩
  · intro hdisplay stdin
    rw [if_pos hdisplay] at hinput
    rw [run_of_input hline hinfo hformat hsample hinput]
    exact Plan.reads_onBytes _ _ _ _

/-- A verbose run over a file whose path has a component too many. -/
theorem run_of_dotted_path :
    CommandLine.read ["-v", "./a"] = .ok ⟨[.flag .verbose], ["./a"]⟩ ∧
    (CommandLine.mk [.flag .verbose] ["./a"]).information? = none ∧
    checkFormat (CommandLine.mk [.flag .verbose] ["./a"]).format? = .ok .text ∧
    (CommandLine.mk [.flag .verbose] ["./a"]).has .sample = false ∧
    "./a" ≠ "-" ∧ (FileTree.ofPaths [] [("a", [0x78])]).lookup "./a" = .file [0x78] ∧
    displayPath "./a" ≠ "-" ∧
    ∃ outcome,
      ((CommandLine.mk [.flag .verbose] ["./a"]).planFor .text (some (.file "a" [0x78]))).Reads {}
        "a" [0x78] outcome ∧
      ∀ stdin, run (FileTree.ofPaths [] [("a", [0x78])]).lookup {} ["-v", "./a"] stdin = outcome := by
  have hline : CommandLine.read ["-v", "./a"] = .ok ⟨[.flag .verbose], ["./a"]⟩ := by
    decide +kernel
  have hinfo : (CommandLine.mk [.flag .verbose] ["./a"]).information? = none := by decide
  have hformat : checkFormat (CommandLine.mk [.flag .verbose] ["./a"]).format? = .ok .text := rfl
  have hsample : (CommandLine.mk [.flag .verbose] ["./a"]).has .sample = false := by decide
  have hpath : "./a" ≠ "-" := by decide
  have hlook : (FileTree.ofPaths [] [("a", [0x78])]).lookup "./a" = .file [0x78] := by
    decide +kernel
  have hdisplay : displayPath "./a" = "a" := by decide +kernel
  have hdash : displayPath "./a" ≠ "-" := by
    rw [hdisplay]
    decide
  obtain ⟨outcome, hreads, hrun⟩ :=
    (run_of_path hline hinfo hformat hsample rfl hpath hlook {}).1 hdash
  rw [hdisplay] at hreads
  exact ⟨hline, hinfo, hformat, hsample, hpath, hlook, hdash, outcome, hreads, hrun⟩

/-- A file named by a dash is not read by way of its directory: what the run prints depends on
standard input. -/
theorem run_of_dash_in_directory :
    "./-" ≠ "-" ∧ (FileTree.ofPaths [] [("-", [0x78])]).lookup "./-" = .file [0x78] ∧
    ¬ ∃ outcome,
      ((CommandLine.mk [] ["./-"]).planFor .text (some (.file (displayPath "./-") [0x78]))).Reads {}
        (displayPath "./-") [0x78] outcome ∧
      ∀ stdin, run (FileTree.ofPaths [] [("-", [0x78])]).lookup {} ["./-"] stdin = outcome := by
  refine ⟨by decide, by decide +kernel, ?_⟩
  rintro ⟨outcome, -, hrun⟩
  have hsame := (hrun [0x79]).trans (hrun [0x7a]).symm
  exact absurd hsame (by decide +kernel)

end Lexis.Command
