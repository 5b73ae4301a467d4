/-
What a run writes as JSON.

With `--format json` a run writes nothing but ASCII, and a reader of JSON finds in it one object for
each token of the source, the token at the end included, in order: `run_of_json`.  No text of a
token is lost or changed on the way.
-/
import Lexis.Proofs.Command.Output
import Lexis.Proofs.Json.RoundTrip
import Lexis.Proofs.Json.Value
import Lexis.Proofs.OpenComment

namespace Lexis

/-- A value in print is ASCII. -/
theorem Json.Value.toNat_lt_of_mem_print {v : Json.Value} {c : Char} (h : c ∈ v.print.toList) :
    c.toNat < 0x80 := by
  rw [print, String.toList_ofList] at h
  rcases v.isAsciiLines_write 0 c h with rfl | ⟨-, hc⟩
  · decide
  · omega

theorem read_tokensToJson (tokens : List Token) :
    Json.read ((tokensToJson tokens).print ++ "\n").toList = some (tokensToJson tokens) := by
  rw [Json.Value.print, String.toList_append, String.toList_ofList]
  exact Json.read_write _ 0 (List.forall_mem_singleton.mpr rfl)

namespace Command

variable {look : String → Entry} {words : List String} {line : CommandLine} {plan : Plan}
variable {stdin : List UInt8} {source : Source}

/-- **The JSON of a run is ASCII, and reads as the tokens of its source**: one object for each of
them, in order and with the end, of the four fields and no other. -/
theorem run_of_json (hline : CommandLine.read words = .ok line)
    (hinfo : line.information? = none) (hplan : line.plan look = .ok plan)
    (hsource : plan.source stdin = .ok source) (hformat : plan.format = .json)
    (env : Environment) :
    (∀ c ∈ (run look env words stdin).output.toList, c.toNat < 0x80) ∧
    Json.read (run look env words stdin).output.toList =
      some (.list ((tokenize source.text).map fun t =>
        .object [("type", .text t.kind.name), ("text", .text t.text), ("line", .number t.line),
          ("column", .number t.column)])) ∧
    ∃ e, (tokenize source.text).getLast? = some e ∧ e.kind = .endOfInput := by
  have houtput : (run look env words stdin).output =
      (tokensToJson (tokenize source.text)).print ++ "\n" := by
    rw [run_of_plan hline hinfo hplan, Plan.run_eq_tokenize hsource, Plan.output_tokenize, hformat]
    rfl
  rw [houtput]
  refine ⟨?_, read_tokensToJson _, ?_⟩
  · intro c hc
    rw [String.toList_append, List.mem_append] at hc
    rcases hc with hc | hc
    · exact Json.Value.toNat_lt_of_mem_print hc
    · rw [List.mem_singleton.mp hc]
      decide
  · obtain ⟨e, hlast, hend, -⟩ := exists_getLast?_tokenize source.text none {}
    exact ⟨e, hlast, of_decide_eq_true hend⟩

/-- A quotation mark and a character that takes two UTF-16 units, written as JSON. -/
theorem run_of_quote_and_pair :
    CommandLine.read ["--format", "json"] = .ok ⟨[.format "json"], []⟩ ∧
    (CommandLine.mk [.format "json"] []).information? = none ∧
    (CommandLine.mk [.format "json"] []).plan (fun _ => .missing) = .ok { format := .json } ∧
    (Plan.mk none false .json false false false false).source [0x22, 0xf0, 0x9f, 0x98, 0x80] =
      .ok ⟨"<stdin>", "\"😀"⟩ ∧
    (∀ c ∈ (run (fun _ => .missing) {} ["--format", "json"]
      [0x22, 0xf0, 0x9f, 0x98, 0x80]).output.toList, c.toNat < 0x80) ∧
    Json.read (run (fun _ => .missing) {} ["--format", "json"]
        [0x22, 0xf0, 0x9f, 0x98, 0x80]).output.toList =
      some (.list [
        .object [("type", .text "ERROR"), ("text", .text "\""), ("line", .number 1),
          ("column", .number 1)],
        .object [("type", .text "ERROR"), ("text", .text "😀"), ("line", .number 1),
          ("column", .number 2)],
        .object [("type", .text "EOF"), ("text", .text ""), ("line", .number 1),
          ("column", .number 3)]]) := by
  have hline : CommandLine.read ["--format", "json"] = .ok ⟨[.format "json"], []⟩ := by
    decide +kernel
  have hinfo : (CommandLine.mk [.format "json"] []).information? = none := by decide
  have hplan : (CommandLine.mk [.format "json"] []).plan (fun _ => .missing) =
      .ok { format := .json } := by decide +kernel
  have hsource : (Plan.mk none false .json false false false false).source
      [0x22, 0xf0, 0x9f, 0x98, 0x80] = .ok ⟨"<stdin>", "\"😀"⟩ := by decide +kernel
  have htokens : tokenize "\"😀" = [⟨.invalid, "\"", 1, 1, unnamedSource⟩,
      ⟨.invalid, "😀", 1, 2, unnamedSource⟩, ⟨.endOfInput, "", 1, 3, unnamedSource⟩] := by
    decide +kernel
  obtain ⟨hascii, hread, -⟩ := run_of_json hline hinfo hplan hsource rfl {}
  rw [htokens] at hread
  exact ⟨hline, hinfo, hplan, hsource, hascii, hread⟩

end Command

end Lexis
