/-
Listings in print.

The printed form of a token is printable throughout, whatever its text is
(`Token.isPrintable_print`).  A listing has line feeds beside that, and nothing else
(`isPrintable_of_mem_listing`).
-/
import Lexis.Proofs.Text.Printable
import Lexis.Token.Listing

namespace Lexis

open Text

theorem Kind.isAscii_name (k : Kind) : IsAscii k.name.toList := by
  have hall : ∀ k ∈ Kind.all, IsAscii k.name.toList := by decide +kernel
  exact hall k k.mem_all

theorem Token.isPrintable_print (t : Token) : IsPrintable t.print.toList := by
  have hopening : IsAscii "Token(".toList := by decide
  have hcomma : IsAscii ", ".toList := by decide
  have hcolon : IsAscii ":".toList := by decide
  have hclosing : IsAscii ")".toList := by decide
  simp only [print, String.toList_append, isPrintable_append, and_assoc]
  exact ⟨hopening.isPrintable, t.kind.isAscii_name.isPrintable, hcomma.isPrintable,
    isPrintable_quoted t.text, hcomma.isPrintable, (isAscii_int t.line).isPrintable,
    hcolon.isPrintable, (isAscii_int t.column).isPrintable, hclosing.isPrintable⟩

theorem isPrintable_of_mem_listingLines {tokens : List Token} {showEnd : Bool} {line : String}
    (h : line ∈ listingLines tokens showEnd) : IsPrintable line.toList := by
  have htotal : IsAscii "Total tokens: ".toList := by decide
  rcases List.mem_append.mp h with h | h
  · obtain ⟨t, -, rfl⟩ := List.mem_map.mp h
    exact t.isPrintable_print
  · rcases List.mem_cons.mp h with rfl | h
    · exact List.forall_mem_nil _
    · obtain rfl := List.mem_singleton.mp h
      rw [String.toList_append, isPrintable_append]
      exact ⟨htotal.isPrintable, (isAscii_nat _).isPrintable⟩

/-- What stands between line feeds comes from one of the lines. -/
theorem mem_intercalate_newline {c : Char} {lines : List String}
    (h : c ∈ ("\n".intercalate lines).toList) : c = '\n' ∨ ∃ line ∈ lines, c ∈ line.toList := by
  induction lines with
  | nil => cases h
  | cons l lines ih =>
    cases lines with
    | nil =>
      rw [String.intercalate_singleton] at h
      exact .inr ⟨l, List.mem_singleton_self l, h⟩
    | cons k lines =>
      rw [String.intercalate_cons_cons, String.toList_append, String.toList_append,
        List.mem_append, List.mem_append] at h
      rcases h with (h | h) | h
      · exact .inr ⟨l, List.mem_cons_self .., h⟩
      · exact .inl (List.mem_singleton.mp h)
      · exact (ih h).imp_right fun ⟨line, hline, hc⟩ => ⟨line, List.mem_cons_of_mem l hline, hc⟩

/-- **A listing is printable throughout, but for the line feeds between its lines.** -/
theorem isPrintable_of_mem_listing {tokens : List Token} {showEnd : Bool} {c : Char}
    (h : c ∈ (listing tokens showEnd).toList) : c = '\n' ∨ isPrintable c = true := by
  refine (mem_intercalate_newline h).imp_right ?_
  rintro ⟨line, hline, hc⟩
  exact isPrintable_of_mem_listingLines hline c hc

end Lexis
