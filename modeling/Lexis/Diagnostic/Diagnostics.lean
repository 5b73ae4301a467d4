/-
Diagnostics: the faults and warnings of one source.

Faults are kept up to a limit, and those beyond it are counted only. The limit may change at any
time and may be any integer; what is kept stays. Warnings are kept without limit.
-/
import Lexis.Diagnostic.Fault

namespace Lexis

/-- The faults and warnings found so far. -/
structure Diagnostics where
  faults : Array Fault := #[]
  warnings : Array String := #[]
  limit : Int := 100
  suppressed : Nat := 0
  deriving DecidableEq, Repr

namespace Diagnostics

/-- Are as many faults kept as the limit allows? -/
def isFull (d : Diagnostics) : Bool :=
  d.limit ≤ d.faults.size

/-- Takes a fault: keeps it, or counts it as suppressed. -/
@[inline]
def add (d : Diagnostics) (f : Fault) : Diagnostics :=
  if d.isFull then { d with suppressed := d.suppressed + 1 }
  else { d with faults := d.faults.push f }

/-- The printed form of a warning. -/
def warningLine (message : String) (location : Option Location) : String :=
  match location with
  | some l => l.print ++ ": warning: " ++ message
  | none => "warning: " ++ message

/-- Keeps a warning. -/
def warn (d : Diagnostics) (message : String) (location : Option Location := none) :
    Diagnostics :=
  { d with warnings := d.warnings.push (warningLine message location) }

/-- The number of faults seen, kept or not. -/
def errorCount (d : Diagnostics) : Nat :=
  d.faults.size + d.suppressed

/-- Has any fault been seen? -/
def hasErrors (d : Diagnostics) : Bool :=
  0 < d.errorCount

/-- Forgets all faults and warnings; the limit stays. -/
def clear (d : Diagnostics) : Diagnostics :=
  { limit := d.limit }

/-- A count with its noun. -/
def counted (n : Nat) (noun : String) : String :=
  toString n ++ " " ++ noun ++ if n = 1 then "" else "s"

/-- The parts of a report: each fault and an empty line, the warnings, how many faults are not
shown, and the counts behind an empty line. -/
def reportParts (d : Diagnostics) : List String :=
  d.faults.toList.flatMap (fun f => [f.print, ""]) ++ d.warnings.toList ++
    (if d.suppressed = 0 then []
      else ["(" ++ toString d.suppressed ++ " more errors not shown)"]) ++
    ["\n" ++ counted d.errorCount "error" ++ ", " ++ counted d.warnings.size "warning"]

/-- A report on all faults and warnings. -/
def report (d : Diagnostics) : String :=
  "\n".intercalate d.reportParts

/-- The report as a fault of its own, if any fault has been seen. -/
def summary? (d : Diagnostics) : Option Fault :=
  if d.hasErrors then some { cause := .summary d.report none } else none

end Diagnostics

end Lexis
