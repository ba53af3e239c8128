import CountingLoops.Divisibility

/-!
A verdict pairs a number with a divisibility class. `Verdict.of` gives the class that the number
has; a verdict that pairs them otherwise is still a value, with a text of its own.
-/

namespace CountingLoops

/-- A number and the class that is stated of it. -/
structure Verdict where
  value : UInt32
  rule : Divisibility
  deriving DecidableEq

/-- A number in decimal digits. -/
def decimal (n : UInt32) : String := n.toNat.repr

namespace Verdict

/-- The true verdict on `n`. -/
def of (n : UInt32) : Verdict := ⟨n, .of n⟩

/-- The verdict as a console line. -/
def text (v : Verdict) : String := v.rule.label ++ ": " ++ decimal v.value

/-- The verdict as a JSON object, the number first and without blanks. -/
def json (v : Verdict) : String :=
  "\x7b\"value\":" ++ decimal v.value ++ ",\"rule\":\"" ++ v.rule.identifier ++ "\"\x7d"

/-- True verdicts on `start`, `start + step`, …: `count` of them, or fewer where the progression
leaves the range of the counters. The terms are natural numbers, so none wraps. -/
def progression (start step : UInt32) (count : Nat) : List Verdict :=
  (((List.range count).map fun i => start.toNat + i * step.toNat).takeWhile
    (· < UInt32.size)).map fun n => of (UInt32.ofNat n)

/-- The number of verdicts that state the class `rule`. -/
def count (rule : Divisibility) (verdicts : List Verdict) : Nat :=
  verdicts.countP (·.rule = rule)

end Verdict

end CountingLoops
