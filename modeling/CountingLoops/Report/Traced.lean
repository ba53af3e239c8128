import CountingLoops.Report
import CountingLoops.Tracing

/-!
The loops and the report of a bound as a process makes them that may be tracing. The results are
those of `Report.ofBound`; what is added are the diagnostic lines, whose texts are defined here.
-/

namespace CountingLoops.Traced

open Tracing

/-- What a loop with a counter of its own says of it at the end. -/
def exitLine (phase : Phase) (exit : UInt32) : String :=
  "[loops] " ++ phase.name ++ " exited with counter = " ++ decimal exit

/-- What the counted loop says before each run of its body. -/
def bodyLine (i : UInt16) : String := "[loops] fixed_count i = " ++ i.toNat.repr

/-- What is said of the bound before the first loop. -/
def boundLine (bound : UInt16) : String :=
  "[demo] running with total_iterations = " ++ bound.toNat.repr

/-- What is said before the loop of a phase. -/
def phaseLine (phase : Phase) : String := "[demo] phase: " ++ phase.name

/-- The counters of the pre-test loop. -/
def values (bound : UInt16) : StateM Tracing (List UInt32) := do
  let course := Loop.preTest bound
  trace (exitLine .ascending course.exit)
  return course.visited

/-- The markers of the counted loop. -/
def markers (bound : UInt16) : StateM Tracing (List String) := do
  let visited := Loop.counted bound
  traceAll (visited.map bodyLine)
  return visited.map fun _ => marker

/-- The verdicts of the post-test loop. -/
def verdicts (bound : UInt16) : StateM Tracing (NonemptyList Verdict) := do
  let course := Loop.postTest bound
  trace (exitLine .classification course.exit)
  return course.visited.map Verdict.of

/-- The report of a run with the given bound. -/
def report (bound : UInt16) : StateM Tracing Report := do
  trace (boundLine bound)
  trace (phaseLine .ascending)
  let values ← values bound
  trace (phaseLine .fixedCount)
  let markers ← markers bound
  trace (phaseLine .classification)
  let verdicts ← verdicts bound
  return ⟨values, markers, verdicts⟩

end CountingLoops.Traced
