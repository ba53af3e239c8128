import CountingLoops.Proofs.Counting
import CountingLoops.Report.Traced

/-!
# The trace of a report

Which diagnostic lines the traced loops and the traced report write, as lists
of texts, and how tracing treats a list of lines: whether it is on is settled
by the first line, so all of them are written or none.
-/

namespace CountingLoops

namespace Tracing

/-! ## Lines in a row -/

/-- Whether a question that is asked now is answered yes. -/
def isOn (tracing : Tracing) : Bool := (isEnabled tracing).1

theorem isEnabled_eq (tracing : Tracing) :
    isEnabled tracing = (tracing.isOn, tracing.consult) := rfl

theorem isOn_eq (tracing : Tracing) : tracing.isOn = tracing.consult.enabled := rfl

theorem isOn_of_consulted {tracing : Tracing} (h : tracing.consulted = true) :
    tracing.isOn = tracing.enabled := by
  simp [isOn_eq, consult, h]

theorem consulted_consult (tracing : Tracing) : tracing.consult.consulted = true := by
  by_cases h : tracing.consulted = true <;> simp [consult, h]

theorem written_consult (tracing : Tracing) : tracing.consult.written = tracing.written := by
  unfold consult
  split <;> rfl

/-- A line asks the question that `isEnabled` asks, and is written if the
answer is yes. -/
theorem trace_eq (line : String) (tracing : Tracing) :
    trace line tracing =
      ((), if tracing.isOn then { tracing.consult with written := tracing.written.push line }
        else tracing.consult) := by
  simp only [trace, bind, StateT.bind, isEnabled_eq]
  rw [← tracing.written_consult]
  cases tracing.isOn with
  | true => rfl
  | false => rfl

theorem traceAll_nil (tracing : Tracing) : traceAll [] tracing = ((), tracing) := rfl

theorem traceAll_cons (line : String) (lines : List String) (tracing : Tracing) :
    traceAll (line :: lines) tracing = traceAll lines (trace line tracing).2 := rfl

theorem traceAll_append (first second : List String) (tracing : Tracing) :
    traceAll (first ++ second) tracing = traceAll second (traceAll first tracing).2 := by
  induction first generalizing tracing with
  | nil => rfl
  | cons line first ih =>
    rw [List.cons_append, traceAll_cons, traceAll_cons]
    exact ih _

/-- The answer stays the same after a line: the environment has been looked at
by then. -/
theorem isOn_trace (line : String) (tracing : Tracing) :
    (trace line tracing).2.isOn = tracing.isOn := by
  rw [trace_eq]
  split
  · exact isOn_of_consulted tracing.consulted_consult
  · exact isOn_of_consulted tracing.consulted_consult

/-- **All lines are written or none**, as the first of them finds tracing. -/
theorem written_traceAll (lines : List String) (tracing : Tracing) :
    (traceAll lines tracing).2.written.toList =
      tracing.written.toList ++ if tracing.isOn then lines else [] := by
  induction lines generalizing tracing with
  | nil => simp [traceAll_nil]
  | cons line lines ih =>
    rw [traceAll_cons, ih, isOn_trace, trace_eq]
    -- the first line is treated as the rest will be
    cases tracing.isOn with
    | true => simp
    | false => simp [written_consult]

end Tracing

namespace Traced

open Tracing

/-! ## Texts -/

/-- The line of the pre-test loop. -/
def valuesLines (bound : UInt16) : List String :=
  ["[loops] ascending exited with counter = " ++ (bound.toNat + 1).repr]

/-- The lines of the counted loop, one for each run of its body. -/
def markersLines (bound : UInt16) : List String :=
  (List.range' 1 bound.toNat).map fun i => "[loops] fixed_count i = " ++ i.repr

/-- The line of the post-test loop. -/
def verdictsLines (bound : UInt16) : List String :=
  ["[loops] classification exited with counter = " ++ (max bound.toNat 1 + 1).repr]

/-- The lines of a whole report. -/
def reportLines (bound : UInt16) : List String :=
  ["[demo] running with total_iterations = " ++ bound.toNat.repr, "[demo] phase: ascending"] ++
    valuesLines bound ++ ["[demo] phase: fixed-count"] ++ markersLines bound ++
    ["[demo] phase: classification"] ++ verdictsLines bound

theorem length_reportLines (bound : UInt16) :
    (reportLines bound).length = bound.toNat + 6 := by
  simp [reportLines, valuesLines, markersLines, verdictsLines]

/-- A counter may leave the range of bounds, but not that of its own type. -/
theorem exitLine_ofNat (phase : Phase) {bound : UInt16} {exit : Nat}
    (h : exit ≤ max bound.toNat 1 + 1) :
    exitLine phase (UInt32.ofNat exit) =
      "[loops] " ++ phase.name ++ " exited with counter = " ++ exit.repr := by
  rw [exitLine, decimal, Loop.toNat_counter h]

theorem bodyLine_ofNat {i : Nat} (h : i < UInt16.size) :
    bodyLine (UInt16.ofNat i) = "[loops] fixed_count i = " ++ i.repr := by
  have hi := UInt16.toNat_ofNat_of_lt' h
  unfold bodyLine
  rw [hi]

/-! ## Loops and reports -/

theorem values_eq (bound : UInt16) (tracing : Tracing) :
    values bound tracing = (Report.valuesTo bound, (traceAll (valuesLines bound) tracing).2) := by
  have hline : exitLine .ascending (Loop.preTest bound).exit =
      "[loops] ascending exited with counter = " ++ (bound.toNat + 1).repr := by
    have hexit : bound.toNat + 1 ≤ max bound.toNat 1 + 1 := by omega
    rw [Loop.preTest_exit, exitLine_ofNat _ hexit]
    rfl
  rw [valuesLines, ← hline]
  rfl

theorem markers_eq (bound : UInt16) (tracing : Tracing) :
    markers bound tracing =
      (Report.markersTo bound, (traceAll (markersLines bound) tracing).2) := by
  have hlines : (Loop.counted bound).map bodyLine = markersLines bound := by
    rw [Loop.counted_eq, List.map_map, markersLines]
    apply List.map_congr_left
    intro i hmem
    have hbound := bound.toNat_lt_size
    have hlast := (List.mem_range'_1.mp hmem).2
    exact bodyLine_ofNat (by omega)
  simp only [markers, hlines, bind, StateT.bind]
  rfl

theorem verdicts_eq (bound : UInt16) (tracing : Tracing) :
    verdicts bound tracing =
      (Report.verdictsTo bound, (traceAll (verdictsLines bound) tracing).2) := by
  have hline : exitLine .classification (Loop.postTest bound).exit =
      "[loops] classification exited with counter = " ++ (max bound.toNat 1 + 1).repr := by
    rw [Loop.postTest_exit, exitLine_ofNat _ (Nat.le_refl _)]
    rfl
  rw [verdictsLines, ← hline]
  rfl

/-- **A traced report is the report**, and its lines are written in order. -/
theorem report_eq (bound : UInt16) (tracing : Tracing) :
    report bound tracing =
      (Report.ofBound bound, (traceAll (reportLines bound) tracing).2) := by
  simp only [report, bind, StateT.bind, values_eq, markers_eq, verdicts_eq, reportLines,
    traceAll_append]
  rfl

end Traced

end CountingLoops
