import CountingLoops.Loop
import CountingLoops.Phase
import CountingLoops.Verdict

/-!
A report holds what the three loops produced: the counters of the pre-test loop, one marker for
each run of the counted loop, and the verdicts of the post-test loop. Its lines are the text of a
whole run; `bytes` is that text as it reaches a sink, with a newline after each line.
-/

namespace CountingLoops

/-- A text in UTF-8. -/
def encode (text : String) : List UInt8 := text.toList.flatMap String.utf8EncodeChar

/-- The text that the counted loop emits once for each run of its body. -/
def marker : String := "test"

/-- The bound of a run that is given none. -/
def standardBound : UInt16 := 10

/-- The results of the three loops. -/
structure Report where
  values : List UInt32
  markers : List String
  verdicts : NonemptyList Verdict
  deriving DecidableEq

namespace Report

/-- The counters from one to the bound. -/
def valuesTo (bound : UInt16) : List UInt32 := (Loop.preTest bound).visited

/-- A marker for each number from one to the bound. -/
def markersTo (bound : UInt16) : List String := (Loop.counted bound).map fun _ => marker

/-- The verdict on one, and on each further number up to the bound. -/
def verdictsTo (bound : UInt16) : NonemptyList Verdict :=
  (Loop.postTest bound).visited.map Verdict.of

/-- The report of a run with the given bound. -/
def ofBound (bound : UInt16) : Report :=
  ⟨valuesTo bound, markersTo bound, verdictsTo bound⟩

/-- The console lines of one phase. -/
def phaseLines (report : Report) : Phase → List String
  | .ascending => report.values.map decimal
  | .fixedCount => report.markers
  | .classification => report.verdicts.toList.map Verdict.text

/-- The console lines of all phases in the order of printing. -/
def lines (report : Report) : List String := Phase.all.flatMap report.phaseLines

/-- What is printed, piece by piece, each with the phase that it belongs to: a line, then the
newline that ends it. -/
def pieces (report : Report) : List (Phase × String) :=
  Phase.all.flatMap fun phase =>
    (report.phaseLines phase).flatMap fun line => [(phase, line), (phase, "\n")]

/-- The bytes of a report's lines, each followed by a newline. -/
def bytes (report : Report) : List UInt8 :=
  report.lines.flatMap fun line => encode line ++ encode "\n"

/-- The pieces are the bytes, cut up. -/
theorem flatMap_encode_pieces (report : Report) :
    (report.pieces.flatMap fun piece => encode piece.2) = report.bytes := by
  simp [pieces, bytes, lines, List.flatMap_assoc]

end Report

end CountingLoops
