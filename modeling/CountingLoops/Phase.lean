/-!
The phases of a run, one for each form of the counting loop, in the order in which their lines
are printed.
-/

namespace CountingLoops

/-- A part of the output, named for what its loop does. -/
inductive Phase where
  | ascending
  | fixedCount
  | classification
  deriving DecidableEq

namespace Phase

/-- Every phase, in the order of printing. -/
def all : List Phase := [.ascending, .fixedCount, .classification]

/-- The name of the phase in texts for users. -/
def name : Phase → String
  | .ascending => "ascending"
  | .fixedCount => "fixed-count"
  | .classification => "classification"

/-- The remark on a failure to print a line of the phase. -/
def remark (phase : Phase) : String := "while writing the " ++ phase.name ++ " phase"

theorem mem_all (phase : Phase) : phase ∈ all := by
  cases phase <;> decide

end Phase

end CountingLoops
