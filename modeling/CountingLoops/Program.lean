import CountingLoops.Failure.Terminal
import CountingLoops.Report.Traced

/-!
The program prints the report of the standard bound on its standard output and ends with a status.
A reader that went away is no reason to complain; any other failure is shown on the error stream,
after the diagnostic lines, and gives the status one. How the report is printed is a parameter, and
whether colour is shown is settled before the program starts. The error stream is taken to accept
every text, since the program could not go on to its end without it.
-/

namespace CountingLoops.Program

/-- What a program is started with. -/
structure Invocation where
  /-- The arguments, none of which is looked at. -/
  arguments : List String := []
  /-- The value of the variable that puts tracing on. -/
  tracing : Option String := none
  /-- Whether colour is shown, which is not for the program to decide. -/
  showsColour : Bool := false

/-- How a program ends. -/
structure Exit where
  status : UInt32
  /-- The texts on the error stream, each of which a newline follows. -/
  stderr : List String

variable {m : Type → Type} [Monad m]

/-- Runs the program. The trace of the report comes first, since printing starts with the whole
report. -/
def execute (print : Report → m (Except Failure Unit)) (invocation : Invocation) : m Exit := do
  let (report, tracing) := Traced.report standardBound { setting := invocation.tracing }
  let trace := tracing.written.toList
  match ← print report with
  | .ok () => return ⟨0, trace⟩
  | .error failure =>
    if failure.isBrokenPipe then return ⟨0, trace⟩
    else
      let coloured := Failure.isColoured invocation.showsColour []
      return ⟨1, trace ++ [failure.terminalText coloured]⟩

end CountingLoops.Program
