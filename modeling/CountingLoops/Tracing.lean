/-!
Tracing is a switch for a whole process, with the diagnostic lines that the process has written.
The switch is off at first. It goes on by `enable`, or because a variable of the environment has a
value when the first question is asked whether it is on; the environment is not looked at again,
and nothing puts the switch off. Every diagnostic line asks that question.

The lines go to the error stream of the process, which is taken to accept each of them: a process
that cannot write a diagnostic line is stopped there and then, and of that nothing is said here.
-/

namespace CountingLoops

/-- The state of tracing in a process. -/
structure Tracing where
  /-- The value of the variable in the environment of the process. -/
  setting : Option String
  enabled : Bool := false
  /-- The environment has been looked at. -/
  consulted : Bool := false
  /-- The diagnostic lines written so far. -/
  written : Array String := #[]

namespace Tracing

/-- The variable whose presence puts tracing on. -/
def variableName : String := "COUNTER_DEMO_DEBUG"

/-- The state after the environment has been looked at, once. -/
def consult (tracing : Tracing) : Tracing :=
  if tracing.consulted then tracing
  else { tracing with consulted := true, enabled := tracing.enabled || tracing.setting.isSome }

/-- The question whether tracing is on. -/
def isEnabled : StateM Tracing Bool := fun tracing =>
  let tracing := tracing.consult
  (tracing.enabled, tracing)

/-- Puts tracing on; the environment is not looked at. -/
def enable : StateM Tracing Unit := fun tracing => ((), { tracing with enabled := true })

/-- Changes the variable in the environment, or takes it away. -/
def assign (value : Option String) : StateM Tracing Unit := fun tracing =>
  ((), { tracing with setting := value })

/-- Writes a diagnostic line if tracing is on. -/
def trace (line : String) : StateM Tracing Unit := do
  if ← isEnabled then
    modify fun tracing => { tracing with written := tracing.written.push line }

/-- Writes diagnostic lines, asking for each of them. -/
def traceAll : List String → StateM Tracing Unit
  | [] => pure ()
  | line :: lines => do
    trace line
    traceAll lines

/-- The state without the lines that were written before. -/
def quiet (tracing : Tracing) : Tracing := { tracing with written := #[] }

end Tracing

end CountingLoops
