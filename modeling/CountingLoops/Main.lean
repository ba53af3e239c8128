import CountingLoops.Fault.Code
import CountingLoops.Printing
import CountingLoops.Program

/-!
The command line: the program with the standard output of the process as its sink.
-/

namespace CountingLoops.Program

/-- The number by which the system calls a failed request, if it gave one. -/
def systemCode? : IO.Error → Option UInt32
  | .alreadyExists _ code _ | .invalidArgument _ code _ | .permissionDenied _ code _
  | .resourceExhausted _ code _ | .inappropriateType _ code _ | .noSuchThing _ code _
  | .interrupted _ code _ | .noFileOrDirectory _ code _ => some code
  | .otherError code _ | .resourceBusy code _ | .resourceVanished code _
  | .unsupportedOperation code _ | .hardwareFault code _ | .unsatisfiedConstraints code _
  | .illegalOperation code _ | .protocolError code _ | .timeExpired code _ => some code
  | .unexpectedEof | .userError _ => none

/-- The fault that a failed request to the system stands for. -/
def systemFault (error : IO.Error) : Fault :=
  match systemCode? error with
  | some code => .ofCode code.toNat
  | none => ⟨.other, toString error⟩

/-- A standard stream as a sink that takes whole offers, and passes them on at once. -/
def streamSink (stream : IO.FS.Stream) : Sink IO where
  write bytes := do
    try
      stream.write ⟨bytes.toArray⟩
      stream.flush
      return .accepted bytes.length (Nat.le_refl _)
    catch error => return .failed (systemFault error)
  flush := do
    try
      stream.flush
      return none
    catch error => return some (systemFault error)

/-- The interruptions of one write that are put up with: more than will ever occur. -/
def patience : Nat := 1 <<< 62

/-- Whether colour is shown. Two variables force it or rule it out; without them it depends on a
third one and on whether standard output is a terminal. -/
def showsColour : IO Bool := do
  if (← IO.getEnv "CLICOLOR_FORCE").any (· != "0") then return true
  if (← IO.getEnv "NO_COLOR").isSome then return false
  if (← IO.getEnv "CLICOLOR") == some "0" then return false
  (← IO.getStdout).isTty

/-- Runs the program in the process that it was started in. -/
def run (arguments : List String) : IO UInt32 := do
  let invocation : Invocation := {
    arguments
    tracing := ← IO.getEnv Tracing.variableName
    showsColour := ← showsColour }
  let sink := streamSink (← IO.getStdout)
  let print (report : Report) : OptionT IO (Except Failure Unit) :=
    OptionT.mk (report.printTo sink patience)
  let stderr ← IO.getStderr
  match ← (execute print invocation).run with
  | none => return 1
  | some exit =>
    for text in exit.stderr do
      stderr.putStrLn text
    return exit.status

end CountingLoops.Program

def main (arguments : List String) : IO UInt32 := CountingLoops.Program.run arguments
