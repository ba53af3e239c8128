import CountingLoops.Failure.Terminal
import CountingLoops.Printing.Budgeted

/-!
A session works on one bound, one budgeted sink, the last failure and the last report, by commands
that each have an answer.
-/

namespace CountingLoops

/-- The state of a session. -/
structure Session where
  bound : UInt16 := standardBound
  sink : Budgeted := {}
  failure : Option Failure := none
  report : Option Report := none

namespace Session

/-- A command of a session. -/
inductive Command where
  /-- The bound becomes the standard one. -/
  | reset
  /-- The bound becomes `bound`. -/
  | configure (bound : UInt16)
  /-- A new sink takes the place of the last one. -/
  | connect (settings : Budgeted.Settings)
  /-- The sink gets new settings and keeps what it took. -/
  | refill (settings : Budgeted.Settings)
  /-- The report of the bound is printed into the sink. -/
  | print
  /-- The report of the bound becomes the last report. -/
  | report
  /-- The lines of the last report are shown. -/
  | lines
  /-- `failure` becomes the last failure. -/
  | fail (failure : Failure)
  /-- The last failure gets a note. -/
  | note (text : String)
  /-- The last failure becomes the failure made of a fault that was made of it. -/
  | wrap (kind : Fault.Kind)
  /-- A copy of the last failure gets a note. -/
  | noteCopy (text : String)
  /-- The last failure is shown as on a terminal. -/
  | display (coloured : Bool)

/-- The answer to a command. Where there is no failure or report yet, it holds `none`. -/
inductive Answer where
  | done
  | configured (bound : UInt16)
  /-- The result of printing, and what the sink took in all its time. -/
  | printed (result : Except Failure Unit) (output : Array UInt8) (flushed : Nat)
  /-- A report, and whether it is equal to the last one. -/
  | report (report : Report) (same : Bool)
  | lines (lines : Option (List String))
  | failure (failure : Option Failure)
  /-- A copy of the last failure, with a note, and the last failure itself. -/
  | copied (copy last : Option Failure)
  | text (text : Option String)

/-- The answer with the last failure, after it was replaced. -/
def replaceFailure (failure : Option Failure) : StateM Session Answer := fun session =>
  (.failure failure, { session with failure := failure })

/-- Carries out a command. A run that succeeds leaves the last failure as it is. -/
def perform : Command → StateM Session Answer
  | .reset => fun session => (.done, { session with bound := standardBound })
  | .configure bound => fun session => (.configured bound, { session with bound := bound })
  | .connect settings => fun session =>
    (.done, { session with sink := Budgeted.ofSettings settings })
  | .refill settings => fun session =>
    (.done, { session with sink := session.sink.refill settings })
  | .print => fun session =>
    let (result, sink) := Budgeted.print (.ofBound session.bound) session.sink
    (.printed result sink.output sink.flushed,
      { session with
        sink := sink
        failure := match result with
          | .ok () => session.failure
          | .error failure => some failure })
  | .report => fun session =>
    let report := Report.ofBound session.bound
    (.report report (session.report = some report), { session with report := some report })
  | .lines => fun session => (.lines (session.report.map Report.lines), session)
  | .fail failure => replaceFailure (some failure)
  | .note text => fun session => replaceFailure (session.failure.map (·.withNote text)) session
  | .wrap kind => fun session => replaceFailure (session.failure.map (·.wrap kind)) session
  | .noteCopy text => fun session =>
    (.copied (session.failure.map (·.withNote text)) session.failure, session)
  | .display coloured => fun session =>
    (.text (session.failure.map (·.terminalText coloured)), session)

/-- Carries out commands in order. -/
def performAll : List Command → StateM Session (List Answer)
  | [] => return []
  | command :: commands => do
    let answer ← perform command
    return answer :: (← performAll commands)

end Session

end CountingLoops
