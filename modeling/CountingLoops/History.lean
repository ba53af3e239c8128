import CountingLoops.Report.Traced

/-!
The history of a process is a list of steps, each of which it answers: steps that turn tracing on
or change the environment, questions whether tracing is on, and calls of the library. The process
holds the state of tracing and one sink, which calls that print write to. Printing is a parameter,
so that a history can be told of sinks of any kind.
-/

namespace CountingLoops.History

/-- A process with a sink of type `σ`. -/
structure World (σ : Type) where
  tracing : Tracing
  sink : σ

/-- A call of the library. -/
inductive Call where
  | verdict (value : UInt32)
  | values (bound : UInt16)
  | markers (bound : UInt16)
  | verdicts (bound : UInt16)
  | report (bound : UInt16)
  | lines (bound : UInt16)
  | phaseLines (phase : Phase) (bound : UInt16)
  | print (bound : UInt16)

/-- The answer to a call, where printing has results of type `ρ`. -/
inductive Answer (ρ : Type) where
  | verdict (verdict : Verdict)
  | values (values : List UInt32)
  | markers (markers : List String)
  | verdicts (verdicts : NonemptyList Verdict)
  | report (report : Report)
  | lines (lines : List String)
  | printed (result : ρ)

/-- A step in the history of a process. -/
inductive Step (σ : Type) where
  | enable
  /-- The variable of the environment gets a value, or is taken away. -/
  | assign (value : Option String)
  | ask
  | trace (text : String)
  /-- The sink is replaced. -/
  | connect (sink : σ)
  | call (request : Call)

/-- What a step answers. -/
inductive Response (ρ : Type) where
  | done
  | enabled (isEnabled : Bool)
  | answer (answer : Answer ρ)

variable {σ ρ α : Type}

/-- An action on tracing, as one of the process; the sink stays as it is. -/
def World.onTracing (action : StateM Tracing α) : StateM (World σ) α := fun world =>
  let (result, tracing) := action world.tracing
  (result, { world with tracing := tracing })

/-- An action on the sink, as one of the process; tracing stays as it is. -/
def World.onSink (action : StateM σ α) : StateM (World σ) α := fun world =>
  let (result, sink) := action world.sink
  (result, { world with sink := sink })

/-- A call in a process. The verdict on a number alone is never traced. -/
def Call.perform (print : Report → StateM σ ρ) : Call → StateM (World σ) (Answer ρ)
  | .verdict value => return .verdict (.of value)
  | .values bound => return .values (← World.onTracing (Traced.values bound))
  | .markers bound => return .markers (← World.onTracing (Traced.markers bound))
  | .verdicts bound => return .verdicts (← World.onTracing (Traced.verdicts bound))
  | .report bound => return .report (← World.onTracing (Traced.report bound))
  | .lines bound => return .lines (← World.onTracing (Traced.report bound)).lines
  | .phaseLines phase bound =>
    return .lines ((← World.onTracing (Traced.report bound)).phaseLines phase)
  | .print bound => do
    let report ← World.onTracing (Traced.report bound)
    return .printed (← World.onSink (print report))

/-- A step of a process. -/
def Step.perform (print : Report → StateM σ ρ) : Step σ → StateM (World σ) (Response ρ)
  | .enable => do
    World.onTracing Tracing.enable
    return .done
  | .assign value => do
    World.onTracing (Tracing.assign value)
    return .done
  | .ask => return .enabled (← World.onTracing Tracing.isEnabled)
  | .trace text => do
    World.onTracing (Tracing.trace text)
    return .done
  | .connect sink => fun world => (.done, { world with sink := sink })
  | .call request => return .answer (← request.perform print)

/-- A step with the diagnostic lines that it wrote. -/
def Step.observe (print : Report → StateM σ ρ) (step : Step σ) :
    StateM (World σ) (Response ρ × List String) := fun world =>
  let (response, next) := step.perform print { world with tracing := world.tracing.quiet }
  ((response, next.tracing.written.toList), next)

/-- The responses of a whole history, each with the lines of its step. -/
def observeAll (print : Report → StateM σ ρ) :
    List (Step σ) → StateM (World σ) (List (Response ρ × List String))
  | [] => return []
  | step :: steps => do
    let observation ← step.observe print
    return observation :: (← observeAll print steps)

end CountingLoops.History
