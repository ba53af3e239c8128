import CountingLoops.History
import CountingLoops.Proofs.Switch

/-!
# Steps of a history

What one step does, as an equation: its actions on tracing, which are known
before it begins, and a response that reads nothing of tracing but the answer
to an open question. Whole histories are taken apart at a step by
`observeAll_append`, so what follows of a history is a statement about the
actions of the steps before.
-/

namespace CountingLoops.History

open Tracing (Action)

variable {σ ρ : Type}

/-! ## What a step does -/

/-- The lines of a call if they are written. The verdict on a number has none. -/
def Call.traceLines : Call → List String
  | .verdict _ => []
  | .values bound => Traced.valuesLines bound
  | .markers bound => Traced.markersLines bound
  | .verdicts bound => Traced.verdictsLines bound
  | .report bound | .lines bound | .phaseLines _ bound | .print bound =>
    Traced.reportLines bound

/-- The lines of a step if they are written. -/
def Step.traceLines : Step σ → List String
  | .trace text => [text]
  | .call request => request.traceLines
  | .enable | .assign _ | .ask | .connect _ => []

/-- What a step does to tracing. -/
def Step.actions : Step σ → List Action
  | .enable => [.enable]
  | .assign value => [.assign value]
  | .ask => [.ask]
  | .trace text => [.trace text]
  | .connect _ => []
  | .call request => request.traceLines.map .trace

/-- What the steps of a history do to tracing, one after the other. -/
def actions (steps : List (Step σ)) : List Action := steps.flatMap Step.actions

/-- A call where nothing is traced. -/
def Call.answer (print : Report → StateM σ ρ) : Call → StateM σ (Answer ρ)
  | .verdict value => return .verdict (.of value)
  | .values bound => return .values (Report.valuesTo bound)
  | .markers bound => return .markers (Report.markersTo bound)
  | .verdicts bound => return .verdicts (Report.verdictsTo bound)
  | .report bound => return .report (.ofBound bound)
  | .lines bound => return .lines (Report.ofBound bound).lines
  | .phaseLines phase bound => return .lines ((Report.ofBound bound).phaseLines phase)
  | .print bound => return .printed (← print (.ofBound bound))

/-- The response to a step, and the sink that it leaves. -/
def Step.respond (print : Report → StateM σ ρ) : Step σ → World σ → Response ρ × σ
  | .ask, world => (.enabled world.tracing.isOn, world.sink)
  | .connect sink, _ => (.done, sink)
  | .call request, world =>
    let (answer, sink) := request.answer print world.sink
    (.answer answer, sink)
  | .enable, world | .assign _, world | .trace _, world => (.done, world.sink)

/-- What is done after a traced action begins where its lines leave tracing. -/
theorem onTracing_bind {α β : Type} {action : StateM Tracing α} {result : α} {lines : List String}
    (h : ∀ tracing, action tracing = (result, (Tracing.traceAll lines tracing).2))
    (next : α → StateM (World σ) β) (world : World σ) :
    (World.onTracing action >>= next) world =
      next result { world with tracing := world.tracing.after (lines.map .trace) } := by
  simp only [bind, StateT.bind, World.onTracing, h, Tracing.after_map_trace]

/-- A step writes all of its lines or none. -/
theorem Step.said_actions (step : Step σ) (tracing : Tracing) :
    tracing.said step.actions = if tracing.isOn then step.traceLines else [] := by
  cases step with
  | trace text => exact tracing.said_map_trace [text]
  | call request => exact tracing.said_map_trace request.traceLines
  | ask =>
    rw [traceLines, ite_self]
    exact congrArg Array.toList tracing.quiet.written_consult
  | enable | assign value | connect sink =>
    rw [traceLines, ite_self]
    rfl

section

variable (print : Report → StateM σ ρ)

theorem Call.perform_eq (request : Call) (world : World σ) :
    request.perform print world =
      ((request.answer print world.sink).1,
        ⟨world.tracing.after (request.traceLines.map .trace),
          (request.answer print world.sink).2⟩) := by
  cases request with
  | verdict value => rfl
  | values bound => exact onTracing_bind (Traced.values_eq bound) _ world
  | markers bound => exact onTracing_bind (Traced.markers_eq bound) _ world
  | verdicts bound => exact onTracing_bind (Traced.verdicts_eq bound) _ world
  | report bound | lines bound | phaseLines phase bound | print bound =>
    exact onTracing_bind (Traced.report_eq bound) _ world

/-- **One step**, as an equation between states. -/
theorem Step.perform_eq (step : Step σ) (world : World σ) :
    step.perform print world =
      ((step.respond print world).1,
        ⟨world.tracing.after step.actions, (step.respond print world).2⟩) := by
  cases step with
  | call request =>
    simp only [perform, bind, StateT.bind, request.perform_eq]
    rfl
  | _ => rfl

/-- Of tracing a response shows the answer to an open question at most. -/
theorem Step.respond_congr (step : Step σ) {world other : World σ}
    (hsink : world.sink = other.sink)
    (hon : step = .ask → world.tracing.isOn = other.tracing.isOn) :
    step.respond print world = step.respond print other := by
  cases step with
  | ask => simp [respond, hsink, hon rfl]
  | connect sink => rfl
  | enable | assign value | trace text | call request => simp [respond, hsink]

theorem Step.observe_eq (step : Step σ) (world : World σ) :
    step.observe print world =
      (((step.respond print world).1, world.tracing.said step.actions),
        ⟨world.tracing.quiet.after step.actions, (step.respond print world).2⟩) := by
  have hquiet : step.respond print { world with tracing := world.tracing.quiet } =
      step.respond print world :=
    step.respond_congr print rfl fun _ => world.tracing.isOn_quiet
  rw [observe, step.perform_eq, hquiet]
  rfl

/-! ## Whole histories -/

theorem observeAll_cons (step : Step σ) (steps : List (Step σ)) (world : World σ) :
    observeAll print (step :: steps) world =
      ((step.observe print world).1 :: (observeAll print steps (step.observe print world).2).1,
        (observeAll print steps (step.observe print world).2).2) := rfl

theorem observeAll_append (first second : List (Step σ)) (world : World σ) :
    observeAll print (first ++ second) world =
      ((observeAll print first world).1 ++
          (observeAll print second (observeAll print first world).2).1,
        (observeAll print second (observeAll print first world).2).2) := by
  induction first generalizing world with
  | nil => rfl
  | cons step first ih =>
    rw [List.cons_append, observeAll_cons, observeAll_cons, ih, List.cons_append]

theorem length_observeAll (steps : List (Step σ)) (world : World σ) :
    (observeAll print steps world).1.length = steps.length := by
  induction steps generalizing world with
  | nil => rfl
  | cons step steps ih => rw [observeAll_cons, List.length_cons, List.length_cons, ih]

/-- What is observed of the step after `before`. -/
theorem observeAll_at (before rest : List (Step σ)) (step : Step σ) (world : World σ) :
    (observeAll print (before ++ step :: rest) world).1[before.length]? =
      some (step.observe print (observeAll print before world).2).1 := by
  rw [observeAll_append, observeAll_cons, ← length_observeAll print before world]
  simp

/-- **A history does its actions in order**, if one leaves aside the lines
that were taken away at each step. -/
theorem quiet_observeAll (steps : List (Step σ)) (world : World σ) :
    (observeAll print steps world).2.tracing.quiet =
      (world.tracing.after (actions steps)).quiet := by
  induction steps generalizing world with
  | nil => rfl
  | cons step steps ih =>
    rw [observeAll_cons, ih, step.observe_eq, ← Tracing.after_append, Tracing.quiet_after]
    rfl

end

end CountingLoops.History
