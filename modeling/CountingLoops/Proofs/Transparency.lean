import CountingLoops.Printing.Budgeted
import CountingLoops.Proofs.Unwinding

/-!
# Tracing is transparent

Whoever sees only the results of calls and the sinks cannot tell whether the
process traces, nor what is done to tracing between the calls. Two worlds are
alike for such an observer if they have the same sink.
-/

namespace CountingLoops.History

variable {σ ρ : Type}

/-- Calls, and the sinks for them to print to. All other steps are about tracing. -/
def Step.isWork : Step σ → Bool
  | .connect _ | .call _ => true
  | .enable | .assign _ | .ask | .trace _ => false

/-- The result of each call of a history, with the sink that it leaves. -/
def outcomes (print : Report → StateM σ ρ) (steps : List (Step σ)) (world : World σ) :
    List (Response ρ × σ) :=
  (excerpt Step.isWork (journal print steps world)).map fun entry => (entry.response, entry.sink)

theorem unwinding_isWork (print : Report → StateM σ ρ) :
    Unwinding print Step.isWork (fun entry => (entry.response, entry.sink))
      fun world other => world.sink = other.sink where
  symm := Eq.symm
  trans := Eq.trans
  hidden := by
    intro step world other hkeep hsink
    rw [step.observe_eq]
    cases step with
    | connect sink | call request => cases hkeep
    | enable | assign value | ask | trace text => exact hsink
  shown := by
    intro step world other hkeep hsink
    have hrespond : step.respond print world = step.respond print other := by
      refine step.respond_congr print hsink ?_
      rintro rfl
      cases hkeep
    rw [step.entry_eq, step.entry_eq, step.observe_eq, step.observe_eq, hrespond]
    exact ⟨rfl, rfl⟩

/-- **Tracing changes no result and no sink**: two histories with the same
calls on the same sinks have the same outcomes, whatever their tracing is like
at first and whatever is done to it between the calls. -/
theorem outcomes_eq_of_filter_eq (print : Report → StateM σ ρ) (first second : List (Step σ))
    (hcalls : first.filter Step.isWork = second.filter Step.isWork)
    (tracing other : Tracing) (sink : σ) :
    outcomes print first ⟨tracing, sink⟩ = outcomes print second ⟨other, sink⟩ :=
  (unwinding_isWork print).excerpt_congr hcalls rfl

/-- A report is printed into a sink for three bytes, once in a process that
traces and once in one that does not, because the variable gets its value only
after a question. -/
theorem outcomes_eq_of_filter_eq_printing :
    let sink : Budgeted := { bytes := .upTo 3 }
    let first : List (Step Budgeted) := [.enable, .call (.markers 1), .call (.print 0)]
    let second : List (Step Budgeted) :=
      [.ask, .assign (some ""), .call (.markers 1), .trace "between", .call (.print 0)]
    let world : History.World Budgeted := ⟨{ setting := none }, sink⟩
    first.filter Step.isWork = second.filter Step.isWork ∧
      outcomes Budgeted.print first world = outcomes Budgeted.print second world ∧
      (observeAll Budgeted.print first world).1.map (·.2) =
        [[], Traced.markersLines 1, Traced.reportLines 0] ∧
      (observeAll Budgeted.print second world).1.map (·.2) = [[], [], [], [], []] := by
  intro sink first second world
  refine ⟨rfl, outcomes_eq_of_filter_eq Budgeted.print first second rfl _ _ sink, ?_, ?_⟩
  · simp only [first, observeAll_cons, Step.observe_eq, Step.said_actions]
    rfl
  · simp only [second, observeAll_cons, Step.observe_eq, Step.said_actions]
    rfl

end CountingLoops.History
