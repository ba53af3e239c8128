import CountingLoops.Failure
import CountingLoops.Report
import CountingLoops.Sink

/-!
Printing a report sends its pieces to a sink, one after the other, and flushes the sink once all
of them were taken. The first fault ends it: a fault of a write becomes a failure with a remark on
the phase, a fault of the flush one without a remark. As for a single write, the answer `none`
says that the sink interrupted more often than `patience` allows.
-/

namespace CountingLoops

variable {m : Type → Type} [Monad m]

/-- Writes texts in order, each belonging to a phase, and then flushes. -/
@[specialize]
def Sink.deliver (sink : Sink m) (patience : Nat) :
    List (Phase × String) → m (Option (Except Failure Unit))
  | [] => do
    match ← sink.flush with
    | none => pure (some (.ok ()))
    | some fault => pure (some (.error (.ofFault fault)))
  | (phase, text) :: rest => do
    match ← sink.writeAll patience (encode text) with
    | none => pure none
    | some (.error fault) =>
      pure (some (.error ((Failure.ofFault fault).withNote phase.remark)))
    | some (.ok ()) => sink.deliver patience rest

/-- Prints a report. -/
@[inline]
def Report.printTo (report : Report) (sink : Sink m) (patience : Nat) :
    m (Option (Except Failure Unit)) :=
  sink.deliver patience report.pieces

/-! ## Machines

The same, for a sink that is a machine, as equations between states. -/

section

variable {σ : Type} (sink : Sink (StateM σ)) (state : σ) (patience : Nat)

theorem Sink.deliver_nil :
    sink.deliver patience [] state =
      match sink.flush state with
      | (none, next) => (some (.ok ()), next)
      | (some fault, next) => (some (.error (.ofFault fault)), next) := by
  simp only [Sink.deliver, bind, StateT.bind]
  obtain ⟨result, next⟩ := sink.flush state
  cases result <;> rfl

theorem Sink.deliver_cons (phase : Phase) (text : String) (rest : List (Phase × String)) :
    sink.deliver patience ((phase, text) :: rest) state =
      match sink.writeAll patience (encode text) state with
      | (none, next) => (none, next)
      | (some (.error fault), next) =>
        (some (.error ((Failure.ofFault fault).withNote phase.remark)), next)
      | (some (.ok ()), next) => sink.deliver patience rest next := by
  simp only [Sink.deliver, bind, StateT.bind]
  obtain ⟨result, next⟩ := sink.writeAll patience (encode text) state
  match result with
  | none => rfl
  | some (.error fault) => rfl
  | some (.ok ()) => rfl

end

end CountingLoops
