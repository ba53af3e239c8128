import CountingLoops.Proofs.Interruptions

/-!
Printing into a budgeted sink always ends. Each request uses up one of the sink's interruptions,
takes a byte of what is left, or is the last one, so the interruptions that the sink starts with
are all the patience that is needed. `Budgeted.print` is printing with that patience, and it has
an answer for every sink.
-/

namespace CountingLoops.Budgeted

theorem printTo_device_isSome (report : Report) (sink : Budgeted) :
    (report.printTo device sink.interrupts sink).1.isSome := by
  rw [← answering_flushReply]
  exact printTo_isSome report flushReply (Nat.le_refl _)

/-- Prints a report with as much patience as the sink asks for. -/
def print (report : Report) : StateM Budgeted (Except Failure Unit) := fun sink =>
  match h : report.printTo device sink.interrupts sink with
  | (some result, next) => (result, next)
  | (none, _) => by
    have hsome := printTo_device_isSome report sink
    rw [h] at hsome
    exact absurd hsome (by simp)

/-- What `print` answers is what printing with that patience answers. -/
theorem printTo_device (report : Report) (sink : Budgeted) :
    report.printTo device sink.interrupts sink =
      (some (print report sink).1, (print report sink).2) := by
  unfold print
  split
  · assumption
  next h =>
    have hsome := printTo_device_isSome report sink
    rw [h] at hsome
    exact absurd hsome (by simp)

end CountingLoops.Budgeted
