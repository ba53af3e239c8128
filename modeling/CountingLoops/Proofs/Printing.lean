import CountingLoops.Printing
import CountingLoops.Proofs.Counting
import CountingLoops.Proofs.Delivery

/-!
# What a sink sees of a printing

The record of a printing into an arbitrary sink, and what holds of it when the
printing returns: however the sink shortens, interrupts or refuses writes, it
takes a beginning of the report's text, it is left alone once it has refused,
and it is flushed once if it took all of the text.
-/

namespace CountingLoops

variable {σ : Type}

/-- The requests of a printing that starts in `state`. -/
def Report.record (report : Report) (sink : Sink (StateM σ)) (patience : Nat) (state : σ) :
    List Sink.Request :=
  (report.printTo sink.recorded patience (state, [])).2.2

theorem Report.content_pieces (report : Report) : Sink.content report.pieces = report.bytes :=
  report.flatMap_encode_pieces

/-- Recording changes neither the result of a printing nor the sink, the record
has the shape of a delivery, and only more interruptions than the patience
allows for leave it without a result. -/
theorem Report.record_spec (report : Report) (sink : Sink (StateM σ)) (patience : Nat)
    (state : σ) :
    report.printTo sink.recorded patience (state, []) =
        ((report.printTo sink patience state).1, (report.printTo sink patience state).2,
          report.record sink patience state) ∧
      Sink.Delivery report.pieces (report.record sink patience state)
        (report.printTo sink patience state).1 ∧
      ((report.printTo sink patience state).1 = none →
        patience < (report.record sink patience state).countP Sink.Request.isInterruption) := by
  obtain ⟨made, hmade, hrun, hnone⟩ := sink.deliver_recorded patience report.pieces state []
  have hrecord : report.record sink patience state = made := by simp [record, printTo, hrun]
  rw [hrecord]
  refine ⟨?_, hmade, hnone⟩
  simpa [printTo] using hrun

theorem Report.printTo_recorded (report : Report) (sink : Sink (StateM σ)) (patience : Nat)
    (state : σ) :
    report.printTo sink.recorded patience (state, []) =
      ((report.printTo sink patience state).1, (report.printTo sink patience state).2,
        report.record sink patience state) :=
  (report.record_spec sink patience state).1

theorem Report.delivery_record (report : Report) (sink : Sink (StateM σ)) (patience : Nat)
    (state : σ) :
    Sink.Delivery report.pieces (report.record sink patience state)
      (report.printTo sink patience state).1 :=
  (report.record_spec sink patience state).2.1

/-- A printing returns if its patience covers the interruptions that it meets. -/
theorem Report.isSome_of_interruptions_le (report : Report) (sink : Sink (StateM σ))
    (patience : Nat) (state : σ)
    (h : (report.record sink patience state).countP Sink.Request.isInterruption ≤ patience) :
    (report.printTo sink patience state).1.isSome := by
  rw [Option.isSome_iff_ne_none]
  intro hnone
  have hlt := (report.record_spec sink patience state).2.2 hnone
  omega

/-- The answer of a printing does not depend on the patience that it took. -/
theorem Report.printTo_mono (report : Report) (sink : Sink (StateM σ)) {less more : Nat}
    (hle : less ≤ more) (state : σ) (h : (report.printTo sink less state).1.isSome) :
    report.printTo sink more state = report.printTo sink less state :=
  sink.deliver_mono hle report.pieces state h

namespace Sink

/-- A record of requests under which `text` was printed in order, with the
result of the printing. -/
structure Orderly (text : List UInt8) (log : List Request) (result : Except Failure Unit) :
    Prop where
  /-- What was taken is a beginning of the text. -/
  taken : accepted log <+: text
  /-- Each write offers some of the text, from the first byte on that was not
  taken before. -/
  offers : ∀ before offered reply after, log = before ++ Request.write offered reply :: after →
    offered ≠ [] ∧ accepted before ++ offered <+: text
  /-- Nothing follows a write of which nothing was taken, or that failed
  without being interrupted. -/
  stops : ∀ before offered reply after, log = before ++ Request.write offered reply :: after →
    reply.refusal? ≠ none → after = []
  /-- If all of the text was taken there is one flush, which is the last
  request. -/
  flush : (∃ before reply, log = before ++ [Request.flush reply] ∧
    ∀ request ∈ before, request.isFlush = false) ↔ accepted log = text
  /-- Otherwise there is none. -/
  noFlush : (∀ request ∈ log, request.isFlush = false) ↔ accepted log ≠ text
  /-- It succeeds if all of the text was taken and then flushed. -/
  ok : result = .ok () ↔ accepted log = text ∧ log.getLast? = some (.flush none)

end Sink

/-- **Every printing that returns is orderly**, whatever the sink does. The
record is that of the very same printing. -/
theorem Report.orderly_record (bound : UInt16) (sink : Sink (StateM σ)) (patience : Nat)
    (state final : σ) (result : Except Failure Unit)
    (h : (ofBound bound).printTo sink patience state = (some result, final)) :
    (ofBound bound).printTo sink.recorded patience (state, []) =
        (some result, final, (ofBound bound).record sink patience state) ∧
      Sink.Orderly (ofBound bound).bytes ((ofBound bound).record sink patience state) result := by
  have hdelivery := (ofBound bound).delivery_record sink patience state
  have hrecorded := (ofBound bound).printTo_recorded sink patience state
  rw [h] at hdelivery hrecorded
  have hends := hdelivery.ends
  refine ⟨hrecorded, ?_⟩
  rw [← content_pieces]
  refine ⟨hends.isPrefix_accepted, ?_, ?_, hends.flush_iff, hends.no_flush_iff, hends.ok_iff⟩
  · intro before offered reply after hlog
    exact hdelivery.offers hlog
  · intro before offered reply after hlog hreply
    exact hends.eq_nil_of_not_continues hlog fun hcontinues => hreply hcontinues.2

/-- A sink that interrupts every other write, takes one byte with each of the
others, and interrupts its flush. Its state counts the requests. -/
def Sink.faltering : Sink (StateM Nat) where
  write bytes := fun requests =>
    (if requests % 2 = 0 then .failed (.ofKind .interrupted) else .fitting 1 bytes.length,
      requests + 1)
  flush := fun requests => (some (.ofKind .interrupted), requests + 1)

theorem Report.pieces_zero :
    (ofBound 0).pieces =
      [(.classification, "Not divisible by 3 or 5: 1"), (.classification, "\n")] := by
  rw [pieces_ofBound]
  decide

/-- The interrupted flush is not made again: of 55 requests it is the last. -/
theorem Report.orderly_record_faltering :
    let log := (ofBound 0).record Sink.faltering 26 0
    let result := Except.error (Failure.ofFault (.ofKind .interrupted))
    (ofBound 0).printTo Sink.faltering 26 0 = (some result, 55) ∧
      (ofBound 0).printTo Sink.faltering.recorded 26 (0, []) = (some result, 55, log) ∧
      Sink.Orderly (ofBound 0).bytes log result := by
  intro log result
  have hprint : (ofBound 0).printTo Sink.faltering 26 0 = (some result, 55) := by
    rw [printTo, pieces_zero]
    rfl
  exact ⟨hprint, orderly_record 0 Sink.faltering 26 0 55 result hprint⟩

end CountingLoops
