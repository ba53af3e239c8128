import CountingLoops.Proofs.Printing
import CountingLoops.Sink.Budgeted

/-!
# Interruptions of a budgeted sink

A record alone does not show what a request does to the sink that answers it,
so `Plays` runs a record through the states of the sink. What one request does
to the interruptions of a budgeted sink then adds up along the record
(`interrupts_of_plays`): a printing meets no more of them than there are at its
start, and with as much patience it returns (`printTo_isSome`).
-/

namespace CountingLoops

namespace Sink

variable {σ : Type}

/-! ## Records and states -/

/-- The sink answers the request as it says, and goes from one state to the
other. -/
def Answers (sink : Sink (StateM σ)) : Request → σ → σ → Prop
  | .write offered reply, state, next => sink.write offered state = (reply, next)
  | .flush reply, state, next => sink.flush state = (reply, next)

/-- The sink answers the requests of a record, one after the other. -/
inductive Plays (sink : Sink (StateM σ)) : σ → List Request → σ → Prop where
  | nil (state : σ) : Plays sink state [] state
  | cons {request : Request} {log : List Request} {state next final : σ} :
      sink.Answers request state next → Plays sink next log final →
      Plays sink state (request :: log) final

section

variable {sink : Sink (StateM σ)} {state next final : σ}

theorem Plays.append {first second : List Request} (hfirst : sink.Plays state first next)
    (hsecond : sink.Plays next second final) : sink.Plays state (first ++ second) final := by
  induction hfirst with
  | nil _ => exact hsecond
  | cons hanswers _ ih => exact .cons hanswers (ih hsecond)

theorem Plays.split {first second : List Request} (h : sink.Plays state (first ++ second) final) :
    ∃ middle, sink.Plays state first middle ∧ sink.Plays middle second final := by
  induction first generalizing state with
  | nil => exact ⟨state, .nil state, h⟩
  | cons request first ih =>
    cases h with
    | cons hanswers hrest =>
      obtain ⟨middle, hfirst, hsecond⟩ := ih hrest
      exact ⟨middle, .cons hanswers hfirst, hsecond⟩

/-- The states before and after a request somewhere in a record. -/
theorem Plays.answers {before after : List Request} {request : Request}
    (h : sink.Plays state (before ++ request :: after) final) :
    ∃ earlier later, sink.Plays state before earlier ∧ sink.Answers request earlier later ∧
      sink.Plays later after final := by
  obtain ⟨earlier, hbefore, hrest⟩ := h.split
  cases hrest with
  | cons hanswers hafter => exact ⟨earlier, _, hbefore, hanswers, hafter⟩

end

/-! ## What requests preserve -/

section

variable (sink : Sink (StateM σ)) {Holds : σ → Prop}
  (hwrite : ∀ bytes state, Holds state → Holds (sink.write bytes state).2)
  (hflush : ∀ state, Holds state → Holds (sink.flush state).2)

include hwrite

theorem writeWithin_preserves (requests : Nat) (bytes : List UInt8) (state : σ)
    (h : Holds state) : Holds (sink.writeWithin requests bytes state).2 := by
  induction requests generalizing bytes state with
  | zero =>
    cases bytes with
    | nil => exact h
    | cons byte bytes => exact h
  | succ requests ih =>
    cases bytes with
    | nil => exact h
    | cons byte bytes =>
      have hnext := hwrite (byte :: bytes) state h
      rw [writeWithin_cons]
      generalize sink.write (byte :: bytes) state = answer at hnext
      obtain ⟨reply, next⟩ := answer
      match reply with
      | .accepted 0 _ => exact hnext
      | .accepted (count + 1) _ => exact ih (bytes.drop count) next hnext
      | .failed fault =>
        by_cases hf : fault.kind = .interrupted
        · simp only [hf, if_true]
          exact ih (byte :: bytes) next hnext
        · simp only [hf, if_false]
          exact hnext

include hflush

/-- What each request preserves, a delivery preserves. -/
theorem deliver_preserves (patience : Nat) (pieces : List (Phase × String)) (state : σ)
    (h : Holds state) : Holds (sink.deliver patience pieces state).2 := by
  induction pieces generalizing state with
  | nil =>
    have hnext := hflush state h
    rw [deliver_nil]
    generalize sink.flush state = answer at hnext
    obtain ⟨reply, next⟩ := answer
    cases reply with
    | none => exact hnext
    | some fault => exact hnext
  | cons piece rest ih =>
    obtain ⟨phase, text⟩ := piece
    have hnext := sink.writeWithin_preserves hwrite (patience + (encode text).length)
      (encode text) state h
    rw [deliver_cons, writeAll]
    generalize sink.writeWithin _ (encode text) state = answer at hnext
    obtain ⟨result, next⟩ := answer
    cases result with
    | none => exact hnext
    | some result =>
      cases result with
      | error fault => exact hnext
      | ok _ => exact ih next hnext

end

end Sink

/-- The record of a printing leads from its first state to its last. -/
theorem Report.plays_record {σ : Type} (report : Report) (sink : Sink (StateM σ))
    (patience : Nat) (start : σ) :
    sink.Plays start (report.record sink patience start)
      (report.printTo sink patience start).2 := by
  let Holds (state : σ × List Sink.Request) : Prop := sink.Plays start state.2 state.1
  have hplayed : Holds (report.printTo sink.recorded patience (start, [])).2 := by
    refine sink.recorded.deliver_preserves ?_ ?_ patience report.pieces _ (.nil start)
    · intro bytes state h
      exact h.append (.cons rfl (.nil _))
    · intro state h
      exact h.append (.cons rfl (.nil _))
  rw [report.printTo_recorded] at hplayed
  exact hplayed

namespace Budgeted

open Sink (Request Reply)

/-- The budgeted sink that answers a flush by `flushes`, whatever its own
settings say of flushes. Its own answer is `flushReply`. -/
def answering (flushes : Budgeted → Option Fault) : Sink (StateM Budgeted) where
  write := write
  flush := fun sink => (flushes sink, { sink with flushed := sink.flushed + 1 })

theorem answering_flushReply : answering flushReply = device := rfl

/-! ## Interruptions -/

/-- A write is interrupted and uses up an interruption, or it meets a sink that
has none left. No other fault of a sink is an interruption. -/
theorem write_cases {offered : List UInt8} {reply : Reply offered.length} {sink next : Budgeted}
    (h : write offered sink = (reply, next)) :
    ((Request.write offered reply).isInterruption = true ∧
        next.interrupts + 1 = sink.interrupts) ∨
      ((Request.write offered reply).isInterruption = false ∧ sink.interrupts = 0 ∧
        next.interrupts = 0) := by
  by_cases hinterrupts : 0 < sink.interrupts
  · rw [write_of_interrupts hinterrupts] at h
    cases h
    exact .inl ⟨rfl, Nat.sub_add_cancel hinterrupts⟩
  · have hnone : sink.interrupts = 0 := Nat.eq_zero_of_not_pos hinterrupts
    right
    cases hfull : sink.isFull with
    | false =>
      rw [write_of_ready hnone hfull] at h
      cases h
      exact ⟨rfl, hnone, hnone⟩
    | true =>
      simp only [write, hnone, hfull, Nat.lt_irrefl, if_false, if_true] at h
      split at h
      · next fault _ =>
        cases h
        exact ⟨decide_eq_false fault.property, hnone, hnone⟩
      · cases h
        exact ⟨rfl, hnone, hnone⟩

section

variable {flushes : Budgeted → Option Fault} {start final : Budgeted}

/-- An interrupted request uses up one interruption, and any other none. -/
theorem interrupts_of_answers {request : Request} {sink next : Budgeted}
    (h : (answering flushes).Answers request sink next) :
    next.interrupts + (if request.isInterruption then 1 else 0) = sink.interrupts := by
  cases request with
  | write offered reply =>
    rcases write_cases h with ⟨hinterrupted, hone⟩ | ⟨hother, hnone, hnext⟩
    · rw [if_pos hinterrupted]
      exact hone
    · rw [hother, hnone, hnext]
      rfl
  | flush reply =>
    have hnext : { sink with flushed := sink.flushed + 1 } = next := congrArg Prod.snd h
    rw [← hnext]
    rfl

/-- Along a record the interruptions that were answered and those that are
left add up to those at the start. -/
theorem interrupts_of_plays {log : List Request} (h : (answering flushes).Plays start log final) :
    log.countP Request.isInterruption + final.interrupts = start.interrupts := by
  induction h with
  | nil _ => rw [List.countP_nil, Nat.zero_add]
  | cons hanswers _ ih =>
    have hstep := interrupts_of_answers hanswers
    rw [List.countP_cons]
    omega

/-- Another answer than an interruption is given only when none is left. -/
theorem interrupts_eq_zero_of_answers {offered : List UInt8} {reply : Reply offered.length}
    {sink next : Budgeted} (h : (answering flushes).Answers (.write offered reply) sink next)
    (hother : (Request.write offered reply).isInterruption = false) : sink.interrupts = 0 := by
  rcases write_cases h with ⟨hinterrupted, -⟩ | ⟨-, hnone, -⟩
  · simp [hother] at hinterrupted
  · exact hnone

end

/-- A printing returns if its patience covers the interruptions at the start:
no more than these are met. -/
theorem printTo_isSome (report : Report) (flushes : Budgeted → Option Fault) {start : Budgeted}
    {patience : Nat} (h : start.interrupts ≤ patience) :
    (report.printTo (answering flushes) patience start).1.isSome := by
  have hsum := interrupts_of_plays (report.plays_record (answering flushes) patience start)
  apply report.isSome_of_interruptions_le
  omega

end Budgeted

end CountingLoops
