import CountingLoops.Fault

/-!
A sink takes bytes and can be flushed, each in some monad: `IO` for a real device, `StateM σ` for
an arbitrary machine with states `σ`. A request to write may be answered by taking fewer bytes
than were offered, so `Sink.writeAll` makes requests until nothing is left. It offers again what
was not taken, and makes an interrupted request once more.

A sink may interrupt every request, and then the work has no end. `writeAll` therefore carries a
bound on its requests, and answers `none` where the bound ended it. The bound grows with
`patience`, the number of interruptions that are put up with.
-/

namespace CountingLoops

/-- The answer to the offer of `size` bytes. -/
inductive Sink.Reply (size : Nat) where
  /-- The sink took the first `count` bytes. -/
  | accepted (count : Nat) (le : count ≤ size)
  | failed (fault : Fault)

/-- A destination for bytes. A flush that succeeds answers `none`. -/
structure Sink (m : Type → Type) where
  write : (bytes : List UInt8) → m (Sink.Reply bytes.length)
  flush : m (Option Fault)

namespace Sink

variable {m : Type → Type} [Monad m]

/-- Writes `bytes` with at most the given number of requests. A sink that takes nothing of what it
is offered, or fails without being interrupted, ends the work. -/
@[specialize]
def writeWithin (sink : Sink m) :
    (requests : Nat) → (bytes : List UInt8) → m (Option (Except Fault Unit))
  | _, [] => pure (some (.ok ()))
  | 0, _ :: _ => pure none
  | requests + 1, byte :: bytes => do
    match ← sink.write (byte :: bytes) with
    | .accepted 0 _ => pure (some (.error .unfinishedWrite))
    | .accepted (count + 1) _ => sink.writeWithin requests (bytes.drop count)
    | .failed fault =>
      if fault.kind = .interrupted then sink.writeWithin requests (byte :: bytes)
      else pure (some (.error fault))

/-- Writes all of `bytes`. No request is for nothing, so besides `patience` interruptions there is
at most one request for each byte. -/
@[specialize]
def writeAll (sink : Sink m) (patience : Nat) (bytes : List UInt8) :
    m (Option (Except Fault Unit)) :=
  sink.writeWithin (patience + bytes.length) bytes

/-! ## Machines

For a sink that is a machine, each step of a write is an equation between states. -/

section

variable {σ : Type} (sink : Sink (StateM σ)) (state : σ)

@[simp] theorem writeWithin_nil (requests : Nat) :
    sink.writeWithin requests [] state = (some (.ok ()), state) := by
  cases requests <;> rfl

theorem writeWithin_zero (byte : UInt8) (bytes : List UInt8) :
    sink.writeWithin 0 (byte :: bytes) state = (none, state) := rfl

theorem writeWithin_cons (requests : Nat) (byte : UInt8) (bytes : List UInt8) :
    sink.writeWithin (requests + 1) (byte :: bytes) state =
      match sink.write (byte :: bytes) state with
      | (.accepted 0 _, next) => (some (.error .unfinishedWrite), next)
      | (.accepted (count + 1) _, next) => sink.writeWithin requests (bytes.drop count) next
      | (.failed fault, next) =>
        if fault.kind = .interrupted then sink.writeWithin requests (byte :: bytes) next
        else (some (.error fault), next) := by
  simp only [writeWithin, bind, StateT.bind]
  obtain ⟨reply, next⟩ := sink.write (byte :: bytes) state
  match reply with
  | .accepted 0 _ => rfl
  | .accepted (count + 1) _ => rfl
  | .failed fault =>
    by_cases h : fault.kind = .interrupted
    · simp only [h, if_true]
    · simp only [h, if_false]
      rfl

end

end Sink

end CountingLoops
