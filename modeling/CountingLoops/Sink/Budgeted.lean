import CountingLoops.Sink
import CountingLoops.Sink.Limit

/-!
A sink in memory whose behaviour is set by budgets: it takes so many bytes and ends of lines in
all, so many bytes at a time, and answers some requests with interruptions first. What it took
stays readable in `output`. It describes a full disk, a closed pipe and a slow device alike.
-/

namespace CountingLoops

/-- The state of a budgeted sink. -/
structure Budgeted where
  /-- The ends of lines that it still takes; after the last one it is full. -/
  lines : Limit := .unlimited
  /-- The bytes that it still takes. -/
  bytes : Limit := .unlimited
  /-- The bytes that it takes at one time. -/
  chunk : Limit := .unlimited
  /-- The flushes that succeed, counted from the first. -/
  flushes : Limit := .unlimited
  /-- The requests to write that it interrupts before it looks at any other. -/
  interrupts : Nat := 0
  /-- The answer to a request when it is full; without one it takes nothing. -/
  fail : Option Fault.Final := none
  /-- The answer to a flush that does not succeed. -/
  flushFault : Fault := ⟨.other, "flush failed"⟩
  /-- All bytes that it took. -/
  output : Array UInt8 := #[]
  /-- The number of flushes that were asked for. -/
  flushed : Nat := 0

namespace Budgeted

/-- The byte that ends a line. -/
def newline : UInt8 := 10

/-- A full sink takes nothing. -/
def isFull (sink : Budgeted) : Bool := sink.lines.isSpent || sink.bytes.isSpent

/-- The number of bytes that are taken of an offer of `size`, by a sink that is not full. -/
def capacity (sink : Budgeted) (size : Nat) : Nat := sink.bytes.clip (sink.chunk.clip size)

theorem capacity_le (sink : Budgeted) (size : Nat) : sink.capacity size ≤ size :=
  Nat.le_trans (sink.bytes.clip_le _) (sink.chunk.clip_le size)

/-- The sink after it took `taken`, which its budgets pay for. -/
def take (sink : Budgeted) (taken : List UInt8) : Budgeted :=
  { sink with
    lines := sink.lines.spend (taken.count newline)
    bytes := sink.bytes.spend taken.length
    output := sink.output ++ taken }

/-- The answer to an offer of bytes. -/
def write (bytes : List UInt8) : StateM Budgeted (Sink.Reply bytes.length) := fun sink =>
  if 0 < sink.interrupts then
    (.failed (.ofKind .interrupted), { sink with interrupts := sink.interrupts - 1 })
  else if sink.isFull then
    match sink.fail with
    | some fault => (.failed fault.val, sink)
    | none => (.accepted 0 (Nat.zero_le _), sink)
  else
    let count := sink.capacity bytes.length
    (.accepted count (sink.capacity_le _), sink.take (bytes.take count))

/-- The answer to the next flush. -/
def flushReply (sink : Budgeted) : Option Fault :=
  if sink.flushes.admits (sink.flushed + 1) then none else some sink.flushFault

/-- The answer to a flush. -/
def flush : StateM Budgeted (Option Fault) := fun sink =>
  (sink.flushReply, { sink with flushed := sink.flushed + 1 })

/-- The sink whose states are those of a budgeted sink. -/
def device : Sink (StateM Budgeted) := ⟨write, flush⟩

/-- Changes to a sink; what is absent stays as it is. -/
structure Settings where
  lines : Option Limit := none
  bytes : Option Limit := none
  chunk : Option Limit := none
  flushes : Option Limit := none
  interrupts : Option Nat := none
  fail : Option Fault.Final := none
  flushFault : Option Fault := none

/-- The sink with new settings. What it took and the count of its flushes stay. -/
def refill (sink : Budgeted) (settings : Settings) : Budgeted :=
  { sink with
    lines := settings.lines.getD sink.lines
    bytes := settings.bytes.getD sink.bytes
    chunk := settings.chunk.getD sink.chunk
    flushes := settings.flushes.getD sink.flushes
    interrupts := settings.interrupts.getD sink.interrupts
    fail := settings.fail.or sink.fail
    flushFault := settings.flushFault.getD sink.flushFault }

/-- A new sink with the given settings. -/
def ofSettings (settings : Settings) : Budgeted := refill {} settings

section

variable {bytes : List UInt8} {sink : Budgeted}

theorem write_of_interrupts (h : 0 < sink.interrupts) :
    write bytes sink =
      (.failed (.ofKind .interrupted), { sink with interrupts := sink.interrupts - 1 }) := by
  simp [write, h]

theorem write_of_ready (hinterrupts : sink.interrupts = 0) (hfull : sink.isFull = false) :
    write bytes sink =
      (.accepted (sink.capacity bytes.length) (sink.capacity_le _),
        sink.take (bytes.take (sink.capacity bytes.length))) := by
  simp [write, hinterrupts, hfull]

end

end Budgeted

end CountingLoops
