import CountingLoops.Proofs.Printing

/-!
# Printing into a sink that never refuses

A sink that takes some of every offer is offered the rest until it has all of
it, so printing into it succeeds with any patience. Printing again does the
same again: the sink is sent the same bytes each time.
-/

namespace CountingLoops

variable {σ : Type}

/-- Prints a report a number of times, and answers with the results in order. -/
def Report.printTimes {m : Type → Type} [Monad m] (report : Report) (sink : Sink m)
    (patience : Nat) : Nat → m (List (Option (Except Failure Unit)))
  | 0 => pure []
  | times + 1 => do
    let result ← report.printTo sink patience
    return result :: (← report.printTimes sink patience times)

namespace Sink

/-- The sink takes everything, at once or in parts, and its flushes succeed. -/
structure Accepting (sink : Sink (StateM σ)) : Prop where
  write : ∀ bytes state, bytes ≠ [] → 0 < (sink.write bytes state).1.count
  flush : ∀ state, (sink.flush state).1 = none

/-- The answer that takes a whole offer. -/
def Reply.whole (size : Nat) : Reply size := .accepted size (Nat.le_refl size)

/-- A sink whose state is all that it was offered. -/
def collecting : Sink (StateM (List UInt8)) where
  write bytes := fun taken => (.whole bytes.length, taken ++ bytes)
  flush := fun taken => (none, taken)

theorem accepting_collecting : collecting.Accepting :=
  ⟨fun _ _ hne => List.length_pos_iff.mpr hne, fun _ => rfl⟩

/-- Whole offers are taken, so a text takes one request, or none if it is
empty. -/
theorem writeAll_collecting (patience : Nat) (bytes taken : List UInt8) :
    collecting.writeAll patience bytes taken = (some (.ok ()), taken ++ bytes) := by
  cases bytes with
  | nil => rw [writeAll, writeWithin_nil, List.append_nil]
  | cons byte bytes =>
    have hwrite : collecting.write (byte :: bytes) taken =
        (.whole (byte :: bytes).length, taken ++ byte :: bytes) := rfl
    rw [writeAll, List.length_cons, ← Nat.add_assoc,
      writeWithin_of_accepted _ (List.cons_ne_nil byte bytes) hwrite (Nat.succ_pos bytes.length),
      List.drop_length, writeWithin_nil]

theorem deliver_collecting (patience : Nat) (pieces : List (Phase × String))
    (taken : List UInt8) :
    collecting.deliver patience pieces taken = (some (.ok ()), taken ++ content pieces) := by
  induction pieces generalizing taken with
  | nil => rw [deliver_nil, content_nil, List.append_nil]; rfl
  | cons piece rest ih =>
    obtain ⟨phase, text⟩ := piece
    rw [deliver_cons, writeAll_collecting, content_cons, ← List.append_assoc]
    exact ih (taken ++ encode text)

section

variable {sink : Sink (StateM σ)}

/-- No write is refused, and the offers end with the bytes. -/
theorem Accepting.writeWithin (h : sink.Accepting) {requests : Nat} {bytes : List UInt8}
    (hle : bytes.length ≤ requests) (state : σ) :
    (sink.writeWithin requests bytes state).1 = some (.ok ()) := by
  induction requests generalizing bytes state with
  | zero =>
    obtain rfl : bytes = [] := List.length_eq_zero_iff.mp (Nat.le_zero.mp hle)
    rw [writeWithin_nil]
  | succ requests ih =>
    by_cases hne : bytes = []
    · rw [hne, writeWithin_nil]
    · have hpos := h.write bytes state hne
      cases hwrite : sink.write bytes state with
      | mk reply next =>
        rw [hwrite] at hpos
        cases reply with
        | accepted count le =>
          rw [writeWithin_of_accepted requests hne hwrite hpos]
          apply ih
          have hlength := List.length_drop (i := count) (l := bytes)
          change 0 < count at hpos
          omega
        | failed fault => exact absurd hpos (Nat.lt_irrefl 0)

theorem Accepting.deliver (h : sink.Accepting) (patience : Nat) (pieces : List (Phase × String))
    (state : σ) : (sink.deliver patience pieces state).1 = some (.ok ()) := by
  induction pieces generalizing state with
  | nil =>
    have hflush := h.flush state
    rw [deliver_nil]
    generalize sink.flush state = answer at hflush
    obtain ⟨reply, next⟩ := answer
    obtain rfl : reply = none := hflush
    rfl
  | cons piece rest ih =>
    obtain ⟨phase, text⟩ := piece
    have hwrite := h.writeWithin (Nat.le_add_left (encode text).length patience) state
    rw [deliver_cons, writeAll]
    generalize sink.writeWithin _ (encode text) state = answer at hwrite
    obtain ⟨result, next⟩ := answer
    obtain rfl : result = some (.ok ()) := hwrite
    exact ih next

/-- A printing succeeds, and what it adds to a record is all of the report. -/
theorem Accepting.printTo_recorded (h : sink.Accepting) (report : Report) (patience : Nat)
    (state : σ) (log : List Request) :
    ∃ made, accepted made = report.bytes ∧
      report.printTo sink patience state =
        (some (.ok ()), (report.printTo sink patience state).2) ∧
      report.printTo sink.recorded patience (state, log) =
        (some (.ok ()), (report.printTo sink patience state).2, log ++ made) := by
  have hok := h.deliver patience report.pieces state
  obtain ⟨made, hmade, hrun, -⟩ := sink.deliver_recorded patience report.pieces state log
  rw [hok] at hmade hrun
  have hall := (hmade.ends.ok_iff.mp rfl).1
  exact ⟨made, hall.trans report.content_pieces, Prod.ext hok rfl, hrun⟩

end

end Sink

namespace Report

section

variable (report : Report) (sink : Sink (StateM σ)) (patience times : Nat) (state : σ)

theorem printTimes_zero : report.printTimes sink patience 0 state = ([], state) := rfl

theorem printTimes_succ :
    report.printTimes sink patience (times + 1) state =
      ((report.printTo sink patience state).1 ::
          (report.printTimes sink patience times (report.printTo sink patience state).2).1,
        (report.printTimes sink patience times (report.printTo sink patience state).2).2) := rfl

end

/-- **Each printing succeeds and sends the same bytes**, whatever was printed
before. -/
theorem printTimes_recorded (report : Report) {sink : Sink (StateM σ)} (h : sink.Accepting)
    (patience times : Nat) (state : σ) (log : List Sink.Request) :
    ∃ final made, Sink.accepted made = (List.replicate times report.bytes).flatten ∧
      report.printTimes sink patience times state =
        (List.replicate times (some (.ok ())), final) ∧
      report.printTimes sink.recorded patience times (state, log) =
        (List.replicate times (some (.ok ())), final, log ++ made) := by
  induction times generalizing state log with
  | zero => exact ⟨state, [], rfl, rfl, by rw [printTimes_zero, List.append_nil]; rfl⟩
  | succ times ih =>
    obtain ⟨first, hfirst, hprint, hrecorded⟩ := h.printTo_recorded report patience state log
    obtain ⟨final, rest, hrest, hprints, hrecords⟩ :=
      ih (report.printTo sink patience state).2 (log ++ first)
    refine ⟨final, first ++ rest, ?_, ?_, ?_⟩
    · rw [Sink.accepted_append, hfirst, hrest, List.replicate_succ, List.flatten_cons]
    · rw [printTimes_succ, hprint]
      simp only [hprints, List.replicate_succ]
    · rw [printTimes_succ, hrecorded]
      simp only [hrecords, List.replicate_succ, List.append_assoc]

end Report

end CountingLoops
