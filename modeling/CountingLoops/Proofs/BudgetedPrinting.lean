import CountingLoops.Printing.Budgeted
import CountingLoops.Proofs.Budget
import CountingLoops.Proofs.Printing
import CountingLoops.Proofs.Text

/-!
# Printing into a budgeted sink

A printing into a budgeted sink in closed form. The sink takes what its
budgets pay for, whatever the size of its chunks and however often it is
interrupted first: `writeWithin_eq` shows this for one write, `deliver_eq` for
all pieces and the flush, and `print_eq` for a report.
-/

namespace CountingLoops.Budgeted

/-! ## Taking in parts -/

section

variable (sink : Budgeted) (taken : List UInt8)

@[simp] theorem take_lines :
    (sink.take taken).lines = sink.lines.spend (taken.count newline) := rfl

@[simp] theorem take_bytes : (sink.take taken).bytes = sink.bytes.spend taken.length := rfl

@[simp] theorem take_interrupts : (sink.take taken).interrupts = sink.interrupts := rfl

@[simp] theorem take_output : (sink.take taken).output = sink.output ++ taken := rfl

end

@[simp] theorem take_nil (sink : Budgeted) : sink.take [] = sink := by
  simp [take]

theorem take_take (sink : Budgeted) (first second : List UInt8) :
    (sink.take first).take second = sink.take (first ++ second) := by
  have houtput : sink.output ++ first ++ second = sink.output ++ (first ++ second) := by
    apply Array.toList_inj.mp
    simp
  simp [take, Limit.spend_spend, List.count_append, houtput]

/-- The part of a text that a sink still takes. -/
def part (sink : Budgeted) (text : List UInt8) : List UInt8 :=
  affordable sink.lines sink.bytes text

/-- The answer of a full sink to a write, as a fault. -/
def refusal (sink : Budgeted) : Fault :=
  match sink.fail with
  | some fault => fault.val
  | none => .unfinishedWrite

/-- The sink once its interruptions have passed. A write of nothing makes no
request, so it does not meet any. -/
def waited (sink : Budgeted) (bytes : List UInt8) : Budgeted :=
  { sink with interrupts := if bytes = [] then sink.interrupts else 0 }

@[simp] theorem waited_nil (sink : Budgeted) : sink.waited [] = sink := rfl

theorem waited_of_ready {sink : Budgeted} (h : sink.interrupts = 0) (bytes : List UInt8) :
    sink.waited bytes = sink := by
  rw [waited, h, ite_self, ← h]

theorem waited_interrupts_le (sink : Budgeted) (bytes : List UInt8) :
    (sink.waited bytes).interrupts ≤ sink.interrupts := by
  rw [waited]
  split
  · exact Nat.le_refl _
  · exact Nat.zero_le _

theorem waited_append (sink : Budgeted) (first second : List UInt8) :
    sink.waited (first ++ second) = (sink.waited first).waited second := by
  cases first <;> cases second <;> rfl

theorem take_waited (sink : Budgeted) (taken bytes : List UInt8) :
    (sink.take taken).waited bytes = (sink.waited bytes).take taken := rfl

/-- A newline ends the bytes, if there is one at all. -/
def Framed (bytes : List UInt8) : Prop :=
  ∀ before byte, before ++ [byte] <+: bytes → newline ∉ before

theorem framed_of_notMem {bytes : List UInt8} (h : newline ∉ bytes) : Framed bytes := by
  intro before byte hpre hmem
  exact h (hpre.subset (List.mem_append_left _ hmem))

theorem framed_newline : Framed [newline] := by
  intro before byte hpre
  have hlength := hpre.length_le
  rw [List.length_append, List.length_singleton, List.length_singleton] at hlength
  rw [List.eq_nil_of_length_eq_zero (by omega : before.length = 0)]
  exact List.not_mem_nil

theorem Framed.drop {bytes : List UInt8} (h : Framed bytes) (count : Nat) :
    Framed (bytes.drop count) := by
  intro before byte hpre hmem
  refine h (bytes.take count ++ before) byte ?_ (List.mem_append_right _ hmem)
  have happend := (List.prefix_append_right_inj (bytes.take count)).mpr hpre
  rwa [List.take_append_drop, ← List.append_assoc] at happend

/-- One line pays for any part of framed bytes. -/
theorem Framed.within {bytes part : List UInt8} (h : Framed bytes) (hpart : part <+: bytes)
    {lines limit : Limit} (hline : lines.isSpent = false)
    (hlimit : limit.admits part.length = true) : Within lines limit part := by
  refine ⟨hlimit, ?_⟩
  intro before byte hpre
  rw [List.count_eq_zero.mpr (h before byte (hpre.trans hpart)), Limit.spend_zero]
  exact hline

/-! ## One write -/

section

variable {bytes : List UInt8} {sink : Budgeted}

/-- A full sink ends a write, whether it fails or takes nothing. -/
theorem writeWithin_of_full (requests : Nat) (hne : bytes ≠ []) (hinterrupts : sink.interrupts = 0)
    (hfull : sink.isFull = true) :
    device.writeWithin (requests + 1) bytes sink = (some (.error sink.refusal), sink) := by
  obtain ⟨byte, bytes, rfl⟩ := List.exists_cons_of_ne_nil hne
  rw [Sink.writeWithin_cons]
  cases hfail : sink.fail with
  | none => simp [device, write, hinterrupts, hfull, hfail, refusal]
  | some fault => simp [device, write, hinterrupts, hfull, hfail, refusal, fault.property]

/-- A sink that is not full takes at least one byte, and no more than it can
pay for. -/
theorem capacity_pos (hchunk : sink.chunk.isSpent = false) (hfull : sink.isFull = false)
    {size : Nat} (hsize : 0 < size) : 0 < sink.capacity size := by
  have hbytes : sink.bytes.isSpent = false := by
    rw [isFull, Bool.or_eq_false_iff] at hfull
    exact hfull.2
  exact Limit.clip_pos hbytes (Limit.clip_pos hchunk hsize)

/-- A sink that is not full takes a part, and the rest of the write is offered
to what is left of it. -/
theorem writeWithin_of_ready (requests : Nat) (hne : bytes ≠ [])
    (hinterrupts : sink.interrupts = 0) (hchunk : sink.chunk.isSpent = false)
    (hready : sink.isFull = false) :
    device.writeWithin (requests + 1) bytes sink =
      device.writeWithin requests (bytes.drop (sink.capacity bytes.length))
        (sink.take (bytes.take (sink.capacity bytes.length))) := by
  have hpos := capacity_pos hchunk hready (List.length_pos_iff.mpr hne)
  have hanswer : device.write bytes sink = _ := write_of_ready hinterrupts hready
  exact Sink.writeWithin_of_accepted requests hne hanswer hpos

theorem within_take_capacity (hframed : Framed bytes) (hfull : sink.isFull = false) :
    Within sink.lines sink.bytes (bytes.take (sink.capacity bytes.length)) := by
  rw [isFull, Bool.or_eq_false_iff] at hfull
  refine hframed.within (List.take_prefix _ _) hfull.1 ?_
  rw [List.length_take, Nat.min_eq_left (sink.capacity_le _)]
  exact Limit.admits_clip _ _

theorem part_of_full (hfull : sink.isFull = true) (text : List UInt8) : sink.part text = [] :=
  affordable_cons_of_spent hfull text

/-- What a sink takes of a text is what it takes first, and then of the rest. -/
theorem part_of_take {count : Nat} (h : Within sink.lines sink.bytes (bytes.take count)) :
    sink.part bytes = bytes.take count ++ (sink.take (bytes.take count)).part (bytes.drop count) :=
  affordable_of_take h

theorem take_append_eq_iff (count : Nat) (bytes rest : List UInt8) :
    bytes.take count ++ rest = bytes ↔ rest = bytes.drop count := by
  have hcancel := @List.append_right_inj _ rest (bytes.drop count) (bytes.take count)
  rwa [List.take_append_drop] at hcancel

/-- **One write, run to its end**: the sink takes what it can pay for, in
whatever portions, and the write fails if that is not all. -/
theorem writeWithin_eq (requests : Nat) (bytes : List UInt8) (sink : Budgeted)
    (hframed : Framed bytes) (hchunk : sink.chunk.isSpent = false)
    (hrequests : sink.interrupts + bytes.length ≤ requests) :
    device.writeWithin requests bytes sink =
      (some (if sink.part bytes = bytes then .ok () else .error sink.refusal),
        (sink.waited bytes).take (sink.part bytes)) := by
  -- each request costs an interruption or a byte, so the bound on them carries the induction
  induction requests generalizing bytes sink with
  | zero =>
    have hnil : bytes = [] := List.eq_nil_of_length_eq_zero (by omega)
    subst hnil
    simp [part, affordable]
  | succ requests ih =>
    cases bytes with
    | nil => simp [part, affordable]
    | cons byte bytes =>
      have hne : byte :: bytes ≠ [] := List.cons_ne_nil _ _
      by_cases hinterrupts : 0 < sink.interrupts
      · -- an interruption changes nothing that the rest depends on
        let next := { sink with interrupts := sink.interrupts - 1 }
        have hnext : next.interrupts + (byte :: bytes).length ≤ requests := by
          simp only [List.length_cons, next] at hrequests ⊢
          omega
        have hrest := ih (byte :: bytes) next hframed hchunk hnext
        have hanswer : device.write (byte :: bytes) sink = (.failed (.ofKind .interrupted), next) :=
          write_of_interrupts hinterrupts
        rw [Sink.writeWithin_cons, hanswer]
        simp only [Fault.ofKind, if_true]
        exact hrest
      · have hnone : sink.interrupts = 0 := by omega
        rw [waited_of_ready hnone]
        by_cases hfull : sink.isFull = true
        · rw [writeWithin_of_full requests hne hnone hfull, part_of_full hfull]
          simp
        · have hready : sink.isFull = false := by simpa using hfull
          have hwithin := within_take_capacity hframed hready
          have hpos := capacity_pos hchunk hready (List.length_pos_iff.mpr hne)
          rw [writeWithin_of_ready requests hne hnone hchunk hready]
          generalize sink.capacity (byte :: bytes).length = count at hwithin hpos ⊢
          let next := sink.take ((byte :: bytes).take count)
          have hnext : next.interrupts + ((byte :: bytes).drop count).length ≤ requests := by
            simp only [List.length_cons, List.length_drop, take_interrupts, next] at hrequests ⊢
            omega
          -- the whole offer is taken exactly if the rest of it is
          rw [ih ((byte :: bytes).drop count) next (hframed.drop count) hchunk hnext, take_waited,
            waited_of_ready hnone, take_take, part_of_take hwithin]
          simp only [take_append_eq_iff]
          rfl

end

/-! ## All pieces -/

/-- The result of a printing that took `count` bytes. -/
def outcome (sink : Budgeted) (pieces : List (Phase × String)) (count : Nat) :
    Except Failure Unit :=
  match Sink.owner pieces count with
  | some phase => .error ((Failure.ofFault sink.refusal).withNote phase.remark)
  | none => Sink.flushResult sink.flushReply

/-- The sink after a printing. -/
def settled (sink : Budgeted) (text : List UInt8) : Budgeted :=
  { (sink.waited text).take (sink.part text) with
    flushed := if sink.part text = text then sink.flushed + 1 else sink.flushed }

theorem deliver_nil_eq (patience : Nat) (sink : Budgeted) :
    device.deliver patience [] sink = (some (sink.outcome [] 0), sink.settled []) := by
  rw [Sink.deliver_nil]
  cases hflush : sink.flushes.admits (sink.flushed + 1) <;>
    simp [device, flush, hflush, outcome, Sink.owner, flushReply, Sink.flushResult, settled, part,
      affordable]

/-- Behind a piece that was taken as a whole, the sink prints the rest as it
would print it alone. -/
theorem part_append {sink : Budgeted} {first : List UInt8} (h : sink.part first = first)
    (second : List UInt8) :
    sink.part (first ++ second) = first ++ (sink.take first).part second :=
  affordable_append _ _ ((affordable_eq_self_iff _ _ _).mp h) second

theorem settled_append {sink : Budgeted} {first : List UInt8} (h : sink.part first = first)
    (second : List UInt8) :
    sink.settled (first ++ second) = ((sink.waited first).take first).settled second := by
  have hpart : ((sink.waited first).take first).part second = (sink.take first).part second := rfl
  simp only [settled, part_append h, List.append_right_inj, hpart, take_waited, take_take,
    waited_append]
  rfl

theorem outcome_cons_add (sink : Budgeted) (phase : Phase) (text : String)
    (rest : List (Phase × String)) (count : Nat) :
    sink.outcome ((phase, text) :: rest) ((encode text).length + count) =
      sink.outcome rest count := by
  rw [outcome, Sink.owner_cons_add]
  rfl

theorem part_length_lt {sink : Budgeted} {text : List UInt8} (h : sink.part text ≠ text) :
    (sink.part text).length < text.length := by
  have hlongest := longest_affordable sink.lines sink.bytes text
  have hle : (sink.part text).length ≤ text.length := hlongest.isPrefix.length_le
  have hne : (sink.part text).length ≠ text.length := by
    intro hlength
    exact h (hlongest.isPrefix.eq_of_length hlength)
  omega

/-- Behind a piece that was not taken as a whole, the sink meets nothing more. -/
theorem part_append_of_ne {sink : Budgeted} {first : List UInt8} (h : sink.part first ≠ first)
    (second : List UInt8) : sink.part (first ++ second) = sink.part first :=
  affordable_append_of_not_within (fun hwithin => h ((affordable_eq_self_iff _ _ _).mpr hwithin))
    second

theorem settled_append_of_ne {sink : Budgeted} {first : List UInt8} (h : sink.part first ≠ first)
    (second : List UInt8) :
    sink.settled (first ++ second) = (sink.waited first).take (sink.part first) := by
  have hlt := part_length_lt h
  have hne : first ≠ [] := List.ne_nil_of_length_pos (Nat.zero_lt_of_lt hlt)
  have hrest : sink.part first ≠ first ++ second := by
    intro hall
    have hlength := congrArg List.length hall
    rw [List.length_append] at hlength
    omega
  simp [settled, part_append_of_ne h, hrest, waited, hne, take]

/-- **Printing pieces into a budgeted sink**, in closed form. Neither the size
of its chunks nor the number of its interruptions has a part in it. -/
theorem deliver_eq (patience : Nat) (pieces : List (Phase × String)) (sink : Budgeted)
    (hframed : ∀ piece ∈ pieces, Framed (encode piece.2)) (hchunk : sink.chunk.isSpent = false)
    (hpatience : sink.interrupts ≤ patience) :
    device.deliver patience pieces sink =
      (some (sink.outcome pieces (sink.part (Sink.content pieces)).length),
        sink.settled (Sink.content pieces)) := by
  induction pieces generalizing sink with
  | nil => exact deliver_nil_eq patience sink
  | cons piece rest ih =>
    obtain ⟨phase, text⟩ := piece
    have hwrite := writeWithin_eq (patience + (encode text).length) (encode text) sink
      (hframed (phase, text) (List.mem_cons_self ..)) hchunk (Nat.add_le_add_right hpatience _)
    rw [Sink.deliver_cons, Sink.writeAll, hwrite, Sink.content_cons]
    by_cases hall : sink.part (encode text) = encode text
    · -- the piece is taken as a whole, so the rest meets a sink with smaller budgets
      let next := (sink.waited (encode text)).take (encode text)
      have hnext : next.interrupts ≤ patience :=
        Nat.le_trans (sink.waited_interrupts_le _) hpatience
      have hrest := ih next (fun piece hmem => hframed piece (List.mem_cons_of_mem _ hmem))
        hchunk hnext
      simp only [hall, if_true]
      rw [part_append hall, settled_append hall, List.length_append, outcome_cons_add]
      exact hrest
    · have howner := Sink.owner_cons_of_lt phase rest (part_length_lt hall)
      simp only [hall, if_false]
      rw [part_append_of_ne hall, settled_append_of_ne hall, outcome, howner]

/-! ## A report -/

theorem framed_pieces (bound : UInt16) :
    ∀ piece ∈ (Report.ofBound bound).pieces, Framed (encode piece.2) := by
  intro piece hmem
  obtain ⟨phase, -, hphase⟩ := List.mem_flatMap.mp hmem
  obtain ⟨line, hline, hpiece⟩ := List.mem_flatMap.mp hphase
  simp only [List.mem_cons, List.not_mem_nil, or_false] at hpiece
  rcases hpiece with rfl | rfl
  · exact framed_of_notMem (Report.newline_notMem_encode hline)
  · rw [encode_newline]
    exact framed_newline

/-- **Printing a report into a budgeted sink**, in closed form. -/
theorem print_eq (bound : UInt16) (sink : Budgeted) (hchunk : sink.chunk.isSpent = false) :
    print (.ofBound bound) sink =
      (sink.outcome (Report.ofBound bound).pieces (sink.part (Report.ofBound bound).bytes).length,
        sink.settled (Report.ofBound bound).bytes) := by
  have hdeliver := deliver_eq sink.interrupts (Report.ofBound bound).pieces sink
    (framed_pieces bound) hchunk (Nat.le_refl _)
  have hprint := printTo_device (.ofBound bound) sink
  rw [Report.printTo, hdeliver, Report.content_pieces, Prod.mk.injEq, Option.some.injEq] at hprint
  exact Prod.ext hprint.1.symm hprint.2.symm

end CountingLoops.Budgeted
