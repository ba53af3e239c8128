import CountingLoops.Proofs.Interruptions

/-!
# A printing ends

Every request of a printing brings it nearer to its end: it uses up an
interruption, it takes some of what is left, or it is the last. The first of
these is what `interrupts_of_plays` adds up along the states of the sink, the
second what the accepted bytes add up to, so both bound the record.
-/

namespace CountingLoops

namespace Sink

/-- Every request after which the work goes on was interrupted or took a
byte. -/
theorem length_le_of_continues {log : List Request} (h : ∀ request ∈ log, request.Continues) :
    log.length ≤ log.countP Request.isInterruption + (accepted log).length := by
  induction log with
  | nil => simp
  | cons request log ih =>
    have hrest := ih fun other hmem => h other (List.mem_cons_of_mem _ hmem)
    obtain ⟨hflush, hfault⟩ := h request (List.mem_cons_self ..)
    cases request with
    | flush reply => cases hflush
    | write offered reply =>
      have hle := reply.count_le
      rw [List.countP_cons, accepted_cons, taken_write, List.length_cons, List.length_append,
        List.length_take]
      rcases Reply.interrupted_or_count_pos hfault with hinterrupted | hpos
      · simp only [hinterrupted, if_true]
        omega
      · omega

section

variable {pieces : List (Phase × String)} {log : List Request} {result : Except Failure Unit}

/-- There is at most one write that neither was interrupted nor took a byte,
and no byte is taken twice. -/
theorem Ends.writes_le (h : Ends pieces log result) :
    (log.countP fun request => !request.isFlush) ≤
      log.countP Request.isInterruption + (content pieces).length + 1 := by
  have htaken := h.isPrefix_accepted.length_le
  obtain ⟨before, last, rfl, hbefore⟩ := h.init
  have hlength := length_le_of_continues hbefore
  have hinterrupted : before.countP Request.isInterruption ≤
      (before ++ [last]).countP Request.isInterruption :=
    (List.sublist_append_left before [last]).countP_le
  rw [accepted_append, List.length_append] at htaken
  calc (before ++ [last]).countP fun request => !request.isFlush
      _ ≤ (before ++ [last]).length := List.countP_le_length
      _ = before.length + 1 := List.length_append
      _ ≤ _ := by omega

/-- Only the last request can be a flush. -/
theorem Ends.flushes_le_one (h : Ends pieces log result) : log.countP Request.isFlush ≤ 1 := by
  obtain ⟨before, last, rfl, hbefore⟩ := h.init
  have hnone : before.countP Request.isFlush = 0 := by
    rw [List.countP_eq_zero]
    intro request hmem hflush
    simp [(hbefore request hmem).1] at hflush
  rw [List.countP_append, hnone, Nat.zero_add]
  exact List.countP_le_length

end

end Sink

namespace Budgeted

open Sink (Request Reply accepted)

/-! ## Records of a printing -/

/-- A record of requests under which `text` was printed, in the states from
`start` to `final`. -/
structure Advancing (text : List UInt8) (sink : Sink (StateM Budgeted)) (start : Budgeted)
    (log : List Request) (final : Budgeted) : Prop where
  /-- A write uses up an interruption, or the sink takes some of what it did
  not have of the text, or nothing follows. -/
  progress : ∀ before offered reply after,
    log = before ++ Request.write offered reply :: after →
    ∃ earlier later, sink.Plays start before earlier ∧
      sink.Answers (.write offered reply) earlier later ∧ sink.Plays later after final ∧
      (later.interrupts + 1 = earlier.interrupts ∨
        (0 < reply.count ∧ accepted before ++ offered.take reply.count <+: text) ∨ after = [])
  /-- The interruptions of the start come before any other answer to a write. -/
  interruptionsFirst : ∀ before offered reply after,
    log = before ++ Request.write offered reply :: after →
    (Request.write offered reply).isInterruption = false →
    before.countP Request.isInterruption = start.interrupts
  offered : ∀ offered reply, Request.write offered reply ∈ log → offered ≠ []
  writes : (log.countP fun request => !request.isFlush) ≤ start.interrupts + text.length + 1
  flushes : log.countP Request.isFlush ≤ 1

section

variable {pieces : List (Phase × String)} {flushes : Budgeted → Option Fault}
  {start final : Budgeted} {log : List Request} {result : Except Failure Unit}

theorem progress_of_delivery (hdelivery : Sink.Delivery pieces log (some result))
    (hplays : (answering flushes).Plays start log final) {before after : List Request}
    {offered : List UInt8} {reply : Reply offered.length}
    (hlog : log = before ++ Request.write offered reply :: after) :
    ∃ earlier later, (answering flushes).Plays start before earlier ∧
      (answering flushes).Answers (.write offered reply) earlier later ∧
      (answering flushes).Plays later after final ∧
      (later.interrupts + 1 = earlier.interrupts ∨
        (0 < reply.count ∧
          accepted before ++ offered.take reply.count <+: Sink.content pieces) ∨
        after = []) := by
  subst hlog
  obtain ⟨earlier, later, hbefore, hanswers, hafter⟩ := hplays.answers
  refine ⟨earlier, later, hbefore, hanswers, hafter, ?_⟩
  by_cases hreply : reply.refusal? = none
  · -- the work went on, so the write was interrupted or some bytes were taken
    rcases Reply.interrupted_or_count_pos hreply with hinterrupted | hpos
    · have hone := interrupts_of_answers hanswers
      rw [if_pos hinterrupted] at hone
      exact .inl hone
    · have hoffers := (hdelivery.offers rfl).2
      have htaken := (List.prefix_append_right_inj (accepted before)).mpr
        (List.take_prefix reply.count offered)
      exact .inr (.inl ⟨hpos, htaken.trans hoffers⟩)
  · right
    right
    exact hdelivery.ends.eq_nil_of_not_continues rfl fun hcontinues => hreply hcontinues.2

theorem interruptionsFirst_of_plays (hplays : (answering flushes).Plays start log final)
    {before after : List Request} {offered : List UInt8} {reply : Reply offered.length}
    (hlog : log = before ++ Request.write offered reply :: after)
    (hother : (Request.write offered reply).isInterruption = false) :
    before.countP Request.isInterruption = start.interrupts := by
  subst hlog
  obtain ⟨earlier, later, hbefore, hanswers, -⟩ := hplays.answers
  have hsum := interrupts_of_plays hbefore
  rwa [interrupts_eq_zero_of_answers hanswers hother, Nat.add_zero] at hsum

/-- What a delivery to a budgeted sink and the states of the sink say of the
record together. -/
theorem advancing_of_delivery (hdelivery : Sink.Delivery pieces log (some result))
    (hplays : (answering flushes).Plays start log final) :
    Advancing (Sink.content pieces) (answering flushes) start log final where
  progress _ _ _ _ hlog := progress_of_delivery hdelivery hplays hlog
  interruptionsFirst _ _ _ _ hlog hother := interruptionsFirst_of_plays hplays hlog hother
  offered offered reply hmem := by
    obtain ⟨before, after, hlog⟩ := List.append_of_mem hmem
    exact (hdelivery.offers hlog).1
  writes := by
    have hwrites := hdelivery.ends.writes_le
    have hsum := interrupts_of_plays hplays
    omega
  flushes := hdelivery.ends.flushes_le_one

end

/-- **Every printing into a budgeted sink ends**, with any budgets, with chunks
of any size, none included, and whatever the sink answers to a flush. More
patience than the sink has interruptions changes neither what it returns nor
what it asks. -/
theorem exists_advancing (bound : UInt16) (flushes : Budgeted → Option Fault) (start : Budgeted) :
    ∃ result final log,
      (∀ patience, start.interrupts ≤ patience →
        (Report.ofBound bound).printTo (answering flushes) patience start = (some result, final) ∧
        (Report.ofBound bound).printTo (answering flushes).recorded patience (start, []) =
          (some result, final, log)) ∧
      Advancing (Report.ofBound bound).bytes (answering flushes) start log final := by
  let report := Report.ofBound bound
  let sink := answering flushes
  have hsome := printTo_isSome report flushes (Nat.le_refl start.interrupts)
  obtain ⟨result, hresult⟩ := Option.isSome_iff_exists.mp hsome
  have hrecorded := report.printTo_recorded sink start.interrupts start
  have hdelivery := report.delivery_record sink start.interrupts start
  have hplays := report.plays_record sink start.interrupts start
  have hprint : report.printTo sink start.interrupts start =
      (some result, (report.printTo sink start.interrupts start).2) := Prod.ext hresult rfl
  refine ⟨result, (report.printTo sink start.interrupts start).2,
    report.record sink start.interrupts start, ?_, ?_⟩
  · -- what returns with the patience of the start returns with any more in the same way
    intro patience hle
    have hsomeRecorded : (report.printTo sink.recorded start.interrupts (start, [])).1.isSome := by
      rw [hrecorded]
      exact hsome
    refine ⟨(report.printTo_mono sink hle start hsome).trans hprint, ?_⟩
    rw [report.printTo_mono sink.recorded hle (start, []) hsomeRecorded, hrecorded, hresult]
  · rw [hresult] at hdelivery
    rw [← Report.content_pieces]
    exact advancing_of_delivery hdelivery hplays

end Budgeted

end CountingLoops
