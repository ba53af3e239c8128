import CountingLoops.Proofs.Printing

/-!
# Whom a failure blames

A failed printing carries the fault of the request that ended it, and a remark
on a phase. The remark is decided by the loops of the printing; here it is
computed from the number of bytes that the sink took: the phase is the one
that owns the first byte which was not taken, and there is no remark if no
byte was left.
-/

namespace CountingLoops

variable {σ : Type}

/-! ## Owners of the bytes of a report -/

namespace Report

/-- What is printed of one phase, in pieces. -/
def phasePieces (report : Report) (phase : Phase) : List (Phase × String) :=
  (report.phaseLines phase).flatMap fun line => [(phase, line), (phase, "\n")]

/-- The bytes of one phase: its lines, each followed by a newline. -/
def phaseBytes (report : Report) (phase : Phase) : List UInt8 :=
  (report.phaseLines phase).flatMap fun line => encode line ++ encode "\n"

theorem pieces_eq (report : Report) :
    report.pieces = report.phasePieces .ascending ++
      (report.phasePieces .fixedCount ++ report.phasePieces .classification) := by
  simp [pieces, Phase.all, phasePieces]

theorem bytes_eq (report : Report) :
    report.bytes = report.phaseBytes .ascending ++
      (report.phaseBytes .fixedCount ++ report.phaseBytes .classification) := by
  simp [bytes, lines, Phase.all, phaseBytes]

theorem content_phasePieces (report : Report) (phase : Phase) :
    Sink.content (report.phasePieces phase) = report.phaseBytes phase := by
  simp [Sink.content, phasePieces, phaseBytes, List.flatMap_assoc]

theorem phase_of_mem_phasePieces {report : Report} {phase : Phase} {piece : Phase × String}
    (h : piece ∈ report.phasePieces phase) : piece.1 = phase := by
  simp only [phasePieces, List.mem_flatMap, List.mem_cons, List.not_mem_nil, or_false] at h
  obtain ⟨line, -, rfl | rfl⟩ := h <;> rfl

end Report

/-- A run of pieces of one phase owns its own bytes and leaves the rest to
what follows. -/
theorem Sink.owner_append {phase : Phase} {block : List (Phase × String)}
    (hblock : ∀ piece ∈ block, piece.1 = phase) (rest : List (Phase × String)) (offset : Nat) :
    owner (block ++ rest) offset =
      if offset < (content block).length then some phase
      else owner rest (offset - (content block).length) := by
  induction block generalizing offset with
  | nil => simp
  | cons piece block ih =>
    obtain ⟨first, text⟩ := piece
    obtain rfl : first = phase := hblock (first, text) (by simp)
    have hrest := ih fun piece hmem => hblock piece (List.mem_cons_of_mem _ hmem)
    rw [List.cons_append, owner, content_cons, List.length_append, hrest]
    -- the byte is in the first piece, or is counted from the end of it
    by_cases htext : offset < (encode text).length
    · rw [if_pos htext, if_pos (by omega)]
    · rw [if_neg htext, Nat.sub_add_eq]
      congr 1
      rw [eq_iff_iff]
      omega

/-- The bytes of a report belong to the three phases in their order. -/
theorem Report.owner_pieces (report : Report) (offset : Nat) :
    Sink.owner report.pieces offset =
      if offset < (report.phaseBytes .ascending).length then some .ascending
      else if offset < (report.phaseBytes .ascending).length +
          (report.phaseBytes .fixedCount).length then some .fixedCount
      else if offset < (report.phaseBytes .ascending).length +
          (report.phaseBytes .fixedCount).length +
          (report.phaseBytes .classification).length then some .classification
      else none := by
  have hphase (phase : Phase) : ∀ piece ∈ report.phasePieces phase, piece.1 = phase :=
    fun _ => phase_of_mem_phasePieces
  rw [pieces_eq, Sink.owner_append (hphase _), Sink.owner_append (hphase _),
    ← List.append_nil (report.phasePieces .classification), Sink.owner_append (hphase _)]
  simp only [content_phasePieces, Sink.owner]
  generalize (report.phaseBytes .ascending).length = a
  generalize (report.phaseBytes .fixedCount).length = f
  generalize (report.phaseBytes .classification).length = c
  by_cases ha : offset < a
  · rw [if_pos ha, if_pos ha]
  · rw [if_neg ha, if_neg ha]
    by_cases hf : offset < a + f
    · rw [if_pos hf, if_pos (by omega)]
    · rw [if_neg hf, if_neg (by omega)]
      by_cases hc : offset < a + f + c
      · rw [if_pos hc, if_pos (by omega)]
      · rw [if_neg hc, if_neg (by omega)]

/-! ## Notes and kinds -/

section

variable {pieces : List (Phase × String)} {log : List Sink.Request} {failure : Failure}

/-- **The note is decided by the number of bytes taken.** -/
theorem Sink.Ends.note_eq (h : Ends pieces log (.error failure)) :
    failure.note = (owner pieces (accepted log).length).map Phase.remark := by
  generalize hr : Except.error failure = result at h
  cases h with
  | flushed reply _ hall =>
    cases reply with
    | none => cases hr
    | some fault =>
      cases hr
      have hnone := (owner_eq_none_iff pieces (content pieces).length).mpr (Nat.le_refl _)
      simp [hall, hnone]
  | refused _ hreply _ howner =>
    cases hr
    have hlast := Request.taken_of_refusal hreply
    simp [hlast, howner]

/-- The fault that a failure tells of is that of the last request. -/
theorem Sink.Ends.fault_eq (h : Ends pieces log (.error failure)) :
    ∃ request fault, log.getLast? = some request ∧ request.fault? = some fault ∧
      (failure.kind = .brokenPipe ↔ fault.kind = .brokenPipe) ∧
      failure.message = fault.message := by
  generalize hr : Except.error failure = result at h
  cases h with
  | flushed reply _ _ =>
    cases reply with
    | none => cases hr
    | some fault =>
      cases hr
      exact ⟨.flush (some fault), fault, by simp, rfl,
        Failure.ofFault_kind_eq_brokenPipe_iff fault, rfl⟩
  | @refused before offered reply fault phase _ hreply _ _ =>
    cases hr
    exact ⟨.write offered reply, fault, by simp, hreply,
      Failure.ofFault_kind_eq_brokenPipe_iff fault, rfl⟩

end

theorem Phase.remark_inj {first second : Phase} :
    first.remark = second.remark ↔ first = second := by
  constructor
  · cases first <;> cases second <;> decide
  · rintro rfl
    rfl

/-- What a failure says after requests for the bytes of `report`: which phase
was being written, by the number of bytes that were taken, and what fault
ended it. -/
structure Report.Blames (report : Report) (log : List Sink.Request) (failure : Failure) :
    Prop where
  ascending : failure.note = some "while writing the ascending phase" ↔
    (Sink.accepted log).length < (report.phaseBytes .ascending).length
  fixedCount : failure.note = some "while writing the fixed-count phase" ↔
    (report.phaseBytes .ascending).length ≤ (Sink.accepted log).length ∧
      (Sink.accepted log).length <
        (report.phaseBytes .ascending).length + (report.phaseBytes .fixedCount).length
  classification : failure.note = some "while writing the classification phase" ↔
    (report.phaseBytes .ascending).length + (report.phaseBytes .fixedCount).length ≤
        (Sink.accepted log).length ∧
      (Sink.accepted log).length <
        (report.phaseBytes .ascending).length + (report.phaseBytes .fixedCount).length +
          (report.phaseBytes .classification).length
  /-- Nothing is blamed if only the flush failed. -/
  unnamed : failure.note = none ↔
    (Sink.accepted log).length =
      (report.phaseBytes .ascending).length + (report.phaseBytes .fixedCount).length +
        (report.phaseBytes .classification).length
  /-- A phase without lines is never named. -/
  nonempty : ∀ phase, failure.note = some phase.remark → report.phaseLines phase ≠ []
  /-- The last request failed with the fault that the failure tells of. -/
  fault : ∃ request fault, log.getLast? = some request ∧ request.fault? = some fault ∧
    (failure.kind = .brokenPipe ↔ fault.kind = .brokenPipe) ∧ failure.message = fault.message

theorem Report.note_eq_remark_iff {report : Report} {log : List Sink.Request} {failure : Failure}
    (hnote : failure.note =
      (Sink.owner report.pieces (Sink.accepted log).length).map Phase.remark) (phase : Phase) :
    failure.note = some phase.remark ↔
      Sink.owner report.pieces (Sink.accepted log).length = some phase := by
  rw [hnote, Option.map_eq_some_iff]
  constructor
  · rintro ⟨named, howner, hremark⟩
    rwa [Phase.remark_inj.mp hremark] at howner
  · intro howner
    exact ⟨phase, howner, rfl⟩

/-- **A failure blames the phase of the first byte that was not taken**, and
tells of the fault that ended the printing. -/
theorem Report.blames_of_printTo (bound : UInt16) (sink : Sink (StateM σ)) (patience : Nat)
    (state final : σ) (failure : Failure)
    (h : (ofBound bound).printTo sink patience state = (some (.error failure), final)) :
    (ofBound bound).Blames ((ofBound bound).record sink patience state) failure := by
  generalize hreport : ofBound bound = report at h ⊢
  generalize hlog : report.record sink patience state = log
  have hdelivery := report.delivery_record sink patience state
  rw [h, hlog] at hdelivery
  have hends := hdelivery.ends
  have hle := hends.isPrefix_accepted.length_le
  have hnamed := note_eq_remark_iff hends.note_eq
  have hnote := hends.note_eq
  rw [content_pieces, bytes_eq, List.length_append, List.length_append] at hle
  simp only [owner_pieces] at hnamed hnote
  constructor
  case ascending => exact (hnamed .ascending).trans (by grind)
  case fixedCount => exact (hnamed .fixedCount).trans (by grind)
  case classification => exact (hnamed .classification).trans (by grind)
  case unnamed =>
    rw [hnote, Option.map_eq_none_iff]
    grind
  case nonempty =>
    intro phase hphase hempty
    have howner := (hnamed phase).mp hphase
    -- a phase without bytes owns an empty range of offsets
    have hzero : (report.phaseBytes phase).length = 0 := by simp [phaseBytes, hempty]
    cases phase <;> grind
  case fault => exact hends.fault_eq

/-- A pipe that is closed once it has carried as many bytes as its state says. -/
def Sink.closing : Sink (StateM Nat) where
  write bytes := fun left =>
    if left = 0 then (.failed (.ofKind .brokenPipe), 0)
    else (.fitting left bytes.length, left - bytes.length)
  flush := fun left => (none, left)

/-- Four bytes end within the marker, after the two bytes of the first line. -/
theorem Report.blames_of_printTo_closing :
    let log := (ofBound 1).record Sink.closing 0 4
    let failure := (Failure.ofFault (.ofKind .brokenPipe)).withNote Phase.fixedCount.remark
    (ofBound 1).printTo Sink.closing 0 4 = (some (.error failure), 0) ∧
      (ofBound 1).Blames log failure := by
  intro log failure
  have hpieces : (ofBound 1).pieces =
      [(.ascending, "1"), (.ascending, "\n"), (.fixedCount, "test"), (.fixedCount, "\n"),
        (.classification, "Not divisible by 3 or 5: 1"), (.classification, "\n")] := by
    rw [pieces_ofBound]
    decide
  have hprint : (ofBound 1).printTo Sink.closing 0 4 = (some (.error failure), 0) := by
    rw [printTo, hpieces]
    rfl
  exact ⟨hprint, blames_of_printTo 1 Sink.closing 0 4 0 failure hprint⟩

end CountingLoops
