import CountingLoops.Proofs.Printing
import CountingLoops.Proofs.Reading

/-!
# Truncated output

The output of a run may be cut at any byte, also within a number. What is left
is never the whole output of a run with another bound: an output ends with a
line, so as a beginning of another it holds whole lines of that other, and the
place at which the counters end is not the same in both.
-/

namespace CountingLoops.Report

open Budgeted (newline)

variable {σ : Type}

/-! ## Beginnings of lines -/

theorem bytes_eq_terminated (report : Report) :
    report.bytes = terminated newline (report.lines.map encode) := by
  rw [bytes, encode_newline, terminated, List.flatMap_map]

section

variable {first second : Report}

theorem Marked.newline_notMem_encode_lines (h : first.Marked) :
    ∀ part ∈ first.lines.map encode, newline ∉ part := by
  intro part hmem
  obtain ⟨line, hline, rfl⟩ := List.mem_map.mp hmem
  rw [newline_mem_encode_iff]
  exact h.newline_notMem_lines _ (List.mem_map_of_mem hline)

/-- The beginning of an output that is itself an output holds whole lines. -/
theorem lines_isPrefix_of_bytes_isPrefix (hfirst : first.Marked) (hsecond : second.Marked)
    (h : first.bytes <+: second.bytes) : first.lines <+: second.lines := by
  rw [bytes_eq_terminated, bytes_eq_terminated] at h
  have hparts := isPrefix_of_terminated hfirst.newline_notMem_encode_lines
    hsecond.newline_notMem_encode_lines h
  exact (List.prefix_map_iff_of_injective fun _ _ => encode_injective).mp hparts

end

/-! ## Two bounds -/

/-- The counters are the lines at the places below the bound. -/
theorem ofLine_eq_ascending_iff {bound : UInt16} {i : Nat} {line : String}
    (h : (ofBound bound).lines[i]? = some line) :
    Phase.ofLine line = .ascending ↔ i < bound.toNat := by
  have hmarked := marked_ofBound bound
  have hlength : ((ofBound bound).phaseLines .ascending).length = bound.toNat := by
    simp [phaseLines, ofBound, valuesTo_eq]
  rw [lines_eq] at h
  by_cases hi : i < bound.toNat
  · rw [List.getElem?_append_left (by omega)] at h
    exact iff_of_true (hmarked.ofLine_eq (List.mem_of_getElem? h)) hi
  · rw [List.getElem?_append_right (by omega)] at h
    refine iff_of_false ?_ hi
    rcases List.mem_append.mp (List.mem_of_getElem? h) with hmem | hmem <;>
      simp [hmarked.ofLine_eq hmem]

/-- No lines of a run begin those of a run with another bound. -/
theorem eq_of_lines_isPrefix {a b : UInt16} (h : (ofBound a).lines <+: (ofBound b).lines) :
    a = b := by
  have hle := h.length_le
  rw [length_lines, length_lines] at hle
  -- the first line behind the counters of `a`; the verdicts are never missing
  have hlt : a.toNat < (ofBound a).lines.length := by
    rw [length_lines]
    omega
  have hfirst := List.getElem?_eq_getElem hlt
  have hsecond := List.prefix_iff_getElem?.mp h a.toNat hlt
  have hplace : a.toNat < a.toNat ↔ a.toNat < b.toNat :=
    (ofLine_eq_ascending_iff hfirst).symm.trans (ofLine_eq_ascending_iff hsecond)
  exact UInt16.toNat_inj.mp (by omega)

theorem eq_of_bytes_isPrefix {a b : UInt16} (h : (ofBound a).bytes <+: (ofBound b).bytes) :
    a = b :=
  eq_of_lines_isPrefix
    (lines_isPrefix_of_bytes_isPrefix (marked_ofBound a) (marked_ofBound b) h)

/-! ## Runs -/

/-- A run leaves a beginning of its output, whether it returns or not. -/
theorem isPrefix_accepted_record (report : Report) (sink : Sink (StateM σ)) (patience : Nat)
    (state : σ) : Sink.accepted (report.record sink patience state) <+: report.bytes := by
  rw [← content_pieces]
  exact (report.delivery_record sink patience state).isPrefix_accepted

/-- How far the output of a run with the bound `a` shows that bound. -/
structure TextsApart (a b : UInt16) : Prop where
  /-- It begins the output for no other bound, -/
  beginning : (ofBound a).bytes <+: (ofBound b).bytes ↔ a = b
  /-- it is the output for no other bound, -/
  whole : (ofBound a).bytes = (ofBound b).bytes ↔ a = b
  /-- and at no moment of a run with another bound, whatever the sink does, is
  it what the sink has taken. -/
  moment : ∀ {σ : Type} (sink : Sink (StateM σ)) patience state before,
    before <+: (ofBound b).record sink patience state →
      Sink.accepted before = (ofBound a).bytes → a = b

/-- **Truncated output is never the complete output for another bound.** -/
theorem textsApart (a b : UInt16) : TextsApart a b where
  beginning := by
    refine ⟨eq_of_bytes_isPrefix, ?_⟩
    rintro rfl
    exact List.prefix_rfl
  whole := by
    refine ⟨fun h => eq_of_bytes_isPrefix (h ▸ List.prefix_rfl), ?_⟩
    rintro rfl
    rfl
  moment sink patience state before hbefore h := by
    obtain ⟨after, hrecord⟩ := hbefore
    have htaken := (ofBound b).isPrefix_accepted_record sink patience state
    rw [← hrecord, Sink.accepted_append, h] at htaken
    exact eq_of_bytes_isPrefix ((List.prefix_append _ _).trans htaken)

end CountingLoops.Report
