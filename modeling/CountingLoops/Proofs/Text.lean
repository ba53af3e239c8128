import CountingLoops.Proofs.Counting
import CountingLoops.Sink.Budgeted

/-!
# Lines as text

No console line holds a newline, so a newline among the bytes of a report
always ends a line.
-/

namespace CountingLoops

open Budgeted (newline)

theorem encode_newline : encode "\n" = [newline] := by decide

/-- In UTF-8 the newline byte stands for the newline and for nothing else. -/
theorem newline_mem_utf8EncodeChar_iff (c : Char) :
    newline ∈ String.utf8EncodeChar c ↔ c = '\n' := by
  constructor
  · intro h
    have hten : newline.toNat = 10 := rfl
    apply Char.toNat_inj.mp
    show c.val.toNat = 10
    simp only [String.utf8EncodeChar] at h
    -- a character of more than one byte has only bytes above all of ASCII
    split at h
    · simp only [List.mem_singleton, ← UInt8.toNat_inj, UInt8.toNat_ofNat'] at h
      omega
    · repeat' split at h
      all_goals
        simp only [List.mem_cons, List.not_mem_nil, or_false, ← UInt8.toNat_inj,
          UInt8.toNat_ofNat'] at h
        omega
  · rintro rfl
    decide

theorem newline_mem_encode_iff (text : String) : newline ∈ encode text ↔ '\n' ∈ text.toList := by
  simp [encode, newline_mem_utf8EncodeChar_iff]

theorem newline_notMem_decimal (n : UInt32) : '\n' ∉ (decimal n).toList := by
  intro h
  rw [decimal, Nat.toList_repr] at h
  have hdigit := Nat.isDigit_of_mem_toDigits (by decide) (by decide) h
  exact absurd hdigit (by decide)

theorem Verdict.newline_notMem_text (v : Verdict) : '\n' ∉ v.text.toList := by
  have hdigits := newline_notMem_decimal v.value
  have hlabel : '\n' ∉ v.rule.label.toList := by cases v.rule <;> decide
  simp [text, hdigits, hlabel]

namespace Report

/-- The markers of the report are the ones that the counted loop emits. -/
def Marked (report : Report) : Prop := ∀ text ∈ report.markers, text = marker

theorem marked_ofBound (bound : UInt16) : (ofBound bound).Marked := by
  intro text hmem
  rw [ofBound, markersTo_eq] at hmem
  exact List.eq_of_mem_replicate hmem

/-- No console line holds a newline, whatever the numbers and the verdicts are. -/
theorem Marked.newline_notMem {report : Report} (h : report.Marked) {phase : Phase} {line : String}
    (hline : line ∈ report.phaseLines phase) : '\n' ∉ line.toList := by
  cases phase with
  | ascending =>
    obtain ⟨n, -, rfl⟩ := List.mem_map.mp hline
    exact newline_notMem_decimal n
  | fixedCount =>
    rw [h line hline]
    decide
  | classification =>
    obtain ⟨v, -, rfl⟩ := List.mem_map.mp hline
    exact v.newline_notMem_text

theorem newline_notMem_encode {bound : UInt16} {phase : Phase} {line : String}
    (h : line ∈ (ofBound bound).phaseLines phase) : newline ∉ encode line := by
  rw [newline_mem_encode_iff]
  exact (marked_ofBound bound).newline_notMem h

end Report

end CountingLoops
