import CountingLoops.Proofs.Acceptance
import CountingLoops.Proofs.Residues
import CountingLoops.Proofs.Text

/-!
# Where each line stands

The console lines of a run by their places: the counters come first, then the
markers, then the verdicts, and the verdicts alone are never missing. The
lines are found without the loops, from the bound and the place.
-/

namespace CountingLoops

open Budgeted (newline)

/-- The line on `n` in the last part, by the rules of divisibility. -/
def verdictLine (n : Nat) : String :=
  if 3 ∣ n then "Divisible by 3: " ++ n.repr
  else if 5 ∣ n then "Divisible by 5: " ++ n.repr
  else "Not divisible by 3 or 5: " ++ n.repr

theorem Verdict.text_of (counter : UInt32) :
    (Verdict.of counter).text = verdictLine counter.toNat := by
  show (Divisibility.of counter).label ++ ": " ++ counter.toNat.repr = _
  rw [Divisibility.of_eq_ofNatural, Divisibility.ofNatural, verdictLine]
  by_cases hthree : 3 ∣ counter.toNat
  · rw [if_pos hthree, if_pos hthree]
    rfl
  · by_cases hfive : 5 ∣ counter.toNat
    · rw [if_neg hthree, if_neg hthree, if_pos hfive, if_pos hfive]
      rfl
    · rw [if_neg hthree, if_neg hthree, if_neg hfive, if_neg hfive]
      rfl

namespace Report

/-- The lines of a run, part by part. -/
theorem lines_ofBound (bound : UInt16) :
    (ofBound bound).lines =
      (List.range' 1 bound.toNat).map Nat.repr ++ List.replicate bound.toNat marker ++
        (List.range' 1 (max bound.toNat 1)).map verdictLine := by
  have hvalues : (valuesTo bound).map decimal = (List.range' 1 bound.toNat).map Nat.repr := by
    rw [valuesTo_eq, List.map_map]
    apply List.map_congr_left
    intro n hmem
    have hlast := (List.mem_range'_1.mp hmem).2
    have hn : n ≤ max bound.toNat 1 + 1 := by omega
    rw [Function.comp_apply, decimal, Loop.toNat_counter hn]
  have hverdicts : (verdictsTo bound).toList.map Verdict.text =
      (List.range' 1 (max bound.toNat 1)).map verdictLine := by
    rw [toList_verdictsTo, List.map_map]
    apply List.map_congr_left
    intro n hmem
    have hlast := (List.mem_range'_1.mp hmem).2
    have hn : n ≤ max bound.toNat 1 + 1 := by omega
    rw [Function.comp_apply, Verdict.text_of, Loop.toNat_counter hn]
  simp only [lines_eq, phaseLines, ofBound, hvalues, hverdicts, markersTo_eq, List.append_assoc]

section

variable {bound : UInt16} {i : Nat}

theorem getElem?_lines_counter (h : i < bound.toNat) :
    (ofBound bound).lines[i]? = some (i + 1).repr := by
  rw [lines_ofBound, List.append_assoc, List.getElem?_append_left (by simpa using h),
    List.getElem?_map, List.getElem?_range' h, Option.map_some, Nat.one_mul, Nat.add_comm]

theorem getElem?_lines_marker (hge : bound.toNat ≤ i) (hlt : i < 2 * bound.toNat) :
    (ofBound bound).lines[i]? = some marker := by
  rw [lines_ofBound, List.getElem?_append_left (by simp; omega),
    List.getElem?_append_right (by simpa using hge), List.length_map, List.length_range',
    List.getElem?_replicate_of_lt (by omega)]

theorem getElem?_lines_verdict (hge : 2 * bound.toNat ≤ i)
    (hlt : i < 2 * bound.toNat + max bound.toNat 1) :
    (ofBound bound).lines[i]? = some (verdictLine (i - 2 * bound.toNat + 1)) := by
  have hbefore : ((List.range' 1 bound.toNat).map Nat.repr ++
      List.replicate bound.toNat marker).length = 2 * bound.toNat := by
    rw [List.length_append, List.length_map, List.length_range', List.length_replicate]
    omega
  rw [lines_ofBound, List.getElem?_append_right (by omega), hbefore, List.getElem?_map,
    List.getElem?_range' (by omega), Option.map_some, Nat.one_mul, Nat.add_comm]

end

/-- Every line brings one newline. -/
theorem count_newline_bytes (bound : UInt16) :
    (ofBound bound).bytes.count newline = (ofBound bound).lines.length := by
  have hline : ∀ line ∈ (ofBound bound).lines,
      (encode line ++ encode "\n").count newline = 1 := by
    intro line hmem
    obtain ⟨phase, -, hphase⟩ := List.mem_flatMap.mp hmem
    rw [List.count_append, List.count_eq_zero.mpr (newline_notMem_encode hphase), encode_newline,
      List.count_singleton_self]
  calc (ofBound bound).bytes.count newline
      _ = ((ofBound bound).lines.map fun _ => 1).sum := by
        rw [bytes, List.count_flatMap]
        exact congrArg List.sum (List.map_congr_left hline)
      _ = (ofBound bound).lines.length := by
        rw [List.map_const', List.sum_replicate_nat, Nat.mul_one]

/-- The output of runs with the given bound. -/
structure LaidOut (bound : UInt16) : Prop where
  count : (ofBound bound).lines.length = 2 * bound.toNat + max bound.toNat 1
  counter : ∀ i < bound.toNat, (ofBound bound).lines[i]? = some (i + 1).repr
  marker : ∀ i, bound.toNat ≤ i → i < 2 * bound.toNat →
    (ofBound bound).lines[i]? = some "test"
  verdict : ∀ i, 2 * bound.toNat ≤ i → i < 2 * bound.toNat + max bound.toNat 1 →
    (ofBound bound).lines[i]? = some (verdictLine (i - 2 * bound.toNat + 1))
  /-- Newlines only end lines. -/
  newlines : (ofBound bound).bytes.count newline = 2 * bound.toNat + max bound.toNat 1
  /-- A sink that takes everything is sent the lines, each with its newline,
  and sent them again by each further run. -/
  printed : ∀ {σ : Type} (sink : Sink (StateM σ)), sink.Accepting →
    ∀ patience times state, ∃ final log,
      (ofBound bound).printTimes sink patience times state =
          (List.replicate times (some (.ok ())), final) ∧
        (ofBound bound).printTimes sink.recorded patience times (state, []) =
          (List.replicate times (some (.ok ())), final, log) ∧
        Sink.accepted log = (List.replicate times
          ((ofBound bound).lines.flatMap fun line => encode (line ++ "\n"))).flatten

/-- **The output of every bound in closed form**, by the place of each line. -/
theorem laidOut_ofBound (bound : UInt16) : LaidOut bound where
  count := length_lines bound
  counter _ h := getElem?_lines_counter h
  marker _ hge hlt := getElem?_lines_marker hge hlt
  verdict _ hge hlt := getElem?_lines_verdict hge hlt
  newlines := (count_newline_bytes bound).trans (length_lines bound)
  printed sink h patience times state := by
    obtain ⟨final, log, hlog, hprint, hrecorded⟩ :=
      (ofBound bound).printTimes_recorded h patience times state []
    have hbytes : ((ofBound bound).lines.flatMap fun line => encode (line ++ "\n")) =
        (ofBound bound).bytes := by
      simp [bytes, encode]
    exact ⟨final, log, hprint, hrecorded, by rw [hlog, hbytes]⟩

/-- Two runs with the bound zero leave their one line twice. -/
theorem laidOut_ofBound_collecting :
    let text := encode "Not divisible by 3 or 5: 1\n"
    (ofBound 0).printTimes Sink.collecting 0 2 [] =
        ([some (.ok ()), some (.ok ())], text ++ text) ∧
      ∃ log, (ofBound 0).printTimes Sink.collecting.recorded 0 2 ([], []) =
          ([some (.ok ()), some (.ok ())], text ++ text, log) ∧
        Sink.accepted log = (List.replicate 2
          ((ofBound 0).lines.flatMap fun line => encode (line ++ "\n"))).flatten := by
  intro text
  have hprint (taken : List UInt8) :
      (ofBound 0).printTo Sink.collecting 0 taken = (some (.ok ()), taken ++ text) := by
    rw [printTo, Sink.deliver_collecting, pieces_zero]
    rfl
  have hrun : (ofBound 0).printTimes Sink.collecting 0 2 [] =
      ([some (.ok ()), some (.ok ())], text ++ text) := by
    rw [printTimes_succ, hprint, printTimes_succ, hprint]
    rfl
  obtain ⟨final, log, hprints, hrecorded, hlog⟩ :=
    (laidOut_ofBound 0).printed Sink.collecting Sink.accepting_collecting 0 2 []
  obtain rfl : final = text ++ text := (Prod.ext_iff.mp (hprints.symm.trans hrun)).2
  exact ⟨hrun, log, hrecorded, hlog⟩

end Report

end CountingLoops
