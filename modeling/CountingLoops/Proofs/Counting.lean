import CountingLoops.Report

/-!
# Courses of the loops

Each loop in closed form, over the natural numbers: the counters that it
visits are consecutive numbers from one on, and a loop with a counter of its
own stops at the number after the last of them. Below these equations nobody
needs the loops themselves.
-/

namespace CountingLoops.Loop

/-- The test of the loop, read on natural numbers. -/
theorem le_toUInt32_iff (counter : UInt32) (bound : UInt16) :
    counter ≤ bound.toUInt32 ↔ counter.toNat ≤ bound.toNat := by
  rw [UInt32.le_iff_toNat_le, UInt16.toNat_toUInt32]

/-- A counter that is within the bound does not wrap when it is stepped. -/
theorem toNat_step {counter : UInt32} {bound : UInt16} (h : counter.toNat ≤ bound.toNat) :
    (counter + 1).toNat = counter.toNat + 1 := by
  have hb := bound.toNat_lt
  rw [UInt32.toNat_add, UInt32.toNat_one]
  omega

/-- Every number that a counter comes to is within its type. -/
theorem toNat_counter {bound : UInt16} {n : Nat} (h : n ≤ max bound.toNat 1 + 1) :
    (UInt32.ofNat n).toNat = n := by
  have hbound := bound.toNat_lt
  have hsize : UInt32.size = 4294967296 := rfl
  exact UInt32.toNat_ofNat_of_lt' (by omega)

/-- **The loop, run to its end**: it adds the counters from its start up to
the bound, and stops right after the bound or where it started, whichever is
later. -/
theorem whileAtMost_eq (bound : UInt16) (counter : UInt32) (visited : Array UInt32) :
    whileAtMost bound counter visited =
      (visited ++ (List.range' counter.toNat (bound.toNat + 1 - counter.toNat)).map UInt32.ofNat,
        UInt32.ofNat (max counter.toNat (bound.toNat + 1))) := by
  fun_induction whileAtMost bound counter visited with
  | case1 counter visited hle ih =>
    have hc := (le_toUInt32_iff counter bound).mp hle
    rw [ih, toNat_step hc]
    obtain ⟨left, hleft⟩ : ∃ n, bound.toNat + 1 - counter.toNat = n + 1 :=
      ⟨bound.toNat - counter.toNat, by omega⟩
    rw [hleft, show bound.toNat + 1 - (counter.toNat + 1) = left by omega, List.range'_succ,
      Nat.max_eq_right (by omega : counter.toNat + 1 ≤ bound.toNat + 1),
      Nat.max_eq_right (by omega : counter.toNat ≤ bound.toNat + 1)]
    simp
  | case2 counter visited hgt =>
    rw [le_toUInt32_iff] at hgt
    rw [Nat.max_eq_left (by omega : bound.toNat + 1 ≤ counter.toNat),
      show bound.toNat + 1 - counter.toNat = 0 by omega]
    simp

theorem preTest_visited (bound : UInt16) :
    (preTest bound).visited = (List.range' 1 bound.toNat).map UInt32.ofNat := by
  simp [preTest, whileAtMost_eq]

theorem preTest_exit (bound : UInt16) :
    (preTest bound).exit = UInt32.ofNat (bound.toNat + 1) := by
  simp [preTest, whileAtMost_eq]

/-- The body runs for one even if the bound is zero. -/
theorem postTest_visited (bound : UInt16) :
    (postTest bound).visited.toList =
      (List.range' 1 (max bound.toNat 1)).map UInt32.ofNat := by
  obtain ⟨more, hmore⟩ : ∃ n, max bound.toNat 1 = n + 1 := ⟨max bound.toNat 1 - 1, by omega⟩
  rw [hmore, List.range'_succ]
  simp [postTest, whileAtMost_eq, NonemptyList.toList, show bound.toNat - 1 = more by omega]

theorem postTest_exit (bound : UInt16) :
    (postTest bound).exit = UInt32.ofNat (max bound.toNat 1 + 1) := by
  simp [postTest, whileAtMost_eq, show max 2 (bound.toNat + 1) = max bound.toNat 1 + 1 by omega]

/-- The counted loop from a number that is not above the last one. -/
theorem fromTo_eq (first last : UInt16) (visited : Array UInt16) (h : first.toNat ≤ last.toNat) :
    fromTo first last visited =
      visited ++ (List.range' first.toNat (last.toNat + 1 - first.toNat)).map UInt16.ofNat := by
  fun_induction fromTo first last visited with
  | case1 first visited hlt ih =>
    have hf : first.toNat < last.toNat := UInt16.lt_iff_toNat_lt.mp hlt
    have hl := last.toNat_lt
    have hstep : (first + 1).toNat = first.toNat + 1 := by
      rw [UInt16.toNat_add, UInt16.toNat_one]
      omega
    rw [ih (by omega), hstep]
    obtain ⟨left, hleft⟩ : ∃ n, last.toNat + 1 - first.toNat = n + 1 :=
      ⟨last.toNat - first.toNat, by omega⟩
    rw [hleft, show last.toNat + 1 - (first.toNat + 1) = left by omega, List.range'_succ]
    simp
  | case2 visited hnlt => simp
  | case3 first visited hnlt hne =>
    exact absurd (UInt16.toNat_inj.mp (by
      rw [UInt16.lt_iff_toNat_lt] at hnlt
      omega)) hne

theorem counted_eq (bound : UInt16) :
    counted bound = (List.range' 1 bound.toNat).map UInt16.ofNat := by
  by_cases h : bound = 0
  · subst h
    rw [counted, fromTo]
    simp
  · have hpos : (1 : UInt16).toNat ≤ bound.toNat := by
      have : bound.toNat ≠ 0 := fun h0 => h (UInt16.toNat_inj.mp h0)
      rw [UInt16.toNat_one]
      omega
    simp [counted, fromTo_eq 1 bound #[] hpos]

end CountingLoops.Loop

namespace CountingLoops.Report

/-! ## Reports of a bound -/

theorem valuesTo_eq (bound : UInt16) :
    valuesTo bound = (List.range' 1 bound.toNat).map UInt32.ofNat :=
  Loop.preTest_visited bound

theorem markersTo_eq_map (bound : UInt16) :
    markersTo bound = (List.range' 1 bound.toNat).map fun _ => marker := by
  rw [markersTo, Loop.counted_eq, List.map_map]
  rfl

theorem markersTo_eq (bound : UInt16) : markersTo bound = List.replicate bound.toNat marker := by
  rw [markersTo_eq_map, List.map_const', List.length_range']

theorem toList_verdictsTo (bound : UInt16) :
    (verdictsTo bound).toList =
      (List.range' 1 (max bound.toNat 1)).map fun n => Verdict.of (UInt32.ofNat n) := by
  simp [verdictsTo, Loop.postTest_visited]

/-- What is printed, loop by loop: a counter, a marker or a verdict, and the
newline behind it. -/
theorem pieces_ofBound (bound : UInt16) :
    (ofBound bound).pieces =
      ((List.range' 1 bound.toNat).flatMap fun n =>
        [(Phase.ascending, decimal (UInt32.ofNat n)), (Phase.ascending, "\n")]) ++
      ((List.range' 1 bound.toNat).flatMap fun _ =>
        [(Phase.fixedCount, marker), (Phase.fixedCount, "\n")]) ++
      (List.range' 1 (max bound.toNat 1)).flatMap fun n =>
        [(Phase.classification, (Verdict.of (UInt32.ofNat n)).text),
          (Phase.classification, "\n")] := by
  simp only [pieces, Phase.all, List.flatMap_cons, List.flatMap_nil, phaseLines, ofBound,
    valuesTo_eq, markersTo_eq_map, toList_verdictsTo, List.flatMap_map, List.append_nil, List.append_assoc]

theorem lines_eq (report : Report) :
    report.lines = report.phaseLines .ascending ++
      (report.phaseLines .fixedCount ++ report.phaseLines .classification) := by
  simp [lines, Phase.all]

/-- The number of console lines of a run. -/
theorem length_lines (bound : UInt16) :
    (ofBound bound).lines.length = 2 * bound.toNat + max bound.toNat 1 := by
  simp only [lines_eq, phaseLines, ofBound, valuesTo_eq, markersTo_eq, toList_verdictsTo,
    List.length_append, List.length_map, List.length_range', List.length_replicate]
  omega

/-- Even for the bound zero something is printed. -/
theorem bytes_ne_nil (bound : UInt16) : (ofBound bound).bytes ≠ [] := by
  have hlines : (ofBound bound).lines ≠ [] := by
    intro hnil
    have hlength := length_lines bound
    rw [hnil, List.length_nil] at hlength
    omega
  obtain ⟨line, rest, hcons⟩ := List.exists_cons_of_ne_nil hlines
  have hnewline : encode "\n" ≠ [] := by decide
  simp [bytes, hcons, hnewline]

end CountingLoops.Report
