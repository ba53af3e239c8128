import CountingLoops.Proofs.Counting

/-!
# Reports of two bounds

A report of a larger bound goes on where that of a smaller one ends, in each of
its lists. All three lists come from consecutive numbers, so they are compared
by their lengths. Only the verdicts do not tell zero from one, because their
loop runs its body before the first test.
-/

namespace CountingLoops.Report

/-! ## Lists made of consecutive numbers -/

section

variable {α : Type} (f : Nat → α) (m n : Nat)

/-- What is made of a longer range begins with what is made of a shorter one. -/
theorem map_range'_isPrefix_iff :
    (List.range' 1 m).map f <+: (List.range' 1 n).map f ↔ m ≤ n := by
  constructor
  · intro h
    simpa using h.length_le
  · intro h
    obtain ⟨more, rfl⟩ := Nat.exists_eq_add_of_le h
    rw [← List.range'_append_1, List.map_append]
    exact List.prefix_append _ _

theorem map_range'_eq_iff : (List.range' 1 m).map f = (List.range' 1 n).map f ↔ m = n := by
  constructor
  · intro h
    simpa using congrArg List.length h
  · rintro rfl
    rfl

end

/-! ## Two bounds -/

section

variable (a b : UInt16)

theorem valuesTo_isPrefix_iff : valuesTo a <+: valuesTo b ↔ a ≤ b := by
  rw [valuesTo_eq, valuesTo_eq, map_range'_isPrefix_iff, UInt16.le_iff_toNat_le]

theorem markersTo_isPrefix_iff : markersTo a <+: markersTo b ↔ a ≤ b := by
  rw [markersTo_eq_map, markersTo_eq_map, map_range'_isPrefix_iff, UInt16.le_iff_toNat_le]

theorem verdictsTo_isPrefix_iff :
    (verdictsTo a).toList <+: (verdictsTo b).toList ↔ max a.toNat 1 ≤ max b.toNat 1 := by
  rw [toList_verdictsTo, toList_verdictsTo, map_range'_isPrefix_iff]

theorem valuesTo_eq_iff : valuesTo a = valuesTo b ↔ a = b := by
  rw [valuesTo_eq, valuesTo_eq, map_range'_eq_iff, UInt16.toNat_inj]

theorem markersTo_eq_iff : markersTo a = markersTo b ↔ a = b := by
  rw [markersTo_eq_map, markersTo_eq_map, map_range'_eq_iff, UInt16.toNat_inj]

theorem verdictsTo_eq_iff : verdictsTo a = verdictsTo b ↔ max a.toNat 1 = max b.toNat 1 := by
  rw [← NonemptyList.toList_inj, toList_verdictsTo, toList_verdictsTo, map_range'_eq_iff]

/-- The loop that runs its body first does not tell zero from one. -/
theorem max_one_eq_iff :
    max a.toNat 1 = max b.toNat 1 ↔ a = b ∨ (a ≤ 1 ∧ b ≤ 1) := by
  rw [← UInt16.toNat_inj, UInt16.le_iff_toNat_le, UInt16.le_iff_toNat_le, UInt16.toNat_one]
  omega

end

/-- How the reports of two bounds compare. -/
structure Compared (a b : UInt16) : Prop where
  /-- The report of a smaller bound begins that of a larger one, list by list. -/
  growing : a ≤ b →
    (ofBound a).values <+: (ofBound b).values ∧
    (ofBound a).markers <+: (ofBound b).markers ∧
    (ofBound a).verdicts.toList <+: (ofBound b).verdicts.toList
  values : (ofBound a).values <+: (ofBound b).values → a ≤ b
  markers : (ofBound a).markers <+: (ofBound b).markers → a ≤ b
  /-- For the verdicts zero counts as one. -/
  verdicts : (ofBound a).verdicts.toList <+: (ofBound b).verdicts.toList ↔
    max a.toNat 1 ≤ max b.toNat 1
  values_eq : (ofBound a).values = (ofBound b).values ↔ a = b
  markers_eq : (ofBound a).markers = (ofBound b).markers ↔ a = b
  report_eq : ofBound a = ofBound b ↔ a = b
  verdicts_eq : (ofBound a).verdicts = (ofBound b).verdicts ↔ max a.toNat 1 = max b.toNat 1
  verdicts_eq_small : (ofBound a).verdicts = (ofBound b).verdicts ↔ a = b ∨ (a ≤ 1 ∧ b ≤ 1)

/-- **Reports grow with the bound**, and differ wherever the bounds differ, but
for the verdicts of zero and of one. -/
theorem compared (a b : UInt16) : Compared a b where
  growing h := by
    refine ⟨(valuesTo_isPrefix_iff a b).mpr h, (markersTo_isPrefix_iff a b).mpr h, ?_⟩
    apply (verdictsTo_isPrefix_iff a b).mpr
    rw [UInt16.le_iff_toNat_le] at h
    omega
  values := (valuesTo_isPrefix_iff a b).mp
  markers := (markersTo_isPrefix_iff a b).mp
  verdicts := verdictsTo_isPrefix_iff a b
  values_eq := valuesTo_eq_iff a b
  markers_eq := markersTo_eq_iff a b
  report_eq := by
    refine ⟨?_, congrArg ofBound⟩
    intro h
    exact (valuesTo_eq_iff a b).mp (congrArg Report.values h)
  verdicts_eq := verdictsTo_eq_iff a b
  verdicts_eq_small := (verdictsTo_eq_iff a b).trans (max_one_eq_iff a b)

end CountingLoops.Report
