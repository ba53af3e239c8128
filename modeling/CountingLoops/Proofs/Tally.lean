import CountingLoops.Proofs.Counting
import CountingLoops.Proofs.Residues

/-!
# How many verdicts of each class

The verdicts of a run counted by class. Up to `n` there are `n / k` multiples
of `k`; the multiples of fifteen are multiples of three and of five, and the
class of three has them all.
-/

namespace CountingLoops

/-! ## Multiples -/

theorem countP_dvd_range' (k n : Nat) : (List.range' 1 n).countP (k ∣ ·) = n / k := by
  induction n with
  | zero => simp
  | succ n ih =>
    rw [List.range'_1_concat, List.countP_append, ih, Nat.succ_div, Nat.add_comm 1 n]
    simp [List.countP_singleton]

namespace Divisibility

theorem countP_byThree (numbers : List Nat) :
    numbers.countP (ofNatural · = .byThree) = numbers.countP (3 ∣ ·) := by
  apply List.countP_congr
  intro n _
  rw [decide_eq_true_iff, decide_eq_true_iff, ofNatural_eq_byThree_iff]

/-- Of the multiples of five, those of fifteen are in the class of three. -/
theorem countP_byFive (numbers : List Nat) :
    numbers.countP (ofNatural · = .byFive) + numbers.countP (15 ∣ ·) =
      numbers.countP (5 ∣ ·) := by
  induction numbers with
  | nil => rfl
  | cons n numbers ih =>
    have hhead : (if ofNatural n = .byFive then 1 else 0) + (if 15 ∣ n then 1 else 0) =
        if 5 ∣ n then 1 else 0 := by
      have hfifteen : 15 ∣ n ↔ 3 ∣ n ∧ 5 ∣ n := by omega
      simp only [ofNatural_eq_byFive_iff, hfifteen]
      by_cases hthree : 3 ∣ n <;> by_cases hfive : 5 ∣ n <;> simp [hthree, hfive]
    simp only [List.countP_cons, decide_eq_true_iff]
    rw [← ih, ← hhead]
    exact Nat.add_add_add_comm _ _ _ _

theorem of_eq_byThree_of_dvd {counter : UInt32} (h : 15 ∣ counter.toNat) :
    of counter = .byThree := by
  rw [of_eq_ofNatural, ofNatural_eq_byThree_iff]
  exact Nat.dvd_trans (by decide) h

end Divisibility

/-! ## Verdicts -/

namespace Report

/-- The numbers of a run's verdicts are words. -/
theorem lt_size_of_mem_range' {bound : UInt16} {n : Nat}
    (h : n ∈ List.range' 1 (max bound.toNat 1)) : n < UInt32.size := by
  have hbound := bound.toNat_lt
  have hlast := (List.mem_range'_1.mp h).2
  have hsize : UInt32.size = 4294967296 := rfl
  omega

section

variable (bound : UInt16)

theorem count_verdictsTo (rule : Divisibility) :
    Verdict.count rule (verdictsTo bound).toList =
      (List.range' 1 (max bound.toNat 1)).countP (Divisibility.ofNatural · = rule) := by
  rw [toList_verdictsTo, Verdict.count_map_of rule fun _ => lt_size_of_mem_range']

theorem length_verdictsTo : (verdictsTo bound).toList.length = max bound.toNat 1 := by
  rw [toList_verdictsTo, List.length_map, List.length_range']

theorem count_byThree_verdictsTo :
    Verdict.count .byThree (verdictsTo bound).toList = max bound.toNat 1 / 3 := by
  rw [count_verdictsTo, Divisibility.countP_byThree, countP_dvd_range']

theorem count_byFive_verdictsTo :
    Verdict.count .byFive (verdictsTo bound).toList + max bound.toNat 1 / 15 =
      max bound.toNat 1 / 5 := by
  have hfive := Divisibility.countP_byFive (List.range' 1 (max bound.toNat 1))
  rwa [← count_verdictsTo, countP_dvd_range', countP_dvd_range'] at hfive

end

/-- `verdicts`, of which there are `n`, counted by class. -/
structure Tally (n : Nat) (verdicts : List Verdict) : Prop where
  length : verdicts.length = n
  byThree : Verdict.count .byThree verdicts = n / 3
  byFive : Verdict.count .byFive verdicts = n / 5 - n / 15
  neither : Verdict.count .neither verdicts = n - n / 3 - n / 5 + n / 15
  /-- No verdict is missing from the counts. -/
  total : Verdict.count .byThree verdicts + Verdict.count .byFive verdicts +
    Verdict.count .neither verdicts = verdicts.length
  /-- Multiples of fifteen are counted for three only. -/
  fifteen : ∀ v ∈ verdicts, 15 ∣ v.value.toNat → v.rule = .byThree

/-- **The classes of a run's verdicts**, for every bound; zero counts as one. -/
theorem tally_verdictsTo (bound : UInt16) :
    Tally (max bound.toNat 1) (verdictsTo bound).toList := by
  have hlength := length_verdictsTo bound
  have hthree := count_byThree_verdictsTo bound
  have hfive := count_byFive_verdictsTo bound
  have htotal := Verdict.count_add_count_add_count (verdictsTo bound).toList
  refine ⟨hlength, hthree, by omega, by omega, htotal, ?_⟩
  intro v hmem hdvd
  rw [toList_verdictsTo] at hmem
  obtain ⟨n, -, rfl⟩ := List.mem_map.mp hmem
  exact Divisibility.of_eq_byThree_of_dvd hdvd

end Report

end CountingLoops
