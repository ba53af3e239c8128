import CountingLoops.Verdict

/-!
# Classes over the natural numbers

A word has the class of the number that it stands for, and this class depends
on the remainder by fifteen alone. What is counted among verdicts on words is
therefore counted among natural numbers, where nothing wraps.
-/

namespace CountingLoops

namespace Divisibility

/-- The class of a natural number. -/
def ofNatural (n : Nat) : Divisibility :=
  if 3 ∣ n then .byThree
  else if 5 ∣ n then .byFive
  else .neither

theorem of_eq_ofNatural (counter : UInt32) : of counter = ofNatural counter.toNat := by
  simp only [of, ofNatural, mod_three_eq_zero_iff, mod_five_eq_zero_iff, Nat.dvd_iff_mod_eq_zero]

theorem ofNatural_eq_byThree_iff (n : Nat) : ofNatural n = .byThree ↔ 3 ∣ n := by
  rw [ofNatural]
  split
  · simp [*]
  · split <;> simp [*]

theorem ofNatural_eq_byFive_iff (n : Nat) : ofNatural n = .byFive ↔ ¬ 3 ∣ n ∧ 5 ∣ n := by
  rw [ofNatural]
  split
  · simp [*]
  · split <;> simp [*]

/-- Fifteen is a multiple of three and of five. -/
theorem ofNatural_mod (n : Nat) : ofNatural (n % 15) = ofNatural n := by
  have hthree : 3 ∣ n % 15 ↔ 3 ∣ n := Nat.dvd_mod_iff (by decide)
  have hfive : 5 ∣ n % 15 ↔ 5 ∣ n := Nat.dvd_mod_iff (by decide)
  simp only [ofNatural, hthree, hfive]

end Divisibility

namespace Verdict

/-- Each verdict states one class. -/
theorem count_add_count_add_count (verdicts : List Verdict) :
    count .byThree verdicts + count .byFive verdicts + count .neither verdicts =
      verdicts.length := by
  induction verdicts with
  | nil => rfl
  | cons v verdicts ih =>
    simp only [count, List.countP_cons, List.length_cons] at ih ⊢
    cases v.rule <;> simp <;> omega

theorem rule_of_ofNat {n : Nat} (h : n < UInt32.size) :
    (of (UInt32.ofNat n)).rule = Divisibility.ofNatural n := by
  show Divisibility.of (UInt32.ofNat n) = _
  rw [Divisibility.of_eq_ofNatural, UInt32.toNat_ofNat_of_lt' h]

/-- The verdicts on numbers in the range of the counters are counted by the
classes of these numbers. -/
theorem count_map_of (rule : Divisibility) {numbers : List Nat}
    (h : ∀ n ∈ numbers, n < UInt32.size) :
    count rule (numbers.map fun n => of (UInt32.ofNat n)) =
      numbers.countP (Divisibility.ofNatural · = rule) := by
  rw [count, List.countP_map]
  apply List.countP_congr
  intro n hmem
  rw [Function.comp_apply, rule_of_ofNat (h n hmem)]

end Verdict

end CountingLoops
