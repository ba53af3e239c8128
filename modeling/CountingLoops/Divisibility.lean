/-!
Divisibility by three and by five, read as three disjoint classes. Three is asked first, so a
multiple of fifteen is in the class of three alone. Both questions are asked of words; the lemmas
put them to the numbers that the words stand for.
-/

namespace CountingLoops

/-- The class of a number under division by three and five. -/
inductive Divisibility where
  | byThree
  | byFive
  | neither
  deriving DecidableEq

namespace Divisibility

/-- The class of `n`; division by three takes precedence over division by five. -/
def of (n : UInt32) : Divisibility :=
  if n % 3 = 0 then .byThree
  else if n % 5 = 0 then .byFive
  else .neither

/-- The words that a console line uses for the class. -/
def label : Divisibility → String
  | .byThree => "Divisible by 3"
  | .byFive => "Divisible by 5"
  | .neither => "Not divisible by 3 or 5"

/-- The name of the class in structured data. -/
def identifier : Divisibility → String
  | .byThree => "divisible_by_three"
  | .byFive => "divisible_by_five"
  | .neither => "neither"

theorem mod_three_eq_zero_iff (n : UInt32) : n % 3 = 0 ↔ n.toNat % 3 = 0 := by
  simp [← UInt32.toNat_inj]

theorem mod_five_eq_zero_iff (n : UInt32) : n % 5 = 0 ↔ n.toNat % 5 = 0 := by
  simp [← UInt32.toNat_inj]

end Divisibility

end CountingLoops
