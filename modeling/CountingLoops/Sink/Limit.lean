/-!
A limit on a quantity that is used up: a number of units that are left, or no limit at all.
-/

namespace CountingLoops

/-- What is left of a quantity. -/
inductive Limit where
  | unlimited
  | upTo (units : Nat)
  deriving DecidableEq

namespace Limit

/-- Nothing is left. -/
def isSpent : Limit → Bool
  | .unlimited => false
  | .upTo units => units == 0

/-- The part of `n` units that is left. -/
def clip : Limit → Nat → Nat
  | .unlimited, n => n
  | .upTo units, n => min units n

/-- The limit after `n` units were used; it does not go below zero. -/
def spend : Limit → Nat → Limit
  | .unlimited, _ => .unlimited
  | .upTo units, n => .upTo (units - n)

/-- Whether `n` units are within the limit. -/
def admits : Limit → Nat → Bool
  | .unlimited, _ => true
  | .upTo units, n => n ≤ units

theorem clip_le (limit : Limit) (n : Nat) : limit.clip n ≤ n := by
  cases limit with
  | unlimited => exact Nat.le_refl n
  | upTo units => exact Nat.min_le_right units n

theorem clip_pos {limit : Limit} {n : Nat} (h : limit.isSpent = false) (hn : 0 < n) :
    0 < limit.clip n := by
  cases limit with
  | unlimited => exact hn
  | upTo units =>
    have : units ≠ 0 := by simpa [isSpent] using h
    simp only [clip]
    omega

end Limit

end CountingLoops
