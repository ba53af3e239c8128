import CountingLoops.Proofs.Trace
import CountingLoops.Proofs.Turns

/-!
# Where the counters end

A loop that owns its counter leaves it between one and the number after the
bound at the end of each turn, and so at its exit if it starts there. The
pre-test loop does. The post-test loop takes its first step before any test, so
it starts from two, and with the bound zero that is too far.
-/

namespace CountingLoops.Loop

/-- The counter is at least one and at most the number after `limit`. -/
def InReach (limit : Nat) (counter : UInt32) : Prop :=
  1 ≤ counter.toNat ∧ counter.toNat ≤ limit + 1

section

variable {bound : UInt16} {limit : Nat} {counter exit : UInt32}

/-- A turn leaves the counter in reach, wherever it was: the test holds it
back. -/
theorem inReach_of_turn (hle : bound.toNat ≤ limit) {item next : UInt32}
    (hturn : whileTurn? bound counter = some (item, next)) : InReach limit next := by
  obtain ⟨htest, rfl, rfl⟩ := whileTurn?_eq_some_iff.mp hturn
  rw [InReach, toNat_step htest]
  omega

/-- So only a loop that takes no turn depends on where it starts. -/
theorem Turns.inReach {items : List UInt32} (h : Turns (whileTurn? bound) counter items exit)
    (hle : bound.toNat ≤ limit) (hstart : InReach limit counter) : InReach limit exit := by
  induction h with
  | done _ => exact hstart
  | turn hturn _ ih => exact ih (inReach_of_turn hle hturn)

end

section

variable (bound : UInt16)

theorem inReach_preTest : InReach bound.toNat (preTest bound).exit := by
  refine (turns_preTest bound).inReach (Nat.le_refl _) ⟨Nat.le_refl 1, ?_⟩
  exact Nat.le_add_left 1 _

/-- The counter is two before the first test, so two is within the limit. -/
theorem inReach_postTest : InReach (max bound.toNat 1) (postTest bound).exit := by
  refine (turns_postTest bound).inReach (Nat.le_max_left _ _) ⟨by decide, ?_⟩
  exact Nat.succ_le_succ (Nat.le_max_right _ 1)

/-- With the bound zero the counter is out of reach before the first test. -/
theorem inReach_postTest_iff : InReach bound.toNat (postTest bound).exit ↔ bound ≠ 0 := by
  constructor
  · rintro ⟨-, hle⟩ rfl
    have hexit := (turns_postTest 0).toNat_exit
    have htwo : (1 + 1 : UInt32).toNat = 2 := rfl
    have hzero : (0 : UInt16).toNat = 0 := rfl
    omega
  · intro hne
    have hreach := inReach_postTest bound
    rwa [← toNat_max_one, max_one_of_ne_zero hne] at hreach

end

/-- What the loops of a process say of the counters with which they end. -/
structure Exits (bound : UInt16) (tracing : Tracing) : Prop where
  values : InReach bound.toNat (preTest bound).exit
  /-- For the post-test loop zero counts as one. -/
  verdicts : InReach (max bound.toNat 1) (postTest bound).exit
  verdicts_iff : InReach bound.toNat (postTest bound).exit ↔ bound ≠ 0
  /-- A process that is tracing writes the numbers in decimal digits. -/
  valuesLine : (Traced.values bound tracing).2.written.toList =
    tracing.written.toList ++ if tracing.isOn then
      ["[loops] ascending exited with counter = " ++ (preTest bound).exit.toNat.repr] else []
  verdictsLine : (Traced.verdicts bound tracing).2.written.toList =
    tracing.written.toList ++ if tracing.isOn then
      ["[loops] classification exited with counter = " ++ (postTest bound).exit.toNat.repr] else []

/-- **A counter ends at most one above its bound**, but for the post-test loop
with the bound zero. -/
theorem exits (bound : UInt16) (tracing : Tracing) : Exits bound tracing where
  values := inReach_preTest bound
  verdicts := inReach_postTest bound
  verdicts_iff := inReach_postTest_iff bound
  valuesLine := Tracing.written_traceAll [_] tracing
  verdictsLine := Tracing.written_traceAll [_] tracing

/-- With the bound zero the post-test loop says that it ended with two, which
is two above the bound. -/
theorem not_inReach_postTest_zero :
    (Traced.verdicts 0 { setting := some "1" }).2.written.toList =
        ["[loops] classification exited with counter = 2"] ∧
      ¬ InReach (0 : UInt16).toNat (postTest 0).exit := by
  constructor
  · rw [Traced.verdicts_eq, Tracing.written_traceAll]
    decide
  · rw [inReach_postTest_iff]
    exact not_not_intro rfl

end CountingLoops.Loop
