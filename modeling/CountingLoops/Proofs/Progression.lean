import CountingLoops.Proofs.Residues
import Mathlib.Data.List.Nodup
import Mathlib.Data.List.Perm.Subperm
import Mathlib.Data.Nat.ModEq

/-!
# Classes along a progression

Numbers in equal steps, up to the last one that is still a word. Their classes
come again after as many steps as it takes to go on by a multiple of fifteen.
If the step has no factor in common with fifteen, any fifteen terms in a row
have all remainders by fifteen, each once, so that every block of this length
has the same classes in another order.
-/

namespace CountingLoops

/-! ## Remainders along a progression -/

section

variable {m step : Nat}

/-- In steps coprime to `m`, the first `m` terms have each remainder once. -/
theorem perm_map_mod (h : Nat.Coprime step m) (start : Nat) :
    ((List.range m).map fun i => (start + i * step) % m).Perm (List.range m) := by
  have hnodup : ((List.range m).map fun i => (start + i * step) % m).Nodup := by
    refine List.Nodup.map_on ?_ List.nodup_range
    intro i hi j hj hij
    have hmod : start + i * step ≡ start + j * step [MOD m] := hij
    have hcancel := (hmod.add_left_cancel' start).cancel_right_of_coprime h.symm
    exact hcancel.eq_of_lt_of_lt (List.mem_range.mp hi) (List.mem_range.mp hj)
  have hsubset : ((List.range m).map fun i => (start + i * step) % m) ⊆ List.range m := by
    intro n hmem
    obtain ⟨i, hi, rfl⟩ := List.mem_map.mp hmem
    exact List.mem_range.mpr (Nat.mod_lt _ (Nat.zero_lt_of_lt (List.mem_range.mp hi)))
  exact (hnodup.subperm hsubset).perm_of_length_le (by simp)

variable (p : Nat → Bool)

/-- What depends on the remainder alone is as frequent among these terms as
among the remainders. -/
theorem countP_block (hp : ∀ n, p (n % m) = p n) (h : Nat.Coprime step m) (start : Nat) :
    (List.range m).countP (fun i => p (start + i * step)) = (List.range m).countP p := by
  calc (List.range m).countP (fun i => p (start + i * step))
      _ = (List.range m).countP (p ∘ fun i => (start + i * step) % m) := by
        simp only [Function.comp_def, hp]
      _ = ((List.range m).map fun i => (start + i * step) % m).countP p := by
        rw [List.countP_map]
      _ = (List.range m).countP p := (perm_map_mod h start).countP_eq p

theorem countP_blocks (hp : ∀ n, p (n % m) = p n) (h : Nat.Coprime step m) (start k : Nat) :
    (List.range (m * k)).countP (fun i => p (start + i * step)) =
      (List.range m).countP p * k := by
  induction k with
  | zero => simp
  | succ k ih =>
    -- the last block is one that starts after `k` others
    have hlast : (fun i => p (start + i * step)) ∘ (m * k + ·) =
        fun i => p (start + m * k * step + i * step) := by
      funext i
      rw [Function.comp_apply, Nat.add_mul, Nat.add_assoc]
    rw [Nat.mul_succ, List.range_add, List.countP_append, ih, List.countP_map, hlast,
      countP_block p hp h, Nat.mul_succ]

end

/-- What holds of all numbers up to a point is kept by the beginning of a range
up to this point. -/
theorem exists_takeWhile_range {p : Nat → Bool} (hp : ∀ i j, j ≤ i → p i = true → p j = true)
    (count : Nat) :
    ∃ n, (∀ i, i < n ↔ i < count ∧ p i = true) ∧
      (List.range count).takeWhile p = List.range n := by
  refine ⟨(List.range count).findIdx (!p ·), ?_, ?_⟩
  · intro i
    simp only [List.lt_findIdx_iff, List.length_range, List.getElem_range, Bool.not_eq_false',
      exists_prop]
    exact and_congr_right fun _ => ⟨fun h => h i (Nat.le_refl i), fun h j hj => hp i j hj h⟩
  · have hle : (List.range count).findIdx (!p ·) ≤ (List.range count).length :=
      List.findIdx_le_length
    rw [List.length_range] at hle
    rw [List.takeWhile_eq_take_findIdx_not, List.take_range, Nat.min_eq_left hle]

theorem take_drop_range {i m n : Nat} (h : i + m ≤ n) :
    ((List.range n).drop i).take m = (List.range m).map (i + ·) := by
  obtain ⟨rest, rfl⟩ := Nat.exists_eq_add_of_le h
  rw [Nat.add_assoc, List.range_add, List.drop_left' List.length_range, ← List.map_take,
    List.take_range, Nat.min_eq_left (Nat.le_add_right m rest)]

/-- The classes of the remainders by fifteen. -/
theorem Divisibility.countP_remainders :
    (List.range 15).countP (ofNatural · = .byThree) = 5 ∧
      (List.range 15).countP (ofNatural · = .byFive) = 2 ∧
      (List.range 15).countP (ofNatural · = .neither) = 8 := by
  decide

namespace Verdict

/-- The terms of a progression are those before the first one that is too
large to be a word; later ones would be larger still. -/
theorem exists_progression_eq (start step : UInt32) (count : Nat) :
    ∃ n, (∀ i, i < n ↔ i < count ∧ start.toNat + i * step.toNat < UInt32.size) ∧
      progression start step count =
        (List.range n).map fun i => of (UInt32.ofNat (start.toNat + i * step.toNat)) := by
  have hword (i j : Nat) (hj : j ≤ i)
      (hi : decide (start.toNat + i * step.toNat < UInt32.size) = true) :
      decide (start.toNat + j * step.toNat < UInt32.size) = true := by
    have hmul := Nat.mul_le_mul_right step.toNat hj
    rw [decide_eq_true_iff] at hi ⊢
    omega
  obtain ⟨n, hn, hrange⟩ := exists_takeWhile_range hword count
  refine ⟨n, ?_, ?_⟩
  · intro i
    rw [hn, decide_eq_true_iff]
  · rw [progression, List.takeWhile_map, List.map_map]
    exact congrArg _ hrange

section

variable {start step : UInt32} {count : Nat}

theorem lt_length_progression_iff (i : Nat) :
    i < (progression start step count).length ↔
      i < count ∧ start.toNat + i * step.toNat < UInt32.size := by
  obtain ⟨n, hn, hterms⟩ := exists_progression_eq start step count
  rw [hterms, List.length_map, List.length_range, hn]

/-- A term is the verdict on the exact number, which is a word. -/
theorem of_getElem?_progression {i : Nat} {v : Verdict}
    (h : (progression start step count)[i]? = some v) :
    start.toNat + i * step.toNat < UInt32.size ∧
      v = of (UInt32.ofNat (start.toNat + i * step.toNat)) := by
  have hi := (List.getElem?_eq_some_iff.mp h).1
  refine ⟨((lt_length_progression_iff i).mp hi).2, ?_⟩
  obtain ⟨n, -, hterms⟩ := exists_progression_eq start step count
  rw [hterms, List.length_map, List.length_range] at hi
  rw [hterms, List.getElem?_map, List.getElem?_range hi] at h
  exact (Option.some.inj h).symm

/-- What follows a term are the terms that a progression from there has. -/
theorem take_drop_progression {i m : Nat}
    (h : i + m ≤ (progression start step count).length) :
    ((progression start step count).drop i).take m =
      ((List.range m).map fun x => start.toNat + i * step.toNat + x * step.toNat).map
        fun n => of (UInt32.ofNat n) := by
  obtain ⟨n, -, hterms⟩ := exists_progression_eq start step count
  rw [hterms, List.length_map, List.length_range] at h
  rw [hterms, ← List.map_drop, ← List.map_take, take_drop_range h, List.map_map, List.map_map]
  apply List.map_congr_left
  intro x _
  simp only [Function.comp_apply, Nat.add_mul, Nat.add_assoc]

/-! ## Periods and blocks -/

/-- Fifteen divides what a period adds. -/
theorem fifteen_dvd_period_mul (step : Nat) : 15 ∣ 15 / Nat.gcd step 15 * step := by
  obtain ⟨factor, hfactor⟩ := Nat.gcd_dvd_left step 15
  refine ⟨factor, ?_⟩
  calc 15 / Nat.gcd step 15 * step
      _ = 15 / Nat.gcd step 15 * (Nat.gcd step 15 * factor) := by rw [← hfactor]
      _ = 15 * factor := by
        rw [← Nat.mul_assoc, Nat.div_mul_cancel (Nat.gcd_dvd_right step 15)]

theorem rule_eq_of_period {i : Nat} {v w : Verdict}
    (hv : (progression start step count)[i]? = some v)
    (hw : (progression start step count)[i + 15 / Nat.gcd step.toNat 15]? = some w) :
    v.rule = w.rule := by
  obtain ⟨hfirst, rfl⟩ := of_getElem?_progression hv
  obtain ⟨hsecond, rfl⟩ := of_getElem?_progression hw
  rw [rule_of_ofNat hfirst, rule_of_ofNat hsecond, ← Divisibility.ofNatural_mod,
    ← Divisibility.ofNatural_mod (start.toNat + (i + _) * step.toNat)]
  obtain ⟨more, hmore⟩ := fifteen_dvd_period_mul step.toNat
  rw [Nat.add_mul, hmore, ← Nat.add_assoc, Nat.add_mul_mod_self_left]

theorem count_block (rule : Divisibility) (h : Nat.gcd step.toNat 15 = 1) {i k : Nat}
    (hle : i + 15 * k ≤ (progression start step count).length) :
    Verdict.count rule (((progression start step count).drop i).take (15 * k)) =
      (List.range 15).countP (Divisibility.ofNatural · = rule) * k := by
  have hwords : ∀ n ∈ (List.range (15 * k)).map
      (fun x => start.toNat + i * step.toNat + x * step.toNat), n < UInt32.size := by
    intro n hmem
    obtain ⟨x, hx, rfl⟩ := List.mem_map.mp hmem
    have hlt : i + x < (progression start step count).length := by
      rw [List.mem_range] at hx
      omega
    have hword := ((lt_length_progression_iff (i + x)).mp hlt).2
    rwa [Nat.add_mul, ← Nat.add_assoc] at hword
  have hmod (x : Nat) : decide (Divisibility.ofNatural (x % 15) = rule) =
      decide (Divisibility.ofNatural x = rule) := by
    rw [Divisibility.ofNatural_mod]
  rw [take_drop_progression hle, count_map_of rule hwords, List.countP_map]
  exact countP_blocks (fun x => decide (Divisibility.ofNatural x = rule)) hmod h _ k

end

/-- The classes along the progression of words that begins with `start`. -/
structure Recurrent (start step : UInt32) (count : Nat) : Prop where
  /-- The progression ends before the first number above the greatest word. -/
  reach : ∀ i, i < (progression start step count).length ↔
    i < count ∧ start.toNat + i * step.toNat ≤ 4294967295
  /-- Its terms are the true verdicts on exact numbers. -/
  term : ∀ i v, (progression start step count)[i]? = some v →
    v.value.toNat = start.toNat + i * step.toNat ∧ v = of v.value
  period : ∀ i v w, (progression start step count)[i]? = some v →
    (progression start step count)[i + 15 / Nat.gcd step.toNat 15]? = some w → v.rule = w.rule
  block : Nat.gcd step.toNat 15 = 1 →
    ∀ i k, i + 15 * k ≤ (progression start step count).length →
      let terms := ((progression start step count).drop i).take (15 * k)
      Verdict.count .byThree terms = 5 * k ∧ Verdict.count .byFive terms = 2 * k ∧
        Verdict.count .neither terms = 8 * k

/-- **Classes come again along every progression.** -/
theorem recurrent_progression (start step : UInt32) (count : Nat) :
    Recurrent start step count where
  reach i := by
    rw [lt_length_progression_iff]
    exact and_congr_right fun _ => Nat.lt_succ_iff
  term i v h := by
    obtain ⟨hword, rfl⟩ := of_getElem?_progression h
    exact ⟨UInt32.toNat_ofNat_of_lt' hword, rfl⟩
  period i v w hv hw := rule_eq_of_period hv hw
  block h i k hle := by
    obtain ⟨hthree, hfive, hneither⟩ := Divisibility.countP_remainders
    refine ⟨?_, ?_, ?_⟩
    · rw [count_block .byThree h hle, hthree]
    · rw [count_block .byFive h hle, hfive]
    · rw [count_block .neither h hle, hneither]

/-- A block that ends with the greatest word, where the progression ends too. -/
theorem recurrent_progression_greatest :
    let terms := progression 4294967197 7 20
    terms.getLast? = some ⟨4294967295, .byThree⟩ ∧
      Verdict.count .byThree (terms.take 15) = 5 ∧ Verdict.count .byFive (terms.take 15) = 2 ∧
        Verdict.count .neither (terms.take 15) = 8 := by
  have hrecurrent := recurrent_progression 4294967197 7 20
  exact ⟨by decide, hrecurrent.block (by decide) 0 1 (by decide)⟩

end Verdict

end CountingLoops
