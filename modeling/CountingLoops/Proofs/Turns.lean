import CountingLoops.Proofs.Counting

/-!
# The loops turn by turn

A turn of a loop is its test and, if the test succeeds, one run of the body
with the step to the next counter. Counters are words, so a step may wrap, and
nothing in `Turns` says that a loop ends at all. That each of the loops does,
and after how many turns, is proved here: the executable loops run through
turns (`turns_whileAtMost`, `turns_fromTo`), and from one state there is only
one way to do so (`Turns.unique`).
-/

namespace CountingLoops.Loop

section

variable {σ α : Type}

/-- The turns of a loop that starts in some state: its body is run for these
items in order, and the test fails in the last state. -/
inductive Turns (turn? : σ → Option (α × σ)) : σ → List α → σ → Prop where
  | done {state : σ} : turn? state = none → Turns turn? state [] state
  | turn {state next final : σ} {item : α} {items : List α} :
      turn? state = some (item, next) → Turns turn? next items final →
      Turns turn? state (item :: items) final

variable {turn? : σ → Option (α × σ)} {state final : σ} {items : List α}

theorem Turns.unique {others : List α} {last : σ} (h : Turns turn? state items final)
    (hother : Turns turn? state others last) : others = items ∧ last = final := by
  induction h generalizing others with
  | done hnone =>
    cases hother with
    | done _ => exact ⟨rfl, rfl⟩
    | turn hsome _ => simp [hnone] at hsome
  | turn hsome _ ih =>
    cases hother with
    | done hnone => simp [hnone] at hsome
    | turn hagain hrest =>
      -- both runs make the same first turn, so the rest decides
      rw [hsome, Option.some.injEq, Prod.mk.injEq] at hagain
      obtain ⟨rfl, rfl⟩ := hagain
      obtain ⟨rfl, rfl⟩ := ih hrest
      exact ⟨rfl, rfl⟩

theorem Turns.iff (h : Turns turn? state items final) (others : List α) (last : σ) :
    Turns turn? state others last ↔ others = items ∧ last = final := by
  constructor
  · exact h.unique
  · rintro ⟨rfl, rfl⟩
    exact h

end

/-! ## Loops that own their counter -/

/-- A turn of a loop that runs its body while the counter is at most `bound`.
The step adds modulo the size of a word. -/
def whileTurn? (bound : UInt16) (counter : UInt32) : Option (UInt32 × UInt32) :=
  if counter ≤ bound.toUInt32 then some (counter, counter + 1) else none

theorem turns_whileAtMost (bound : UInt16) (counter : UInt32) (visited : Array UInt32) :
    ∃ items, Turns (whileTurn? bound) counter items (whileAtMost bound counter visited).2 ∧
      (whileAtMost bound counter visited).1.toList = visited.toList ++ items := by
  fun_induction whileAtMost bound counter visited with
  | case1 counter visited hle ih =>
    obtain ⟨items, hturns, hvisited⟩ := ih
    refine ⟨counter :: items, .turn ?_ hturns, ?_⟩
    · rw [whileTurn?, if_pos hle]
    · simp [hvisited]
  | case2 counter visited hgt =>
    refine ⟨[], .done ?_, by simp⟩
    rw [whileTurn?, if_neg hgt]

/-- A loop that has visited nothing yet visits one counter each turn. -/
theorem turns_of_empty (bound : UInt16) (counter : UInt32) :
    Turns (whileTurn? bound) counter (whileAtMost bound counter #[]).1.toList
      (whileAtMost bound counter #[]).2 := by
  obtain ⟨items, hturns, hvisited⟩ := turns_whileAtMost bound counter #[]
  rw [List.nil_append] at hvisited
  rw [hvisited]
  exact hturns

/-- The pre-test loop takes all of its turns from one on. -/
theorem turns_preTest (bound : UInt16) :
    Turns (whileTurn? bound) 1 (preTest bound).visited (preTest bound).exit :=
  turns_of_empty bound 1

/-- The post-test loop has run its body once when it takes its first turn. -/
theorem turns_postTest (bound : UInt16) :
    Turns (whileTurn? bound) (1 + 1) (postTest bound).visited.tail (postTest bound).exit :=
  turns_of_empty bound 2

section

variable {bound : UInt16} {counter exit : UInt32} {items : List UInt32}

theorem whileTurn?_eq_some_iff {item next : UInt32} :
    whileTurn? bound counter = some (item, next) ↔
      counter.toNat ≤ bound.toNat ∧ item = counter ∧ next = counter + 1 := by
  rw [whileTurn?, ← le_toUInt32_iff]
  by_cases h : counter ≤ bound.toUInt32
  · simp [h, eq_comm]
  · simp [h]

/-- A step follows a test, and what passes the test is far from wrapping. -/
theorem Turns.toNat_step (h : Turns (whileTurn? bound) counter items exit) :
    ∀ item ∈ items, (item + 1).toNat = item.toNat + 1 := by
  induction h with
  | done _ => simp
  | turn hturn _ ih =>
    obtain ⟨hle, rfl, -⟩ := whileTurn?_eq_some_iff.mp hturn
    intro item hmem
    rcases List.mem_cons.mp hmem with rfl | hmem
    · exact Loop.toNat_step hle
    · exact ih item hmem

/-- Each turn raises the counter by one. -/
theorem Turns.toNat_exit (h : Turns (whileTurn? bound) counter items exit) :
    exit.toNat = counter.toNat + items.length := by
  induction h with
  | done _ => rfl
  | turn hturn _ ih =>
    obtain ⟨hle, -, rfl⟩ := whileTurn?_eq_some_iff.mp hturn
    rw [ih, Loop.toNat_step hle, List.length_cons]
    omega

end

/-! ## The loop over a range -/

/-- A turn of a loop over the numbers up to `last`. Its state is the number
that comes next, until there is none. Behind `last` there is no step. -/
def rangeTurn? (last : UInt16) : Option UInt16 → Option (UInt16 × Option UInt16)
  | none => none
  | some number =>
    if number < last then some (number, some (number + 1))
    else if number = last then some (number, none)
    else none

theorem turns_fromTo (first last : UInt16) (visited : Array UInt16) :
    ∃ items final, Turns (rangeTurn? last) (some first) items final ∧
      (fromTo first last visited).toList = visited.toList ++ items := by
  fun_induction fromTo first last visited with
  | case1 first visited hlt ih =>
    obtain ⟨items, final, hturns, hvisited⟩ := ih
    refine ⟨first :: items, final, .turn ?_ hturns, ?_⟩
    · simp [rangeTurn?, hlt]
    · simp [hvisited]
  | case2 visited hnlt =>
    -- the last number is visited without a step, whatever word it is
    refine ⟨[last], none, .turn ?_ (.done rfl), by simp⟩
    simp [rangeTurn?]
  | case3 first visited hnlt hne =>
    refine ⟨[], some first, .done ?_, by simp⟩
    simp [rangeTurn?, hnlt, hne]

theorem turns_counted (bound : UInt16) :
    ∃ final, Turns (rangeTurn? bound) (some 1) (counted bound) final := by
  obtain ⟨items, final, hturns, hvisited⟩ := turns_fromTo 1 bound #[]
  rw [List.nil_append] at hvisited
  rw [← hvisited] at hturns
  exact ⟨final, hturns⟩

/-! ## Turns and counters of a bound -/

section

variable (bound : UInt16)

theorem length_preTest : (preTest bound).visited.length = bound.toNat := by
  rw [preTest_visited, List.length_map, List.length_range']

theorem length_postTest : (postTest bound).visited.length = max bound.toNat 1 := by
  rw [← NonemptyList.length_toList, postTest_visited, List.length_map, List.length_range']

theorem length_counted : (counted bound).length = bound.toNat := by
  rw [counted_eq, List.length_map, List.length_range']

theorem toNat_max_one : (max bound 1).toNat = max bound.toNat 1 := by
  have hmax : max bound 1 = if bound ≤ 1 then 1 else bound := rfl
  by_cases h : bound ≤ 1
  · have hle : bound.toNat ≤ 1 := UInt16.le_iff_toNat_le.mp h
    rw [hmax, if_pos h, UInt16.toNat_one]
    omega
  · have hgt : ¬ bound.toNat ≤ 1 := fun hle => h (UInt16.le_iff_toNat_le.mpr hle)
    rw [hmax, if_neg h]
    omega

/-- The post-test loop visits what the pre-test loop visits, with zero in the
place of one. -/
theorem postTest_visited_eq :
    (postTest bound).visited.toList = (preTest (max bound 1)).visited := by
  rw [postTest_visited, preTest_visited, toNat_max_one]

end

theorem max_one_of_ne_zero {bound : UInt16} (h : bound ≠ 0) : max bound 1 = bound := by
  have hne : bound.toNat ≠ 0 := fun hzero => h (UInt16.toNat_inj.mp hzero)
  apply UInt16.toNat_inj.mp
  rw [toNat_max_one]
  omega

/-- The loops with a bound, measured in turns. -/
structure Measured (bound : UInt16) : Prop where
  /-- The pre-test loop ends, in one way only. -/
  preTest_turns : ∀ items exit, Turns (whileTurn? bound) 1 items exit ↔
    items = (preTest bound).visited ∧ exit = (preTest bound).exit
  preTest_length : (preTest bound).visited.length = bound.toNat
  /-- The post-test loop runs its body for one, steps, and then ends in one
  way only. -/
  postTest_turns : ∀ items exit, Turns (whileTurn? bound) (1 + 1) items exit ↔
    1 :: items = (postTest bound).visited.toList ∧ exit = (postTest bound).exit
  postTest_length : (postTest bound).visited.length = max bound.toNat 1
  /-- There is one step for each run of a body, and none of them wraps. -/
  preTest_step : ∀ counter ∈ (preTest bound).visited, (counter + 1).toNat = counter.toNat + 1
  postTest_step : ∀ counter ∈ (postTest bound).visited.toList,
    (counter + 1).toNat = counter.toNat + 1
  /-- Each counter ends one above the number of results. -/
  values_exit : (preTest bound).exit.toNat = (Report.valuesTo bound).length + 1
  verdicts_exit : (postTest bound).exit.toNat = (Report.verdictsTo bound).length + 1
  /-- The loop over the range ends as well, for the greatest bound too. -/
  counted_turns : ∀ items,
    (∃ final, Turns (rangeTurn? bound) (some 1) items final) ↔ items = counted bound
  counted_length : (counted bound).length = bound.toNat
  markers_length : (Report.markersTo bound).length = bound.toNat
  /-- The verdicts are on the counters of the pre-test loop; zero counts as
  one. -/
  verdicts_values : (Report.verdictsTo bound).toList.map Verdict.value =
    Report.valuesTo (max bound 1)
  same : bound ≠ 0 → (postTest bound).visited.toList = (preTest bound).visited

/-- **Every loop ends, and no counter wraps on the way.** -/
theorem measured (bound : UInt16) : Measured bound where
  preTest_turns := (turns_preTest bound).iff
  preTest_length := length_preTest bound
  postTest_turns items exit := by
    have htoList : (postTest bound).visited.toList = 1 :: (postTest bound).visited.tail := rfl
    rw [(turns_postTest bound).iff, htoList, List.cons.injEq, eq_self, true_and]
  postTest_length := length_postTest bound
  preTest_step := (turns_preTest bound).toNat_step
  postTest_step counter hmem := by
    rcases List.mem_cons.mp hmem with rfl | hmem
    · rfl
    · exact (turns_postTest bound).toNat_step counter hmem
  values_exit := by
    rw [(turns_preTest bound).toNat_exit, Nat.add_comm]
    rfl
  verdicts_exit := by
    rw [(turns_postTest bound).toNat_exit, Nat.add_comm, Report.verdictsTo, NonemptyList.length,
      NonemptyList.map, List.length_map]
    rfl
  counted_turns items := by
    obtain ⟨final, hturns⟩ := turns_counted bound
    constructor
    · rintro ⟨last, hother⟩
      exact (hturns.unique hother).1
    · rintro rfl
      exact ⟨final, hturns⟩
  counted_length := length_counted bound
  markers_length := by
    rw [Report.markersTo, List.length_map, length_counted]
  verdicts_values := by
    rw [Report.verdictsTo, NonemptyList.toList_map, List.map_map, postTest_visited_eq]
    exact List.map_id _
  same h := by
    rw [postTest_visited_eq, max_one_of_ne_zero h]

end CountingLoops.Loop
