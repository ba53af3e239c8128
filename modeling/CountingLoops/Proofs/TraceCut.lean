import CountingLoops.Proofs.Histories

/-!
# The cut of a history

Since a step writes all of its lines or none, and the switch stays on once it
is on, there is one place in a history before which nothing is written and
after which everything is: it lies before the first step with lines that finds
tracing on. Where that is depends on what is done to tracing alone, so the
traces are those of any other history that does the same.
-/

namespace CountingLoops.History

open Tracing (Action)

variable {σ ρ : Type}

/-- The diagnostic lines of each step of a history. -/
def traces (print : Report → StateM σ ρ) (steps : List (Step σ)) (world : World σ) :
    List (List String) :=
  (observeAll print steps world).1.map (·.2)

/-- The lines that are written by one list of actions after the other. -/
def saidByEach (tracing : Tracing) : List (List Action) → List (List String)
  | [] => []
  | actions :: plan => tracing.said actions :: saidByEach (tracing.quiet.after actions) plan

/-- The traces are known from the actions of the steps. -/
theorem traces_eq (print : Report → StateM σ ρ) (steps : List (Step σ)) (world : World σ) :
    traces print steps world = saidByEach world.tracing (steps.map Step.actions) := by
  induction steps generalizing world with
  | nil => rfl
  | cons step steps ih =>
    rw [traces, observeAll_cons, step.observe_eq, List.map_cons, List.map_cons, saidByEach]
    exact congrArg (_ :: ·) (ih _)

/-- What a step writes is known from the actions before it. -/
theorem getElem?_saidByEach (before rest : List (Step σ)) (step : Step σ) (tracing : Tracing) :
    (saidByEach tracing ((before ++ step :: rest).map Step.actions))[before.length]? =
      some (if (tracing.after (actions before)).isOn then step.traceLines else []) := by
  induction before generalizing tracing with
  | nil =>
    rw [List.nil_append, List.map_cons, saidByEach, step.said_actions]
    rfl
  | cons first before ih =>
    have hactions : actions (first :: before) = first.actions ++ actions before := rfl
    have hon : (tracing.quiet.after (actions (first :: before))).isOn =
        (tracing.after (actions (first :: before))).isOn :=
      Tracing.isOn_congr (tracing.quiet_after _)
    rw [← hon, hactions, Tracing.after_append]
    exact ih _

theorem getElem?_traces (print : Report → StateM σ ρ) (before rest : List (Step σ))
    (step : Step σ) (world : World σ) :
    (traces print (before ++ step :: rest) world)[before.length]? =
      some (if (world.tracing.after (actions before)).isOn then step.traceLines else []) := by
  rw [traces_eq]
  exact getElem?_saidByEach before rest step world.tracing

theorem Step.actions_of_traceLines {step : Step σ} (h : step.traceLines ≠ []) :
    step.actions = step.traceLines.map .trace := by
  cases step with
  | trace text | call request => rfl
  | enable | assign value | ask | connect sink => exact absurd rfl h

/-- Lines that are written leave the switch on. -/
theorem Step.enabled_after {step : Step σ} {tracing : Tracing} (hon : tracing.isOn = true)
    (h : step.traceLines ≠ []) : (tracing.after step.actions).enabled = true := by
  obtain ⟨line, lines, hlines⟩ := List.exists_cons_of_ne_nil h
  have hfirst : ((Action.trace line).apply tracing).enabled = true := by
    rw [(Tracing.apply_of_asks rfl tracing).2.2, hon]
  rw [actions_of_traceLines h, hlines, List.map_cons, Tracing.after_cons]
  exact Tracing.enabled_after hfirst _

/-- With the switch on, everything is written. -/
theorem saidByEach_of_enabled (steps : List (Step σ)) {tracing : Tracing}
    (h : tracing.enabled = true) :
    saidByEach tracing (steps.map Step.actions) = steps.map Step.traceLines := by
  induction steps generalizing tracing with
  | nil => rfl
  | cons step steps ih =>
    rw [List.map_cons, saidByEach, step.said_actions, Tracing.isOn_of_enabled h, List.map_cons,
      ih (Tracing.enabled_after (show tracing.quiet.enabled = true from h) _)]
    rfl

/-- The cut lies before the first step that writes. -/
theorem exists_cut (steps : List (Step σ)) (tracing : Tracing) :
    ∃ cut, saidByEach tracing (steps.map Step.actions) =
      (steps.take cut).map (fun _ => []) ++ (steps.drop cut).map Step.traceLines := by
  induction steps generalizing tracing with
  | nil => exact ⟨0, rfl⟩
  | cons step steps ih =>
    rw [List.map_cons, saidByEach, step.said_actions]
    by_cases hwrites : tracing.isOn = true ∧ step.traceLines ≠ []
    · obtain ⟨hon, hlines⟩ := hwrites
      have hafter : (tracing.quiet.after step.actions).enabled = true :=
        step.enabled_after (tracing.isOn_quiet.trans hon) hlines
      refine ⟨0, ?_⟩
      rw [saidByEach_of_enabled steps hafter, hon]
      rfl
    · have hnone : (if tracing.isOn = true then step.traceLines else []) = [] := by
        simpa using hwrites
      obtain ⟨cut, hcut⟩ := ih (tracing.quiet.after step.actions)
      refine ⟨cut + 1, ?_⟩
      rw [hnone, hcut]
      rfl

/-- At the place of a step there are its lines if it lies behind the cut. -/
theorem getElem?_cut (before rest : List (Step σ)) (step : Step σ) (cut : Nat) :
    (((before ++ step :: rest).take cut).map (fun _ => []) ++
        ((before ++ step :: rest).drop cut).map Step.traceLines)[before.length]? =
      some (if cut ≤ before.length then step.traceLines else []) := by
  by_cases hcut : cut ≤ before.length
  · have hfirst : ((before.take cut).map fun _ => ([] : List String)).length = cut := by
      rw [List.length_map, List.length_take, Nat.min_eq_left hcut]
    rw [List.take_append_of_le_length hcut, List.drop_append_of_le_length hcut,
      List.getElem?_append_right (by rwa [hfirst]), hfirst]
    simp [hcut]
  · have hlt := Nat.lt_of_not_le hcut
    have hfirst : before.length < (((before ++ step :: rest).take cut).map
        fun _ => ([] : List String)).length := by
      simp
      omega
    rw [List.getElem?_append_left hfirst, List.getElem?_map, List.getElem?_take_of_lt hlt]
    simp [hcut]

/-- A step with lines lies behind the cut if it finds tracing on. -/
theorem cut_le_iff {before rest : List (Step σ)} {step : Step σ} {tracing : Tracing} {cut : Nat}
    (hcut : saidByEach tracing ((before ++ step :: rest).map Step.actions) =
      ((before ++ step :: rest).take cut).map (fun _ => []) ++
        ((before ++ step :: rest).drop cut).map Step.traceLines)
    (hlines : step.traceLines ≠ []) :
    cut ≤ before.length ↔ (tracing.after (actions before)).isOn = true := by
  -- both sides say when the lines are at the place of the step
  have hsame := getElem?_saidByEach before rest step tracing
  rw [hcut, getElem?_cut, Option.some.injEq] at hsame
  constructor
  · intro hbehind
    rw [if_pos hbehind] at hsame
    cases hon : (tracing.after (actions before)).isOn with
    | true => rfl
    | false => exact absurd (by simpa [hon] using hsame) hlines
  · intro hon
    rw [if_pos hon] at hsame
    by_cases hbehind : cut ≤ before.length
    · exact hbehind
    · exact absurd (by simpa [hbehind] using hsame) hlines

/-- What the error stream shows of a history, in a process that starts with the
variable as `setting`: nothing up to the cut, and everything from there on. -/
structure Severed (setting : Option String) (steps : List (Step σ)) (cut : Nat) : Prop where
  /-- It shows the same for other sinks, whatever they do when they are printed
  to, and for other calls with the same lines. -/
  divided : ∀ {τ ρ : Type} (print : Report → StateM τ ρ) (sink : τ) (others : List (Step τ)),
    others.map Step.actions = steps.map Step.actions →
      traces print others ⟨{ setting }, sink⟩ =
        (steps.take cut).map (fun _ => []) ++ (steps.drop cut).map Step.traceLines
  /-- A step with lines lies behind the cut just if a question that is asked
  after the actions before it is answered yes, -/
  switched : ∀ before step rest, steps = before ++ step :: rest → step.traceLines ≠ [] →
    (cut ≤ before.length ↔ (Tracing.after { setting } (actions before)).isOn = true)
  /-- and then it writes them. -/
  written : ∀ {ρ : Type} (print : Report → StateM σ ρ) (sink : σ) before step rest,
    steps = before ++ step :: rest →
      (traces print steps ⟨{ setting }, sink⟩)[before.length]? =
        some (if (Tracing.after { setting } (actions before)).isOn then step.traceLines else [])
  /-- So the trace of a call is empty or complete. -/
  whole : ∀ {ρ : Type} (print : Report → StateM σ ρ) (sink : σ) before request rest,
    steps = before ++ .call request :: rest →
      (traces print steps ⟨{ setting }, sink⟩)[before.length]? = some [] ∨
        (traces print steps ⟨{ setting }, sink⟩)[before.length]? = some request.traceLines
  /-- For a report that is a line for each marker, and six more. -/
  length_report : ∀ bound, (Call.report bound).traceLines.length = bound.toNat + 6 ∧
    (Call.print bound).traceLines = (Call.report bound).traceLines

/-- **There is one cut** in every history. -/
theorem exists_severed (setting : Option String) (steps : List (Step σ)) :
    ∃ cut, Severed setting steps cut := by
  obtain ⟨cut, hcut⟩ := exists_cut steps { setting }
  refine ⟨cut, ?_, ?_, ?_, ?_, fun bound => ⟨Traced.length_reportLines bound, rfl⟩⟩
  · intro τ ρ print sink others hsame
    rw [traces_eq, hsame, hcut]
  · rintro before step rest rfl hlines
    exact cut_le_iff hcut hlines
  · rintro ρ print sink before step rest rfl
    exact getElem?_traces print before rest step _
  · rintro ρ print sink before request rest rfl
    rw [getElem?_traces]
    split
    · exact .inr rfl
    · exact .inl rfl

end CountingLoops.History
