import CountingLoops.Proofs.Histories

/-!
# Unwinding

Two histories that differ only in steps of no interest. The journal of a
history keeps all that is seen of each step; an excerpt keeps the steps of
interest. If a relation of worlds outlives the steps that are left out, and
two related worlds look the same at the others, then histories with the same
steps of interest have the same excerpt. That is one induction, done here.
-/

namespace CountingLoops.History

variable {σ ρ α : Type}

/-! ## Journals -/

/-- A step of a history with all that is seen of it. -/
structure Entry (σ ρ : Type) where
  step : Step σ
  response : Response ρ
  /-- The diagnostic lines of the step. -/
  lines : List String
  /-- The sink after the step. -/
  sink : σ

/-- What is seen of a step that is done in `world`. -/
def Step.entry (print : Report → StateM σ ρ) (step : Step σ) (world : World σ) : Entry σ ρ :=
  let ((response, lines), next) := step.observe print world
  ⟨step, response, lines, next.sink⟩

/-- A history with all that is seen of it, step by step. -/
def journal (print : Report → StateM σ ρ) : List (Step σ) → World σ → List (Entry σ ρ)
  | [], _ => []
  | step :: steps, world =>
    step.entry print world :: journal print steps (step.observe print world).2

/-- The entries of the steps of interest. -/
def excerpt (keep : Step σ → Bool) (entries : List (Entry σ ρ)) : List (Entry σ ρ) :=
  entries.filter fun entry => keep entry.step

/-- Apart from the sinks the journal has what is observed of a history. -/
theorem map_journal (print : Report → StateM σ ρ) (steps : List (Step σ)) (world : World σ) :
    (journal print steps world).map (fun entry => (entry.response, entry.lines)) =
      (observeAll print steps world).1 := by
  induction steps generalizing world with
  | nil => rfl
  | cons step steps ih => exact congrArg (_ :: ·) (ih _)

theorem Step.entry_eq (print : Report → StateM σ ρ) (step : Step σ) (world : World σ) :
    step.entry print world =
      ⟨step, (step.respond print world).1, world.tracing.said step.actions,
        (step.respond print world).2⟩ := by
  rw [entry, step.observe_eq]

/-! ## Two histories -/

/-- A relation of worlds that hides all steps but those of interest. -/
structure Unwinding (print : Report → StateM σ ρ) (keep : Step σ → Bool) (view : Entry σ ρ → α)
    (Alike : World σ → World σ → Prop) : Prop where
  symm : ∀ {world other}, Alike world other → Alike other world
  trans : ∀ {world other third}, Alike world other → Alike other third → Alike world third
  /-- A step of no interest leads to a world that is still alike. -/
  hidden : ∀ {step world other}, keep step = false → Alike world other →
    Alike (step.observe print world).2 other
  /-- A step of interest looks the same in both worlds, and leaves them alike. -/
  shown : ∀ {step world other}, keep step = true → Alike world other →
    view (step.entry print world) = view (step.entry print other) ∧
      Alike (step.observe print world).2 (step.observe print other).2

namespace Unwinding

variable {print : Report → StateM σ ρ} {keep : Step σ → Bool} {view : Entry σ ρ → α}
  {Alike : World σ → World σ → Prop}

/-- Steps of no interest can as well be left out. -/
theorem excerpt_eq (h : Unwinding print keep view Alike) (steps : List (Step σ))
    {world other : World σ} (halike : Alike world other) :
    (excerpt keep (journal print steps world)).map view =
      (journal print (steps.filter keep) other).map view := by
  induction steps generalizing world other with
  | nil => rfl
  | cons step steps ih =>
    have hentry : (step.entry print world).step = step := rfl
    rw [journal, excerpt]
    cases hkeep : keep step with
    | false =>
      rw [List.filter_cons_of_neg (by simp [hentry, hkeep]),
        List.filter_cons_of_neg (by simp [hkeep])]
      exact ih (h.hidden hkeep halike)
    | true =>
      obtain ⟨hview, hnext⟩ := h.shown hkeep halike
      rw [List.filter_cons_of_pos (by simp [hentry, hkeep]),
        List.filter_cons_of_pos hkeep, journal, List.map_cons, List.map_cons, hview]
      exact congrArg (_ :: ·) (ih hnext)

/-- **Histories with the same steps of interest look the same** from worlds
that are alike. -/
theorem excerpt_congr (h : Unwinding print keep view Alike) {first second : List (Step σ)}
    (hsame : first.filter keep = second.filter keep) {world other : World σ}
    (halike : Alike world other) :
    (excerpt keep (journal print first world)).map view =
      (excerpt keep (journal print second other)).map view := by
  rw [h.excerpt_eq first halike, h.excerpt_eq second (h.trans (h.symm halike) halike), hsame]

end Unwinding

end CountingLoops.History
