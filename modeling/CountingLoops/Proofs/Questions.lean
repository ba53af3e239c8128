import CountingLoops.Proofs.Unwinding

/-!
# Questions of a history

Every open question and every diagnostic line of a history asks whether
tracing is on, also those lines that belong to one call. `Ruled` says what all
of these questions are answered: by a rule that looks at the actions before,
and at the environment only as it was at the first question.
-/

namespace CountingLoops.History

open Tracing (Action Settled)

variable {σ ρ : Type}

/-- The step changes the variable of the environment, or takes it away. -/
def Step.isAssignment : Step σ → Bool
  | .assign _ => true
  | .enable | .ask | .trace _ | .connect _ | .call _ => false

/-- After a question, worlds in which the switch and the sink are the same
cannot be told apart by what is not a change of the variable. -/
theorem unwinding_settled (print : Report → StateM σ ρ) :
    Unwinding print (fun step => !step.isAssignment) id
      fun world other => Settled world.tracing other.tracing ∧ world.sink = other.sink where
  symm := fun ⟨hsettled, hsink⟩ => ⟨hsettled.symm, hsink.symm⟩
  trans := fun ⟨hfirst, hsink⟩ ⟨hsecond, hsink'⟩ => ⟨hfirst.trans hsecond, hsink.trans hsink'⟩
  hidden := by
    rintro step world other hkeep ⟨⟨hfirst, hsecond, henabled⟩, hsink⟩
    rw [step.observe_eq]
    cases step with
    | assign value => exact ⟨⟨hfirst, hsecond, henabled⟩, hsink⟩
    | enable | ask | trace text | connect sink | call request => cases hkeep
  shown := by
    rintro step world other - ⟨hsettled, hsink⟩
    rw [step.entry_eq, step.entry_eq, step.observe_eq, step.observe_eq, step.said_actions,
      step.said_actions, hsettled.isOn, step.respond_congr print hsink fun _ => hsettled.isOn]
    exact ⟨rfl, hsettled.quiet.after _, rfl⟩

/-- How the questions of a history are answered that starts with the variable
as `setting`. A question is an action that asks, whatever step it belongs to. -/
structure Ruled (print : Report → StateM σ ρ) (setting : Option String) (sink : σ)
    (steps : List (Step σ)) : Prop where
  /-- The steps show the answers. Each of them begins where the actions before
  it left tracing; it writes its lines if a question asked there is answered
  yes, and responds to an open question with the answer. -/
  shown : ∀ before step rest, steps = before ++ step :: rest →
    let tracing := Tracing.after { setting } (actions before)
    ∃ response, (observeAll print steps ⟨{ setting }, sink⟩).1[before.length]? =
        some (response, if tracing.isOn then step.traceLines else []) ∧
      (step = .ask → response = .enabled tracing.isOn)
  /-- The answer is yes if tracing was put on before, or if the variable had a
  value at the first question of the history. -/
  answered : ∀ past question rest, actions steps = past ++ question :: rest →
    question.asks = true → ((Tracing.after { setting } past).isOn = true ↔
      .enable ∈ past ∨ (Tracing.settingAfter setting (Tracing.preamble past)).isSome = true)
  /-- The environment is looked at for the first question and for no other. To
  put tracing on before does not count as a look. -/
  looked : ∀ past question rest, actions steps = past ++ question :: rest →
    question.asks = true → ((Tracing.after { setting } past).looks = true ↔
      ∀ earlier ∈ past, earlier.asks = false)
  /-- After a question, other changes of the variable, at other places, lead to
  a history that is the same but for these changes. -/
  fixed : ∀ before rest others, steps = before ++ rest →
    (∃ question ∈ actions before, question.asks = true) →
    others.filter (!·.isAssignment) = rest.filter (!·.isAssignment) →
    let world := (observeAll print before ⟨{ setting }, sink⟩).2
    excerpt (!·.isAssignment) (journal print others world) =
      excerpt (!·.isAssignment) (journal print rest world)
  /-- After an answer yes every answer is yes. -/
  lasting : ∀ past question between later rest,
    actions steps = past ++ question :: (between ++ later :: rest) →
    question.asks = true → later.asks = true → (Tracing.after { setting } past).isOn = true →
    (Tracing.after { setting } (past ++ question :: between)).isOn = true

theorem isOn_after_iff (setting : Option String) (past : List Action) :
    (Tracing.after { setting } past).isOn = true ↔ Tracing.Due setting past :=
  (Tracing.follows_after setting past).isOn_iff

theorem looks_after_iff (setting : Option String) (past : List Action) :
    (Tracing.after { setting } past).looks = true ↔ ∀ earlier ∈ past, earlier.asks = false := by
  rw [Tracing.looks, (Tracing.follows_after setting past).consulted]
  simp

section

variable (print : Report → StateM σ ρ) (setting : Option String) (sink : σ)

/-- A step finds tracing as the actions before it left it. -/
theorem shown_observeAll (before rest : List (Step σ)) (step : Step σ) :
    let tracing := Tracing.after { setting } (actions before)
    ∃ response,
      (observeAll print (before ++ step :: rest) ⟨{ setting }, sink⟩).1[before.length]? =
        some (response, if tracing.isOn then step.traceLines else []) ∧
      (step = .ask → response = .enabled tracing.isOn) := by
  intro tracing
  have hquiet : (observeAll print before ⟨{ setting }, sink⟩).2.tracing.quiet = tracing.quiet :=
    quiet_observeAll print before ⟨{ setting }, sink⟩
  have hon := Tracing.isOn_congr hquiet
  rw [observeAll_at, Step.observe_eq, Step.said_actions, hon]
  refine ⟨_, rfl, ?_⟩
  rintro rfl
  exact congrArg Response.enabled hon

theorem looks_observeAll {before : List (Step σ)}
    (h : ∃ question ∈ actions before, question.asks = true) :
    (observeAll print before ⟨{ setting }, sink⟩).2.tracing.looks = false := by
  obtain ⟨question, hmem, hasks⟩ := h
  have hlooks : (Tracing.after { setting } (actions before)).looks = false := by
    rw [Bool.eq_false_iff, ne_eq, looks_after_iff]
    intro hnone
    rw [hnone question hmem] at hasks
    cases hasks
  show (observeAll print before ⟨{ setting }, sink⟩).2.tracing.quiet.looks = false
  rw [quiet_observeAll]
  exact hlooks

end

/-- **All questions of a history follow the rule.** -/
theorem ruled_history (print : Report → StateM σ ρ) (setting : Option String) (sink : σ)
    (steps : List (Step σ)) : Ruled print setting sink steps where
  shown := by
    rintro before step rest rfl
    exact shown_observeAll print setting sink before rest step
  answered := fun past _ _ _ _ => isOn_after_iff setting past
  looked := fun past _ _ _ _ => looks_after_iff setting past
  fixed := by
    intro before rest others _ hquestion hsame world
    have hlooks := looks_observeAll print setting sink hquestion
    have halike : Settled world.tracing world.tracing ∧ world.sink = world.sink :=
      ⟨⟨hlooks, hlooks, rfl⟩, rfl⟩
    have hexcerpt := (unwinding_settled print).excerpt_congr hsame halike
    simpa using hexcerpt
  lasting := by
    intro past question between _ _ _ hasks _ hon
    rw [isOn_after_iff] at hon ⊢
    exact hon.append hasks between

/-- A counted loop that never runs its body asks nothing, so the variable can
still be set after it. -/
example :
    let steps : List (Step Unit) := [.call (.markers 0), .assign (some "")]
    (Tracing.after { setting := none } (actions steps)).isOn = true := by
  decide

/-- After any other loop that is too late. -/
example :
    let steps : List (Step Unit) := [.call (.values 0), .assign (some "")]
    (Tracing.after { setting := none } (actions steps)).isOn = false := by
  decide

end CountingLoops.History
