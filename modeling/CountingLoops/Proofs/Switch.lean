import CountingLoops.Proofs.Trace

/-!
# The switch of a process

What a process does to its tracing is a list of actions, each of them an
application of one operation of `Tracing`. `Tracing.Follows` says what the
state has to do with the actions before it: the environment was looked at if a
question was asked, and the switch is on if it was put on or if the variable
had a value at the first question. One action preserves this, so it holds
after any list of them, and a question is answered by a rule that speaks of
the past only.
-/

namespace CountingLoops.Tracing

/-! ## Actions -/

/-- What is done to tracing at one moment. -/
inductive Action where
  | enable
  | assign (value : Option String)
  | ask
  | trace (line : String)

namespace Action

/-- The state of tracing after the action. -/
def apply : Action → Tracing → Tracing
  | .enable, tracing => (Tracing.enable tracing).2
  | .assign value, tracing => (Tracing.assign value tracing).2
  | .ask, tracing => (Tracing.isEnabled tracing).2
  | .trace line, tracing => (Tracing.trace line tracing).2

/-- The question whether tracing is on is part of the action. -/
def asks : Action → Bool
  | .enable | .assign _ => false
  | .ask | .trace _ => true

/-- The value that the variable gets by the action, if it is changed. -/
def assigned? : Action → Option (Option String)
  | .assign value => some value
  | .enable | .ask | .trace _ => none

/-- What does not ask only sets something, so the proofs below have three cases. -/
theorem asks_or (action : Action) :
    action.asks = true ∨ action = .enable ∨ ∃ value, action = .assign value := by
  cases action with
  | enable => exact .inr (.inl rfl)
  | assign value => exact .inr (.inr ⟨value, rfl⟩)
  | ask | trace line => exact .inl rfl

end Action

/-- The state of tracing after actions in order. -/
def after (tracing : Tracing) (actions : List Action) : Tracing :=
  actions.foldl (fun state action => action.apply state) tracing

section

variable (tracing : Tracing)

@[simp] theorem after_nil : tracing.after [] = tracing := rfl

@[simp] theorem after_cons (action : Action) (actions : List Action) :
    tracing.after (action :: actions) = (action.apply tracing).after actions := rfl

theorem after_append (first second : List Action) :
    tracing.after (first ++ second) = (tracing.after first).after second :=
  List.foldl_append

theorem after_map_trace (lines : List String) :
    tracing.after (lines.map .trace) = (traceAll lines tracing).2 := by
  induction lines generalizing tracing with
  | nil => rfl
  | cons line lines ih =>
    rw [List.map_cons, after_cons, traceAll_cons]
    exact ih _

/-- A line is written by an action if the question of the action is answered yes. -/
theorem apply_trace (line : String) :
    (Action.trace line).apply tracing =
      if tracing.isOn then { tracing.consult with written := tracing.written.push line }
      else tracing.consult :=
  congrArg Prod.snd (trace_eq line tracing)

end

/-! ## The rule -/

/-- The value of the variable after actions: the last one that it got. -/
def settingAfter (initial : Option String) (past : List Action) : Option String :=
  (past.filterMap Action.assigned?).getLastD initial

/-- The actions before the first question. -/
def preamble (past : List Action) : List Action := past.takeWhile fun action => !action.asks

/-- A question after `past` is due the answer yes if tracing was put on before,
or if the variable had a value at the first question. -/
def Due (initial : Option String) (past : List Action) : Prop :=
  .enable ∈ past ∨ (settingAfter initial (preamble past)).isSome = true

theorem preamble_append_of_silent {past : List Action} (h : past.any Action.asks = false)
    (more : List Action) : preamble (past ++ more) = past ++ preamble more := by
  apply List.takeWhile_append_of_pos
  intro action hmem
  simpa using List.any_eq_false.mp h action hmem

/-- Without a question everything is before the first one. -/
theorem preamble_of_silent {past : List Action} (h : past.any Action.asks = false) :
    preamble past = past := by
  simpa [preamble] using preamble_append_of_silent h []

/-- What comes after a question does not belong to the preamble. -/
theorem preamble_append {past : List Action} (h : past.any Action.asks = true)
    (more : List Action) : preamble (past ++ more) = preamble past := by
  induction past with
  | nil => cases h
  | cons action past ih =>
    rw [preamble, preamble, List.cons_append, List.takeWhile_cons, List.takeWhile_cons]
    cases haction : action.asks with
    | true => rfl
    | false => exact congrArg (action :: ·) (ih (by simpa [haction] using h))

/-- A question ends the preamble, whether it is the first one or not. -/
theorem preamble_question (past : List Action) {question : Action} (h : question.asks = true)
    (more : List Action) : preamble (past ++ question :: more) = preamble past := by
  cases hpast : past.any Action.asks with
  | true => exact preamble_append hpast _
  | false =>
    rw [preamble_append_of_silent hpast, preamble_of_silent hpast, preamble]
    simp [h]

/-! ## The state and its past -/

/-- What the past tells of the state, in a process that started with the
variable as `initial`. -/
structure Follows (initial : Option String) (past : List Action) (tracing : Tracing) : Prop where
  setting : tracing.setting = settingAfter initial past
  /-- The environment was looked at if there was a question. -/
  consulted : tracing.consulted = past.any Action.asks
  enabled : tracing.enabled = true ↔ .enable ∈ past ∨
    past.any Action.asks = true ∧ (settingAfter initial (preamble past)).isSome = true

section

variable {initial : Option String} {past : List Action} {tracing : Tracing}

/-- The answer to a question that is asked now. -/
theorem Follows.isOn_iff (h : Follows initial past tracing) :
    tracing.isOn = true ↔ Due initial past := by
  cases hpast : past.any Action.asks with
  | true =>
    rw [isOn_of_consulted (h.consulted.trans hpast), h.enabled, hpast, Due]
    simp
  | false =>
    -- the question is the first one, so it finds the present value of the variable
    have hconsulted : tracing.consulted = false := h.consulted.trans hpast
    have henabled := h.enabled
    rw [hpast] at henabled
    rw [Due, preamble_of_silent hpast, ← h.setting, isOn_eq, consult, hconsulted]
    simpa using or_congr_left (by simpa using henabled)

/-- What a question leaves behind, be it open or part of a line. -/
theorem apply_of_asks {question : Action} (h : question.asks = true) (tracing : Tracing) :
    (question.apply tracing).setting = tracing.setting ∧
      (question.apply tracing).consulted = true ∧
      (question.apply tracing).enabled = tracing.isOn := by
  have hconsult : tracing.consult.setting = tracing.setting := by
    unfold consult
    split <;> rfl
  cases question with
  | enable => cases h
  | assign value => cases h
  | ask => exact ⟨hconsult, tracing.consulted_consult, rfl⟩
  | trace line =>
    rw [apply_trace]
    split
    · exact ⟨hconsult, tracing.consulted_consult, rfl⟩
    · exact ⟨hconsult, tracing.consulted_consult, rfl⟩

theorem settingAfter_append_of_not_assigned {action : Action} (h : action.assigned? = none)
    (initial : Option String) (past : List Action) :
    settingAfter initial (past ++ [action]) = settingAfter initial past := by
  simp [settingAfter, List.filterMap_append, h]

theorem any_append_of_not_asks {action : Action} (h : action.asks = false) (past : List Action) :
    (past ++ [action]).any Action.asks = past.any Action.asks := by
  simp [h]

theorem Follows.apply_of_asks (h : Follows initial past tracing) {question : Action}
    (hasks : question.asks = true) :
    Follows initial (past ++ [question]) (question.apply tracing) := by
  obtain ⟨hsetting, hconsulted, henabled⟩ := Tracing.apply_of_asks hasks tracing
  have hassigned : question.assigned? = none := by cases question <;> trivial
  refine ⟨?_, ?_, ?_⟩
  · rw [hsetting, h.setting, settingAfter_append_of_not_assigned hassigned]
  · simp [hconsulted, hasks]
  · have hne : Action.enable ≠ question := by
      rintro rfl
      cases hasks
    rw [henabled, h.isOn_iff, Due, preamble_question past hasks]
    simp [hasks, hne]

/-- **One action**: the past and the state grow together. -/
theorem Follows.apply (h : Follows initial past tracing) (action : Action) :
    Follows initial (past ++ [action]) (action.apply tracing) := by
  rcases action.asks_or with hasks | rfl | ⟨value, rfl⟩
  · exact h.apply_of_asks hasks
  · refine ⟨?_, ?_, ?_⟩
    · rw [settingAfter_append_of_not_assigned rfl]
      exact h.setting
    · rw [any_append_of_not_asks rfl]
      exact h.consulted
    · simp [Action.apply, Tracing.enable]
  · refine ⟨?_, ?_, ?_⟩
    · simp [settingAfter, Action.apply, Tracing.assign, Action.assigned?]
    · rw [any_append_of_not_asks rfl]
      exact h.consulted
    · have hmem : Action.enable ∈ past ++ [.assign value] ↔ .enable ∈ past := by simp
      rw [hmem, any_append_of_not_asks rfl]
      -- the new value counts only if there was no question yet
      exact h.enabled.trans (or_congr_right (and_congr_right fun hpast => by
        rw [preamble_append hpast]))

theorem Follows.after (h : Follows initial past tracing) (more : List Action) :
    Follows initial (past ++ more) (tracing.after more) := by
  induction more generalizing past tracing with
  | nil => simpa using h
  | cons action more ih => simpa using ih (h.apply action)

end

/-- **The state after any actions** of a process follows from them. -/
theorem follows_after (setting : Option String) (past : List Action) :
    Follows setting past (after { setting } past) := by
  have hstart : Follows setting [] { setting } := ⟨rfl, rfl, by simp⟩
  exact hstart.after past

/-- An answer that was due stays due after a question. -/
theorem Due.append {setting : Option String} {past : List Action} (h : Due setting past)
    {question : Action} (hasks : question.asks = true) (more : List Action) :
    Due setting (past ++ question :: more) := by
  rw [Due, preamble_question past hasks]
  exact h.imp_left (List.mem_append_left _)

/-! ## The switch stays on -/

section

variable {tracing : Tracing}

theorem isOn_of_enabled (h : tracing.enabled = true) : tracing.isOn = true := by
  rw [isOn_eq, consult]
  split <;> simp [h]

theorem enabled_apply (h : tracing.enabled = true) (action : Action) :
    (action.apply tracing).enabled = true := by
  rcases action.asks_or with hasks | rfl | ⟨value, rfl⟩
  · rw [(apply_of_asks hasks tracing).2.2, isOn_of_enabled h]
  · rfl
  · exact h

theorem enabled_after (h : tracing.enabled = true) (actions : List Action) :
    (tracing.after actions).enabled = true := by
  induction actions generalizing tracing with
  | nil => exact h
  | cons action actions ih => exact ih (enabled_apply h action)

end

/-! ## After the first question -/

/-- A question that is asked now looks at the environment. -/
def looks (tracing : Tracing) : Bool := !tracing.consulted

/-- Two states in which the environment plays no part any more, and which give
the same answers. -/
structure Settled (first second : Tracing) : Prop where
  first_looks : first.looks = false
  second_looks : second.looks = false
  enabled : first.enabled = second.enabled

section

variable {first second : Tracing}

theorem isOn_of_not_looks {tracing : Tracing} (h : tracing.looks = false) :
    tracing.isOn = tracing.enabled :=
  isOn_of_consulted (by simpa [looks] using h)

theorem Settled.symm (h : Settled first second) : Settled second first :=
  ⟨h.second_looks, h.first_looks, h.enabled.symm⟩

theorem Settled.trans (h : Settled first second) {third : Tracing} (h' : Settled second third) :
    Settled first third :=
  ⟨h.first_looks, h'.second_looks, h.enabled.trans h'.enabled⟩

theorem Settled.isOn (h : Settled first second) : first.isOn = second.isOn := by
  rw [isOn_of_not_looks h.first_looks, isOn_of_not_looks h.second_looks, h.enabled]

theorem looks_apply {tracing : Tracing} (h : tracing.looks = false) (action : Action) :
    (action.apply tracing).looks = false := by
  rcases action.asks_or with hasks | rfl | ⟨value, rfl⟩
  · simp [looks, (apply_of_asks hasks tracing).2.1]
  · exact h
  · exact h

theorem Settled.apply (h : Settled first second) (action : Action) :
    Settled (action.apply first) (action.apply second) := by
  refine ⟨looks_apply h.first_looks action, looks_apply h.second_looks action, ?_⟩
  rcases action.asks_or with hasks | rfl | ⟨value, rfl⟩
  · rw [(apply_of_asks hasks first).2.2, (apply_of_asks hasks second).2.2, h.isOn]
  · rfl
  · exact h.enabled

theorem Settled.after (h : Settled first second) (actions : List Action) :
    Settled (first.after actions) (second.after actions) := by
  induction actions generalizing first second with
  | nil => exact h
  | cons action actions ih => exact ih (h.apply action)

end

/-! ## What actions write -/

/-- The lines that actions write. -/
def said (tracing : Tracing) (actions : List Action) : List String :=
  (tracing.quiet.after actions).written.toList

section

variable (tracing : Tracing)

theorem consult_quiet : tracing.quiet.consult = tracing.consult.quiet := by
  cases h : tracing.consulted <;> simp [consult, quiet, h]

theorem isOn_quiet : tracing.quiet.isOn = tracing.isOn := by
  rw [isOn_eq, consult_quiet]
  rfl

/-- Lines that were written before have no bearing on an action. -/
theorem quiet_apply (action : Action) :
    (action.apply tracing.quiet).quiet = (action.apply tracing).quiet := by
  have hconsult : tracing.quiet.consult.quiet = tracing.consult.quiet := by
    rw [consult_quiet]
    rfl
  cases action with
  | enable => rfl
  | assign value => rfl
  | ask => exact hconsult
  | trace line =>
    rw [apply_trace, apply_trace, isOn_quiet]
    split
    · exact hconsult
    · exact hconsult

theorem quiet_after (actions : List Action) :
    (tracing.quiet.after actions).quiet = (tracing.after actions).quiet := by
  induction actions generalizing tracing with
  | nil => rfl
  | cons action actions ih =>
    rw [after_cons, after_cons, ← ih, quiet_apply, ih]

theorem isOn_congr {tracing other : Tracing} (h : tracing.quiet = other.quiet) :
    tracing.isOn = other.isOn := by
  rw [← isOn_quiet, h, isOn_quiet]

theorem Settled.quiet {first second : Tracing} (h : Settled first second) :
    Settled first.quiet second.quiet :=
  ⟨h.first_looks, h.second_looks, h.enabled⟩

/-- Lines in a row are written or left out together. -/
theorem said_map_trace (lines : List String) :
    tracing.said (lines.map .trace) = if tracing.isOn then lines else [] := by
  rw [said, after_map_trace, written_traceAll, isOn_quiet]
  rfl

end

end CountingLoops.Tracing
