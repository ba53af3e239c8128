import CountingLoops.Failure

/-!
# Failures within failures

A failure may be wrapped into a fault, the fault be taken for a new failure,
and so on, with notes added in between. Each wrap moves the whole text of the
failure into the message of the next one, so the labels pile up in front of
the first message while the notes line up behind it, in the opposite order.
Nothing that was not replaced is lost, and the outermost kind alone counts.
-/

namespace CountingLoops.Failure

/-- What may happen to a failure on its way. -/
inductive Step where
  /-- A note takes the place of the one before. -/
  | note (text : String)
  /-- The failure becomes a fault, and this a failure again. -/
  | wrap (kind : Fault.Kind)

namespace Step

def apply : Step → Failure → Failure
  | .note text, failure => failure.withNote text
  | .wrap kind, failure => failure.wrap kind

def note? : Step → Option String
  | .note text => some text
  | .wrap _ => none

/-- The kind of the fault that a wrap makes. -/
def wrapKind? : Step → Option Fault.Kind
  | .note _ => none
  | .wrap kind => some kind

end Step

/-- The failure after all steps. -/
def undergo (failure : Failure) : List Step → Failure
  | [] => failure
  | step :: steps => (step.apply failure).undergo steps

theorem undergo_append (failure : Failure) (first second : List Step) :
    failure.undergo (first ++ second) = (failure.undergo first).undergo second := by
  induction first generalizing failure with
  | nil => rfl
  | cons step first ih => exact ih (step.apply failure)

/-! ## Levels -/

/-- The life of a failure between two wraps: its kind, and its notes from the
oldest on. -/
structure Level where
  kind : Kind
  notes : List String

namespace Level

/-- The note that survives the later ones. -/
def note (level : Level) : Option String := level.notes.getLast?

/-- What a level puts before the text. -/
def label (level : Level) : String := level.kind.label ++ ": "

/-- What a level adds behind the text. -/
def line (level : Level) : String :=
  match level.note with
  | none => ""
  | some note => "\nnote: " ++ note

end Level

/-- Steps that begin in `level`, cut at the wraps. -/
def levelsFrom (level : Level) : List Step → List Level
  | [] => [level]
  | .note text :: steps => levelsFrom { level with notes := level.notes ++ [text] } steps
  | .wrap kind :: steps => level :: levelsFrom ⟨.ofFault kind, []⟩ steps

/-- The levels of a failure, the innermost first. It brings its own note; after
a wrap there is none. -/
def levels (failure : Failure) (steps : List Step) : List Level :=
  levelsFrom ⟨failure.kind, failure.note.toList⟩ steps

/-- There is a level for each wrap besides the first one. -/
theorem kinds_levelsFrom (level : Level) (steps : List Step) :
    (levelsFrom level steps).map Level.kind =
      level.kind :: (steps.filterMap Step.wrapKind?).map Kind.ofFault := by
  induction steps generalizing level with
  | nil => rfl
  | cons step steps ih =>
    cases step with
    | note text => exact ih _
    | wrap kind => exact congrArg (level.kind :: ·) (ih _)

/-- No note is in two levels, and none is outside of them. -/
theorem notes_levelsFrom (level : Level) (steps : List Step) :
    (levelsFrom level steps).flatMap Level.notes =
      level.notes ++ steps.filterMap Step.note? := by
  induction steps generalizing level with
  | nil => simp [levelsFrom]
  | cons step steps ih =>
    cases step with
    | note text =>
      rw [levelsFrom, ih, List.append_assoc]
      rfl
    | wrap kind =>
      rw [levelsFrom, List.flatMap_cons, ih]
      rfl

/-! ## One step -/

/-- The level holds the kind and the note of the failure. -/
structure Level.Describes (level : Level) (failure : Failure) : Prop where
  kind : failure.kind = level.kind
  note : failure.note = level.note

section

variable {level : Level} {failure : Failure}

theorem Level.Describes.text_eq (h : level.Describes failure) :
    failure.text = level.label ++ failure.message ++ level.line := by
  rw [Failure.text, h.kind, h.note, Level.label, Level.line]
  cases level.note <;> rfl

theorem Level.Describes.withNote (h : level.Describes failure) (text : String) :
    Level.Describes { level with notes := level.notes ++ [text] } (failure.withNote text) :=
  ⟨h.kind, by rw [withNote_note, Level.note, List.getLast?_concat]⟩

end

theorem describes_wrap (failure : Failure) (kind : Fault.Kind) :
    Level.Describes ⟨.ofFault kind, []⟩ (failure.wrap kind) :=
  ⟨rfl, rfl⟩

theorem describes_self (failure : Failure) :
    Level.Describes ⟨failure.kind, failure.note.toList⟩ failure := by
  refine ⟨rfl, ?_⟩
  rw [Level.note]
  cases failure.note <;> rfl

theorem wrap_message (failure : Failure) (kind : Fault.Kind) :
    (failure.wrap kind).message = failure.text := rfl

/-! ## All steps -/

section

variable {level : Level} {failure : Failure}

/-- The outermost level describes what a failure has become. -/
theorem Level.Describes.undergo (h : level.Describes failure) (steps : List Step) :
    ∃ last, (levelsFrom level steps).getLast? = some last ∧
      last.Describes (failure.undergo steps) := by
  induction steps generalizing level failure with
  | nil => exact ⟨level, rfl, h⟩
  | cons step steps ih =>
    cases step with
    | note text => exact ih (h.withNote text)
    | wrap kind =>
      obtain ⟨last, hlast, hdescribes⟩ := ih (describes_wrap failure kind)
      refine ⟨last, ?_, hdescribes⟩
      rw [levelsFrom, List.getLast?_cons, hlast]
      rfl

/-- A wrap puts what came so far between the label and the note of the next
level. -/
theorem Level.Describes.text_undergo (h : level.Describes failure) (steps : List Step) :
    (failure.undergo steps).text =
      String.join ((levelsFrom level steps).reverse.map Level.label) ++ failure.message ++
        String.join ((levelsFrom level steps).map Level.line) := by
  induction steps generalizing level failure with
  | nil => simpa [Failure.undergo, levelsFrom] using h.text_eq
  | cons step steps ih =>
    cases step with
    | note text => exact ih (h.withNote text)
    | wrap kind =>
      have hrest := ih (describes_wrap failure kind)
      rw [wrap_message, h.text_eq] at hrest
      simpa [Failure.undergo, Step.apply, levelsFrom, String.join_append, String.append_assoc]
        using hrest

/-- The last wrap decides, whatever the kinds within. -/
theorem Level.Describes.kind_undergo (h : level.Describes failure) (steps : List Step) :
    (failure.undergo steps).kind = .brokenPipe ↔
      match (steps.filterMap Step.wrapKind?).getLast? with
      | none => failure.kind = .brokenPipe
      | some kind => kind = .brokenPipe := by
  obtain ⟨last, hlast, hdescribes⟩ := h.undergo steps
  have hkind := congrArg List.getLast? (kinds_levelsFrom level steps)
  rw [List.getLast?_map, hlast, List.getLast?_cons, List.getLast?_map, ← h.kind] at hkind
  rw [hdescribes.kind, Option.some.inj hkind]
  cases (steps.filterMap Step.wrapKind?).getLast? with
  | none => exact Iff.rfl
  | some kind => exact Kind.ofFault_eq_brokenPipe_iff kind

end

/-- What is left of a failure and of the steps that it took. -/
structure Layered (failure : Failure) (steps : List Step) : Prop where
  /-- The levels are cut at the wraps, -/
  kinds : (failure.levels steps).map Level.kind =
    failure.kind :: (steps.filterMap Step.wrapKind?).map Kind.ofFault
  /-- and share out the notes. -/
  notes : (failure.levels steps).flatMap Level.notes =
    failure.note.toList ++ steps.filterMap Step.note?
  /-- The labels come from the outermost level inwards, then the message, then
  the surviving notes outwards. -/
  text : (failure.undergo steps).text =
    String.join ((failure.levels steps).reverse.map Level.label) ++ failure.message ++
      String.join ((failure.levels steps).map Level.line)
  /-- It is a broken pipe if the last wrap says so or, without any wrap, if it
  was one at first. -/
  kind : (failure.undergo steps).kind = .brokenPipe ↔
    match (steps.filterMap Step.wrapKind?).getLast? with
    | none => failure.kind = .brokenPipe
    | some kind => kind = .brokenPipe
  /-- The note is that of the outermost level. -/
  note : ∃ last, (failure.levels steps).getLast? = some last ∧
    (failure.undergo steps).note = last.note

/-- **Wrapping loses nothing**, whatever the steps. -/
theorem layered_undergo (failure : Failure) (steps : List Step) : Layered failure steps where
  kinds := kinds_levelsFrom _ steps
  notes := notes_levelsFrom _ steps
  text := failure.describes_self.text_undergo steps
  kind := failure.describes_self.kind_undergo steps
  note := by
    obtain ⟨last, hlast, hdescribes⟩ := failure.describes_self.undergo steps
    exact ⟨last, hlast, hdescribes.note⟩

/-- A broken pipe inside of another fault is none, and the labels and notes of
all levels are in the text. -/
example :
    let failure : Failure := ⟨.inputOutput, "disk full", some "a"⟩
    let outer := failure.undergo [.note "b", .wrap .brokenPipe, .wrap .other, .note "c"]
    outer.text = "I/O error: broken pipe: I/O error: disk full\nnote: b\nnote: c" ∧
      outer.kind = .inputOutput := by
  decide

end CountingLoops.Failure
