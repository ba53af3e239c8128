import CountingLoops.Fault

/-!
A failure is how a run explains to its caller that it could not print everything: whether nobody
reads any more, what the sink said, and an optional note on what was being done. Its text begins
with the label of its kind and ends with the note, if there is one. A failure may itself become
the message of a fault and from there of a further failure; `wrap` does both steps.
-/

namespace CountingLoops

/-- The two kinds of failure that callers tell apart. -/
inductive Failure.Kind where
  | brokenPipe
  | inputOutput
  deriving DecidableEq

/-- The words that a text of a failure begins with. -/
def Failure.Kind.label : Failure.Kind → String
  | .brokenPipe => "broken pipe"
  | .inputOutput => "I/O error"

/-- The kind of a failure that is made of a fault, which has a kind of its own. -/
def Failure.Kind.ofFault (kind : Fault.Kind) : Failure.Kind :=
  if kind = .brokenPipe then .brokenPipe else .inputOutput

theorem Failure.Kind.ofFault_eq_brokenPipe_iff (kind : Fault.Kind) :
    ofFault kind = .brokenPipe ↔ kind = .brokenPipe := by
  unfold ofFault
  split <;> simp [*]

/-- Why a run could not print everything. -/
structure Failure where
  kind : Failure.Kind
  message : String
  note : Option String
  deriving DecidableEq

namespace Failure

/-- A failure with a fault's message and without a note. It is a broken pipe if the fault is one. -/
def ofFault (fault : Fault) : Failure where
  kind := .ofFault fault.kind
  message := fault.message
  note := none

/-- The failure with `note` in the place of the note that it had. -/
def withNote (failure : Failure) (note : String) : Failure := { failure with note := some note }

/-- Whether the failure means that nobody reads any more. -/
def isBrokenPipe (failure : Failure) : Bool := failure.kind = .brokenPipe

/-- The line that a note adds to a text, which is `label` and the note after a newline. -/
def noteText (label : String) : Option String → String
  | none => ""
  | some note => "\n" ++ label ++ ": " ++ note

/-- The failure in plain text. -/
def text (failure : Failure) : String :=
  failure.kind.label ++ ": " ++ failure.message ++ noteText "note" failure.note

/-- The fault of the given kind that has a failure's text as its message. -/
def toFault (failure : Failure) (kind : Fault.Kind) : Fault := ⟨kind, failure.text⟩

/-- The failure made of a fault that was made of a failure. Its kind is that of the fault alone. -/
def wrap (failure : Failure) (kind : Fault.Kind) : Failure := ofFault (failure.toFault kind)

@[simp] theorem ofFault_message (fault : Fault) : (ofFault fault).message = fault.message := rfl

@[simp] theorem ofFault_note (fault : Fault) : (ofFault fault).note = none := rfl

theorem ofFault_kind_eq_brokenPipe_iff (fault : Fault) :
    (ofFault fault).kind = .brokenPipe ↔ fault.kind = .brokenPipe :=
  Kind.ofFault_eq_brokenPipe_iff fault.kind

@[simp] theorem withNote_kind (failure : Failure) (note : String) :
    (failure.withNote note).kind = failure.kind := rfl

@[simp] theorem withNote_note (failure : Failure) (note : String) :
    (failure.withNote note).note = some note := rfl

end Failure

end CountingLoops
