import CountingLoops.Session
import CountingLoops.Proofs.Segments
import CountingLoops.Proofs.Wrapping

/-!
# Sessions

A session treats its sink and its failure by the rules that they have without
one. To the sink its commands are operations of `Budgeted.performAll`, each
printing with the bound of its moment; to the failure they are steps of
`Failure.undergo`, until a command raises another one. Both are shown of one
command first.
-/

namespace CountingLoops.Session

open Budgeted (Operation Run runOf)

/-! ## What commands are -/

/-- The bound after a command. -/
def Command.boundAfter (bound : UInt16) : Command → UInt16
  | .reset => standardBound
  | .configure bound => bound
  | .connect _ | .refill _ | .print | .report | .lines | .fail _ | .note _ | .wrap _
  | .noteCopy _ | .display _ => bound

/-- The sink is not replaced, and its chunks stay of at least one byte. -/
def Command.KeepsSink : Command → Prop
  | .connect _ => False
  | .refill settings => ∀ chunk ∈ settings.chunk, chunk.isSpent = false
  | .reset | .configure _ | .print | .report | .lines | .fail _ | .note _ | .wrap _
  | .noteCopy _ | .display _ => True

/-- What a command is to the sink while `bound` is the bound. -/
def Command.operation? (bound : UInt16) : Command → Option Operation
  | .print => some (.print bound)
  | .refill settings =>
    if h : ∀ chunk ∈ settings.chunk, chunk.isSpent = false then
      some (.adjust (.ofSettings settings h))
    else none
  | .reset | .configure _ | .connect _ | .report | .lines | .fail _ | .note _ | .wrap _
  | .noteCopy _ | .display _ => none

/-- What commands are to the sink, from the bound at their start on. -/
def operations (bound : UInt16) : List Command → List Operation
  | [] => []
  | command :: commands =>
    (command.operation? bound).toList ++ operations (command.boundAfter bound) commands

/-- What a command is to the last failure. -/
def Command.step? : Command → Option Failure.Step
  | .note text => some (.note text)
  | .wrap kind => some (.wrap kind)
  | .reset | .configure _ | .connect _ | .refill _ | .print | .report | .lines | .fail _
  | .noteCopy _ | .display _ => none

/-- The failure of a run that did not succeed. -/
def failure? (run : Run) : Option Failure :=
  match run.result with
  | .ok () => none
  | .error failure => some failure

/-- The failure that takes the place of the last one, if the command brings
one about. -/
def Command.raised? (session : Session) : Command → Option Failure
  | .fail failure => some failure
  | .print => failure? (runOf session.bound session.sink)
  | .reset | .configure _ | .connect _ | .refill _ | .report | .lines | .note _ | .wrap _
  | .noteCopy _ | .display _ => none

/-- The answer to a printing that ran like this. -/
def Answer.ofRun (run : Run) : Answer := .printed run.result run.after.output run.after.flushed

def Answer.isPrinted : Answer → Bool
  | .printed _ _ _ => true
  | .done | .configured _ | .report _ _ | .lines _ | .failure _ | .copied _ _ | .text _ => false

/-! ## One command -/

section

variable (command : Command) (session : Session)

theorem bound_perform :
    (perform command session).2.bound = command.boundAfter session.bound := by
  cases command <;> rfl

/-- A command does its operation to the sink, and answers with the run if this
is a printing. -/
theorem sink_perform (h : command.KeepsSink) :
    let run := Budgeted.performAll (command.operation? session.bound).toList session.sink
    (perform command session).2.sink = run.2 ∧
      [(perform command session).1].filter Answer.isPrinted = run.1.map Answer.ofRun := by
  cases command with
  | connect settings => cases h
  | refill settings =>
    have hkeeps : ∀ chunk ∈ settings.chunk, chunk.isSpent = false := h
    rw [Command.operation?, dif_pos hkeeps]
    exact ⟨rfl, rfl⟩
  | _ => exact ⟨rfl, rfl⟩

/-- A failure that is raised replaces the last one; otherwise this one takes
the step of the command. -/
theorem failure_perform :
    (perform command session).2.failure = (command.raised? session).or
      (session.failure.map fun failure => failure.undergo command.step?.toList) := by
  cases command with
  | print =>
    rw [Command.raised?, failure?, runOf]
    cases hprint : Budgeted.print (.ofBound session.bound) session.sink with
    | mk result sink =>
      cases result with
      | ok => simp [perform, hprint, Command.step?, Failure.undergo]
      | error failure => simp [perform, hprint]
  | _ => simp [perform, replaceFailure, Command.raised?, Command.step?, Failure.undergo,
      Failure.Step.apply]

end

/-! ## Many commands -/

section

variable (session : Session)

theorem performAll_nil : performAll [] session = ([], session) := rfl

theorem performAll_cons (command : Command) (commands : List Command) :
    performAll (command :: commands) session =
      ((perform command session).1 :: (performAll commands (perform command session).2).1,
        (performAll commands (perform command session).2).2) := rfl

end

/-- **The sink of a session** does what the operations do to it, and the
answers to the printings are their runs. Another sink begins where one is
connected. -/
theorem sink_performAll (commands : List Command) (session : Session)
    (h : ∀ command ∈ commands, command.KeepsSink) :
    let run := Budgeted.performAll (operations session.bound commands) session.sink
    (performAll commands session).2.sink = run.2 ∧
      (performAll commands session).1.filter Answer.isPrinted = run.1.map Answer.ofRun := by
  induction commands generalizing session with
  | nil => exact ⟨rfl, rfl⟩
  | cons command commands ih =>
    obtain ⟨hsink, hanswer⟩ := sink_perform command session (h command (List.mem_cons_self ..))
    obtain ⟨hrest, hanswers⟩ := ih (perform command session).2 fun other hmem =>
      h other (List.mem_cons_of_mem _ hmem)
    rw [bound_perform, hsink] at hrest hanswers
    rw [operations, Budgeted.performAll_append, performAll_cons]
    refine ⟨hrest, ?_⟩
    rw [← List.singleton_append, List.filter_append, hanswer, hanswers, List.map_append]

/-- No command raises a failure when its turn comes. -/
def Undisturbed (session : Session) (commands : List Command) : Prop :=
  ∀ before command rest, commands = before ++ command :: rest →
    command.raised? (performAll before session).2 = none

theorem Undisturbed.head {session : Session} {command : Command} {commands : List Command}
    (h : Undisturbed session (command :: commands)) : command.raised? session = none :=
  h [] command commands rfl

theorem Undisturbed.tail {session : Session} {command : Command} {commands : List Command}
    (h : Undisturbed session (command :: commands)) :
    Undisturbed (perform command session).2 commands := by
  intro before other rest hcommands
  exact h (command :: before) other rest (congrArg (command :: ·) hcommands)

/-- **The failure of a session** takes the steps of the commands as long as
none of them raises another one. -/
theorem failure_performAll (commands : List Command) (session : Session)
    (h : Undisturbed session commands) :
    (performAll commands session).2.failure = session.failure.map fun failure =>
      failure.undergo (commands.filterMap Command.step?) := by
  induction commands generalizing session with
  | nil => simp [performAll_nil, Failure.undergo]
  | cons command commands ih =>
    have hsteps : (command :: commands).filterMap Command.step? =
        command.step?.toList ++ commands.filterMap Command.step? := by
      cases hstep : command.step? <;> simp [hstep]
    rw [performAll_cons, ih _ h.tail, failure_perform, h.head, Option.none_or, Option.map_map,
      hsteps]
    congr 1
    funext failure
    exact (failure.undergo_append _ _).symm

/-- From a failure that is raised on, the steps after it are all that counts. -/
theorem failure_performAll_of_raised {cause : Command} {session : Session} {failure : Failure}
    (hraised : cause.raised? session = some failure) (commands : List Command)
    (h : Undisturbed (perform cause session).2 commands) :
    (performAll (cause :: commands) session).2.failure =
      some (failure.undergo (commands.filterMap Command.step?)) := by
  rw [performAll_cons, failure_performAll commands _ h, failure_perform, hraised]
  rfl

end CountingLoops.Session
