import CountingLoops.Program
import CountingLoops.Proofs.Attribution
import CountingLoops.Proofs.Trace

/-!
# How the program ends

The program with an arbitrary machine for its standard output. Its exit is a
function of the result of the printing, `ending`, and the result in turn is
what the requests say; `Accounted` puts both together: what the status and the
error stream tell of the output that was taken.
-/

namespace CountingLoops.Program

variable {σ : Type}

/-! ## The exit as a function of the result -/

/-- Texts with a newline after each of them. -/
def unlines (texts : List String) : String := String.join (texts.map (· ++ "\n"))

/-- All that the program leaves on the error stream. -/
def Exit.text (exit : Exit) : String := unlines exit.stderr

/-- The program on a machine. There is no exit if the printing was given up. -/
def executeOn (sink : Sink (StateM σ)) (patience : Nat) (invocation : Invocation) :
    StateM σ (Option Exit) :=
  (execute (fun report => OptionT.mk (report.printTo sink patience)) invocation).run

/-- The diagnostic lines: those of the report if the variable has a value. -/
def traceOf (invocation : Invocation) : List String :=
  if invocation.tracing.isSome then Traced.reportLines standardBound else []

/-- The text in which a failure is shown. -/
def complaint (invocation : Invocation) (failure : Failure) : String :=
  failure.terminalText (Failure.isColoured invocation.showsColour [])

/-- The exit after a printing. -/
def ending (invocation : Invocation) : Except Failure Unit → Exit
  | .ok () => ⟨0, traceOf invocation⟩
  | .error failure =>
    if failure.isBrokenPipe then ⟨0, traceOf invocation⟩
    else ⟨1, traceOf invocation ++ [complaint invocation failure]⟩

theorem report_standard (invocation : Invocation) :
    (Traced.report standardBound { setting := invocation.tracing }).1 =
        .ofBound standardBound ∧
      (Traced.report standardBound { setting := invocation.tracing }).2.written.toList =
        traceOf invocation := by
  rw [Traced.report_eq]
  refine ⟨rfl, ?_⟩
  rw [Tracing.written_traceAll]
  rfl

theorem executeOn_eq (sink : Sink (StateM σ)) (patience : Nat) (invocation : Invocation)
    (state : σ) :
    executeOn sink patience invocation state =
      (((Report.ofBound standardBound).printTo sink patience state).1.map (ending invocation),
        ((Report.ofBound standardBound).printTo sink patience state).2) := by
  obtain ⟨hreport, htrace⟩ := report_standard invocation
  -- the trace is complete before the first request, so it does not depend on any
  unfold executeOn execute
  generalize Traced.report standardBound { setting := invocation.tracing } = traced at *
  obtain ⟨report, tracing⟩ := traced
  obtain rfl : report = .ofBound standardBound := hreport
  simp only at htrace
  simp only [OptionT.run_bind, OptionT.run_mk, htrace, Option.elimM]
  simp only [bind, StateT.bind]
  generalize (Report.ofBound standardBound).printTo sink patience state = answer
  obtain ⟨result, next⟩ := answer
  match result with
  | none => rfl
  | some (.ok ()) => rfl
  | some (.error failure) =>
    simp only [Option.elim_some, Option.map_some, ending]
    by_cases hbroken : failure.isBrokenPipe = true
    · simp only [hbroken]
      rfl
    · simp only [hbroken]
      rfl

/-! ## What the exit tells -/

/-- The fault with which a record of requests ends, if it does. -/
def lastFault? (log : List Sink.Request) : Option Fault := log.getLast?.bind Sink.Request.fault?

/-- What the status and the error stream tell of a printing with the requests
`log` and the given result. -/
structure Accounted (invocation : Invocation) (log : List Sink.Request)
    (result : Except Failure Unit) (exit : Exit) : Prop where
  status : exit.status = 0 ∨ exit.status = 1
  /-- The status is one for a fault that is no broken pipe. -/
  failed : exit.status = 1 ↔ ∃ failure fault, result = .error failure ∧
    lastFault? log = some fault ∧ fault.kind ≠ .brokenPipe
  /-- With the status zero there is the trace on the error stream. -/
  silent : exit.status = 0 → exit.text = unlines (traceOf invocation)
  /-- With the status one the failure is shown after it. -/
  reported : exit.status = 1 → ∃ failure, result = .error failure ∧
    exit.text = unlines (traceOf invocation) ++ complaint invocation failure ++ "\n"
  /-- The output is a beginning of the text. -/
  taken : Sink.accepted log <+: (Report.ofBound standardBound).bytes
  /-- The status zero means that it is complete, except for a broken pipe. -/
  complete : exit.status = 0 → (∀ fault, lastFault? log = some fault → fault.kind ≠ .brokenPipe) →
    Sink.accepted log = (Report.ofBound standardBound).bytes
  /-- Without tracing an empty error stream means the status zero. -/
  quiet : invocation.tracing = none → (exit.text = "" ↔ exit.status = 0)
  /-- So only a broken pipe loses output without a word. -/
  lost : Sink.accepted log ≠ (Report.ofBound standardBound).bytes →
    invocation.tracing = none → exit.text = "" →
    ∃ fault, lastFault? log = some fault ∧ fault.kind = .brokenPipe

section

variable {pieces : List (Phase × String)} {log : List Sink.Request}

theorem lastFault?_of_error {failure : Failure} (h : Sink.Ends pieces log (.error failure)) :
    ∃ fault, lastFault? log = some fault ∧
      (failure.isBrokenPipe = true ↔ fault.kind = .brokenPipe) := by
  obtain ⟨request, fault, hlast, hfault, hkind, -⟩ := h.fault_eq
  refine ⟨fault, ?_, ?_⟩
  · rw [lastFault?, hlast]
    exact hfault
  · rw [Failure.isBrokenPipe, decide_eq_true_iff]
    exact hkind

end

theorem unlines_append (first second : List String) :
    unlines (first ++ second) = unlines first ++ unlines second := by
  simp [unlines, String.join_append]

theorem unlines_singleton (text : String) : unlines [text] = text ++ "\n" := by
  simp [unlines]

section

variable (invocation : Invocation) (result : Except Failure Unit)

theorem status_ending :
    (ending invocation result).status = 0 ∨ (ending invocation result).status = 1 := by
  unfold ending
  split
  · exact .inl rfl
  · split
    · exact .inl rfl
    · exact .inr rfl

theorem status_ending_eq_one_iff : (ending invocation result).status = 1 ↔
    ∃ failure, result = .error failure ∧ failure.isBrokenPipe = false := by
  cases result with
  | ok => simp [ending]
  | error failure => cases hbroken : failure.isBrokenPipe <;> simp [ending, hbroken]

theorem text_ending_of_zero (h : (ending invocation result).status = 0) :
    (ending invocation result).text = unlines (traceOf invocation) := by
  cases result with
  | ok => rfl
  | error failure =>
    cases hbroken : failure.isBrokenPipe with
    | true => simp [ending, hbroken, Exit.text]
    | false => simp [ending, hbroken] at h

theorem text_ending_of_one (h : (ending invocation result).status = 1) :
    ∃ failure, result = .error failure ∧ (ending invocation result).text =
      unlines (traceOf invocation) ++ complaint invocation failure ++ "\n" := by
  obtain ⟨failure, rfl, hbroken⟩ := (status_ending_eq_one_iff invocation result).mp h
  refine ⟨failure, rfl, ?_⟩
  simp [ending, hbroken, Exit.text, unlines_append, unlines_singleton, String.append_assoc]

theorem text_ending_eq_empty_iff (h : invocation.tracing = none) :
    (ending invocation result).text = "" ↔ (ending invocation result).status = 0 := by
  have htrace : unlines (traceOf invocation) = "" := by simp [traceOf, h, unlines]
  rcases status_ending invocation result with hstatus | hstatus
  · rw [text_ending_of_zero invocation result hstatus, htrace]
    simp [hstatus]
  · obtain ⟨failure, -, htext⟩ := text_ending_of_one invocation result hstatus
    simp [htext, hstatus]

end

/-- Whatever ended the printing, the exit accounts for it. -/
theorem accounted_of_ends (invocation : Invocation) {log : List Sink.Request}
    {result : Except Failure Unit}
    (h : Sink.Ends (Report.ofBound standardBound).pieces log result) :
    Accounted invocation log result (ending invocation result) := by
  have hfailed : (ending invocation result).status = 1 ↔ ∃ failure fault,
      result = .error failure ∧ lastFault? log = some fault ∧ fault.kind ≠ .brokenPipe := by
    rw [status_ending_eq_one_iff]
    constructor
    · rintro ⟨failure, rfl, hbroken⟩
      obtain ⟨fault, hlast, hkind⟩ := lastFault?_of_error h
      exact ⟨failure, fault, rfl, hlast, fun hpipe => by simp [hkind.mpr hpipe] at hbroken⟩
    · rintro ⟨failure, fault, rfl, hlast, hkind⟩
      obtain ⟨same, hsame, hiff⟩ := lastFault?_of_error h
      obtain rfl : same = fault := Option.some.inj (hsame.symm.trans hlast)
      exact ⟨failure, rfl, by simpa using mt hiff.mp hkind⟩
  -- a failure without a broken pipe would have given the status one
  have hcomplete (hstatus : (ending invocation result).status = 0)
      (hpipe : ∀ fault, lastFault? log = some fault → fault.kind ≠ .brokenPipe) :
      Sink.accepted log = (Report.ofBound standardBound).bytes := by
    cases result with
    | ok =>
      rw [← Report.content_pieces]
      exact (h.ok_iff.mp rfl).1
    | error failure =>
      obtain ⟨fault, hlast, -⟩ := lastFault?_of_error h
      have hone := hfailed.mpr ⟨failure, fault, rfl, hlast, hpipe fault hlast⟩
      rw [hone] at hstatus
      cases hstatus
  have hquiet := text_ending_eq_empty_iff invocation result
  refine ⟨status_ending invocation result, hfailed, text_ending_of_zero invocation result,
    text_ending_of_one invocation result, ?_, hcomplete, hquiet, ?_⟩
  · rw [← Report.content_pieces]
    exact h.isPrefix_accepted
  · intro hpart htracing hempty
    have hstatus := (hquiet htracing).mp hempty
    apply Classical.byContradiction
    intro hnone
    exact hpart (hcomplete hstatus fun fault hlast hpipe => hnone ⟨fault, hlast, hpipe⟩)

/-- **The exit accounts for the output**, on every machine as standard output,
with any arguments, with the variable set or not, and whether colour is shown
or not. The record is that of the very same run, and the text has thirty
lines. -/
theorem accounted_executeOn (sink : Sink (StateM σ)) (patience : Nat) (invocation : Invocation)
    (state final : σ) (exit : Exit)
    (h : executeOn sink patience invocation state = (some exit, final)) :
    (Report.ofBound standardBound).lines.length = 30 ∧
      ∃ log result,
        executeOn sink.recorded patience invocation (state, []) = (some exit, final, log) ∧
        (Report.ofBound standardBound).printTo sink patience state = (some result, final) ∧
        Accounted invocation log result exit := by
  have hlines : (Report.ofBound standardBound).lines.length = 30 := by
    rw [Report.length_lines]
    decide
  refine ⟨hlines, ?_⟩
  have hdelivery := (Report.ofBound standardBound).delivery_record sink patience state
  have hrun := executeOn_eq sink.recorded patience invocation (state, [])
  rw [executeOn_eq] at h
  rw [Report.printTo_recorded] at hrun
  generalize (Report.ofBound standardBound).printTo sink patience state = answer at *
  obtain ⟨result, next⟩ := answer
  cases result with
  | none => cases h
  | some result =>
    cases h
    exact ⟨_, result, hrun, rfl, accounted_of_ends invocation hdelivery.ends⟩

/-- A device for as many bytes as its state says, which then takes nothing. -/
def fillingSink : Sink (StateM Nat) where
  write bytes := fun left => (.fitting left bytes.length, left - bytes.length)
  flush := fun left => (none, left)

/-- A device for three bytes is full before the second newline. -/
theorem accounted_executeOn_filling :
    let exit : Exit := ⟨1, ["error: I/O error: failed to write whole buffer\n" ++
      "note: while writing the ascending phase"]⟩
    executeOn fillingSink 0 {} 3 = (some exit, 0) ∧
      (Report.ofBound standardBound).lines.length = 30 ∧
      ∃ log result,
        executeOn fillingSink.recorded 0 {} (3, []) = (some exit, 0, log) ∧
        (Report.ofBound standardBound).printTo fillingSink 0 3 = (some result, 0) ∧
        Accounted {} log result exit := by
  intro exit
  have hpieces : ∃ rest, (Report.ofBound standardBound).pieces =
      (.ascending, "1") :: (.ascending, "\n") :: (.ascending, "2") :: (.ascending, "\n") ::
        rest := by
    rw [Report.pieces_ofBound]
    exact ⟨_, rfl⟩
  have hexecute : executeOn fillingSink 0 {} 3 = (some exit, 0) := by
    obtain ⟨rest, hrest⟩ := hpieces
    let failure := (Failure.ofFault .unfinishedWrite).withNote Phase.ascending.remark
    have hprint : (Report.ofBound standardBound).printTo fillingSink 0 3 =
        (some (.error failure), 0) := by
      rw [Report.printTo, hrest]
      rfl
    have hcomplaint : complaint {} failure =
        "error: I/O error: failed to write whole buffer\n" ++
          "note: while writing the ascending phase" := by
      decide
    rw [executeOn_eq, hprint, Option.map_some, ending, hcomplaint]
    rfl
  exact ⟨hexecute, accounted_executeOn fillingSink 0 {} 3 0 exit hexecute⟩

end CountingLoops.Program
