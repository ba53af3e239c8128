import CountingLoops.Proofs.BudgetedPrinting

/-!
# Many printings into one sink

Reports of any bounds are printed into one budgeted sink, and its settings
change between them. `Run.Exact` is what a single printing does, read off its
closed form; over a sequence of operations the output is then a row of
segments, one for each printing.
-/

namespace CountingLoops.Budgeted

/-! ## Operations -/

/-- A change of settings, which may depend on the old ones. It keeps what was
taken, the count of the flushes, and chunks of at least one byte. -/
structure Adjustment where
  apply : Budgeted → Budgeted
  output_apply : ∀ sink, (apply sink).output = sink.output
  flushed_apply : ∀ sink, (apply sink).flushed = sink.flushed
  chunk_apply : ∀ sink, sink.chunk.isSpent = false → (apply sink).chunk.isSpent = false

/-- A refill is an adjustment. -/
def Adjustment.ofSettings (settings : Settings)
    (h : ∀ chunk, settings.chunk = some chunk → chunk.isSpent = false) : Adjustment where
  apply sink := sink.refill settings
  output_apply _ := rfl
  flushed_apply _ := rfl
  chunk_apply sink hchunk := by
    cases hset : settings.chunk with
    | none => simpa [refill, hset] using hchunk
    | some chunk => simpa [refill, hset] using h chunk hset

inductive Operation where
  | print (bound : UInt16)
  | adjust (adjustment : Adjustment)

/-- A printing that took place, with the sink before and after it. -/
structure Run where
  bound : UInt16
  before : Budgeted
  result : Except Failure Unit
  after : Budgeted

/-- The bytes that the sink took meanwhile. -/
def Run.segment (run : Run) : List UInt8 :=
  run.after.output.toList.drop run.before.output.size

/-- The bytes of the report that was printed. -/
def Run.text (run : Run) : List UInt8 := (Report.ofBound run.bound).bytes

def Operation.bound? : Operation → Option UInt16
  | .print bound => some bound
  | .adjust _ => none

/-- The printing of a report as a run. -/
def runOf (bound : UInt16) (sink : Budgeted) : Run :=
  ⟨bound, sink, (print (.ofBound bound) sink).1, (print (.ofBound bound) sink).2⟩

/-- Carries out operations in order, and collects the printings among them. -/
def performAll : List Operation → StateM Budgeted (List Run)
  | [] => pure []
  | .print bound :: rest => fun sink =>
    let run := runOf bound sink
    let (runs, final) := performAll rest run.after
    (run :: runs, final)
  | .adjust adjustment :: rest => fun sink => performAll rest (adjustment.apply sink)

/-! ## One printing -/

/-- What a printing into a budgeted sink does, and what comes of it. -/
structure Run.Exact (run : Run) : Prop where
  /-- It adds to the output. -/
  output : run.after.output.toList = run.before.output.toList ++ run.segment
  /-- The segment is the longest beginning that the budgets pay for. -/
  segment : LongestPrefix (Within run.before.lines run.before.bytes) run.text run.segment
  lines : run.after.lines = run.before.lines.spend (run.segment.count newline)
  bytes : run.after.bytes = run.before.bytes.spend run.segment.length
  /-- A text that was taken as a whole is flushed, and no other. -/
  flushed : run.after.flushed = run.before.flushed + if run.segment = run.text then 1 else 0
  /-- No interruption is left, and nothing else has changed. -/
  frame : run.after = { run.before with
    lines := run.after.lines
    bytes := run.after.bytes
    interrupts := 0
    output := run.after.output
    flushed := run.after.flushed }
  /-- It succeeds if all of the text was taken and the flush is within its limit. -/
  ok : run.result = .ok () ↔ run.segment = run.text ∧
    run.before.flushes.admits (run.before.flushed + 1) = true
  /-- A text that was taken as a whole fails at most by its flush. -/
  complete : run.segment = run.text → run.result = Sink.flushResult run.before.flushReply
  /-- Any other fails in the phase of the first byte that was not taken. -/
  refused : run.segment ≠ run.text → ∃ phase,
    Sink.owner (Report.ofBound run.bound).pieces run.segment.length = some phase ∧
      run.result = .error ((Failure.ofFault run.before.refusal).withNote phase.remark)
  /-- All of this would be the same with chunks of another size and with any
  number of interruptions. -/
  smooth : ∀ chunk interrupts, chunk.isSpent = false →
    print (.ofBound run.bound) { run.before with chunk := chunk, interrupts := interrupts } =
      (run.result, { run.after with chunk := chunk })

section

variable (bound : UInt16) (sink : Budgeted)

theorem runOf_eq (hchunk : sink.chunk.isSpent = false) :
    runOf bound sink =
      let text := (Report.ofBound bound).bytes
      ⟨bound, sink, sink.outcome (Report.ofBound bound).pieces (sink.part text).length,
        sink.settled text⟩ := by
  rw [runOf, print_eq bound sink hchunk]

theorem segment_runOf (hchunk : sink.chunk.isSpent = false) :
    (runOf bound sink).segment = sink.part (Report.ofBound bound).bytes := by
  rw [runOf_eq bound sink hchunk, Run.segment]
  have houtput : (sink.settled (Report.ofBound bound).bytes).output =
      sink.output ++ sink.part (Report.ofBound bound).bytes := rfl
  rw [houtput, Array.toList_appendList, ← Array.length_toList, List.drop_left]

/-- A sink with other chunks and other interruptions prints the same. -/
theorem print_smooth (hchunk : sink.chunk.isSpent = false) (chunk : Limit) (interrupts : Nat)
    (hother : chunk.isSpent = false) :
    print (.ofBound bound) { sink with chunk := chunk, interrupts := interrupts } =
      ((print (.ofBound bound) sink).1,
        { (print (.ofBound bound) sink).2 with chunk := chunk }) := by
  -- since something is offered, no interruption outlasts the printing
  have hne := Report.bytes_ne_nil bound
  rw [print_eq bound sink hchunk, print_eq bound _ hother]
  simp only [settled, waited, hne, if_false]
  rfl

theorem outcome_of_all (h : sink.part (Report.ofBound bound).bytes = (Report.ofBound bound).bytes) :
    sink.outcome (Report.ofBound bound).pieces (sink.part (Report.ofBound bound).bytes).length =
      Sink.flushResult sink.flushReply := by
  have howner : Sink.owner (Report.ofBound bound).pieces (Report.ofBound bound).bytes.length =
      none := by
    apply (Sink.owner_eq_none_iff _ _).mpr
    exact Nat.le_of_eq (congrArg List.length (Report.ofBound bound).content_pieces)
  rw [outcome, h, howner]

theorem outcome_of_part
    (h : sink.part (Report.ofBound bound).bytes ≠ (Report.ofBound bound).bytes) :
    ∃ phase, Sink.owner (Report.ofBound bound).pieces
        (sink.part (Report.ofBound bound).bytes).length = some phase ∧
      sink.outcome (Report.ofBound bound).pieces (sink.part (Report.ofBound bound).bytes).length =
        .error ((Failure.ofFault sink.refusal).withNote phase.remark) := by
  have hlt := part_length_lt h
  cases howner : Sink.owner (Report.ofBound bound).pieces
      (sink.part (Report.ofBound bound).bytes).length with
  | none =>
    rw [Sink.owner_eq_none_iff, Report.content_pieces] at howner
    omega
  | some phase =>
    refine ⟨phase, rfl, ?_⟩
    rw [outcome, howner]

/-- **One printing does exactly this**, in every state of the sink. -/
theorem exact_runOf (hchunk : sink.chunk.isSpent = false) : (runOf bound sink).Exact := by
  have hsegment := segment_runOf bound sink hchunk
  have hafter : (runOf bound sink).after = sink.settled (Report.ofBound bound).bytes := by
    rw [runOf_eq bound sink hchunk]
  have hresult : (runOf bound sink).result = sink.outcome (Report.ofBound bound).pieces
      (sink.part (Report.ofBound bound).bytes).length := by
    rw [runOf_eq bound sink hchunk]
  have htext : (runOf bound sink).text = (Report.ofBound bound).bytes := rfl
  have hbefore : (runOf bound sink).before = sink := rfl
  have hbound : (runOf bound sink).bound = bound := rfl
  constructor <;> rw [hbefore] <;> simp only [hsegment, hafter, hresult, htext, hbound]
  case output => simp [settled, waited]
  case segment => exact longest_affordable _ _ _
  case lines => rfl
  case bytes => rfl
  case flushed =>
    by_cases hall : sink.part (Report.ofBound bound).bytes = (Report.ofBound bound).bytes <;>
      simp [settled, hall]
  case frame =>
    simp only [settled, waited, Report.bytes_ne_nil bound, if_false]
    rfl
  case ok =>
    -- with the whole text taken the flush decides, otherwise a write was refused
    by_cases hall : sink.part (Report.ofBound bound).bytes = (Report.ofBound bound).bytes
    · rw [outcome_of_all bound sink hall, flushReply]
      cases sink.flushes.admits (sink.flushed + 1) <;> simp [hall, Sink.flushResult]
    · obtain ⟨phase, -, hfailed⟩ := outcome_of_part bound sink hall
      rw [hfailed]
      simp [hall]
  case complete => exact outcome_of_all bound sink
  case refused => exact outcome_of_part bound sink
  case smooth =>
    intro chunk interrupts hother
    rw [print_smooth bound sink hchunk chunk interrupts hother, print_eq bound sink hchunk]

end

theorem isSpent_chunk_runOf {bound : UInt16} {sink : Budgeted} (h : sink.chunk.isSpent = false) :
    (runOf bound sink).after.chunk.isSpent = false := by
  rw [runOf_eq bound sink h]
  exact h

/-! ## Many printings -/

section

variable (rest : List Operation) (sink : Budgeted)

theorem performAll_nil : performAll [] sink = ([], sink) := rfl

theorem performAll_print (bound : UInt16) :
    performAll (.print bound :: rest) sink =
      (runOf bound sink :: (performAll rest (runOf bound sink).after).1,
        (performAll rest (runOf bound sink).after).2) := rfl

theorem performAll_adjust (adjustment : Adjustment) :
    performAll (.adjust adjustment :: rest) sink = performAll rest (adjustment.apply sink) := rfl

theorem performAll_append (first : List Operation) :
    performAll (first ++ rest) sink =
      ((performAll first sink).1 ++ (performAll rest (performAll first sink).2).1,
        (performAll rest (performAll first sink).2).2) := by
  induction first generalizing sink with
  | nil => rfl
  | cons operation first ih =>
    cases operation with
    | print bound =>
      rw [List.cons_append, performAll_print, performAll_print, ih]
      rfl
    | adjust adjustment =>
      rw [List.cons_append, performAll_adjust, performAll_adjust, ih]

end

/-- What a sequence of operations on one sink does: the runs belong to the
printings in order, each is exact, and their segments make up the output. -/
structure Composed (operations : List Operation) (initial : Budgeted) (runs : List Run)
    (final : Budgeted) : Prop where
  bounds : runs.map Run.bound = operations.filterMap Operation.bound?
  /-- A run starts with the sink to which the operations before it led. -/
  starts : ∀ first bound rest, operations = first ++ .print bound :: rest → ∃ later,
    runs = (performAll first initial).1 ++ runOf bound (performAll first initial).2 :: later
  exact : ∀ run ∈ runs, run.Exact
  output : final.output.toList = initial.output.toList ++ runs.flatMap Run.segment
  flushed : final.flushed =
    initial.flushed + runs.countP fun run => run.segment = run.text

/-- Induction along the operations. Chunks stay of at least one byte, so every
printing on the way is exact. -/
theorem performAll_induct
    {motive : List Operation → (sink : Budgeted) → sink.chunk.isSpent = false → Prop}
    (nil : ∀ sink hchunk, motive [] sink hchunk)
    (print : ∀ bound rest sink hchunk, (runOf bound sink).Exact →
      motive rest (runOf bound sink).after (isSpent_chunk_runOf hchunk) →
      motive (.print bound :: rest) sink hchunk)
    (adjust : ∀ (adjustment : Adjustment) rest sink hchunk,
      motive rest (adjustment.apply sink) (adjustment.chunk_apply sink hchunk) →
      motive (.adjust adjustment :: rest) sink hchunk)
    (operations : List Operation) (sink : Budgeted) (hchunk : sink.chunk.isSpent = false) :
    motive operations sink hchunk := by
  induction operations generalizing sink with
  | nil => exact nil sink hchunk
  | cons operation rest ih =>
    cases operation with
    | print bound => exact print bound rest sink hchunk (exact_runOf bound sink hchunk) (ih _ _)
    | adjust adjustment => exact adjust adjustment rest sink hchunk (ih _ _)

section

variable (operations : List Operation) (sink : Budgeted) (hchunk : sink.chunk.isSpent = false)

include hchunk

theorem exact_performAll : ∀ run ∈ (performAll operations sink).1, run.Exact := by
  induction operations, sink, hchunk using performAll_induct with
  | nil sink => simp [performAll_nil]
  | print bound rest sink _ hexact ih =>
    intro run hmem
    rcases List.mem_cons.mp hmem with rfl | hmem
    · exact hexact
    · exact ih run hmem
  | adjust adjustment rest sink _ ih => exact ih

theorem output_performAll :
    (performAll operations sink).2.output.toList =
      sink.output.toList ++ (performAll operations sink).1.flatMap Run.segment := by
  induction operations, sink, hchunk using performAll_induct with
  | nil sink => simp [performAll_nil]
  | print bound rest sink _ hexact ih =>
    have hbefore : (runOf bound sink).before = sink := rfl
    rw [performAll_print, ih, hexact.output, hbefore, List.flatMap_cons, List.append_assoc]
  | adjust adjustment rest sink _ ih => rw [performAll_adjust, ih, adjustment.output_apply]

/-- The flushes are those of the texts that were taken as a whole. -/
theorem flushed_performAll :
    (performAll operations sink).2.flushed =
      sink.flushed + (performAll operations sink).1.countP fun run => run.segment = run.text := by
  induction operations, sink, hchunk using performAll_induct with
  | nil sink => rfl
  | print bound rest sink _ hexact ih =>
    have hbefore : (runOf bound sink).before = sink := rfl
    rw [performAll_print, ih, hexact.flushed, hbefore, List.countP_cons]
    simp only [decide_eq_true_eq]
    omega
  | adjust adjustment rest sink _ ih => rw [performAll_adjust, ih, adjustment.flushed_apply]

end

theorem bounds_performAll (operations : List Operation) (sink : Budgeted) :
    (performAll operations sink).1.map Run.bound = operations.filterMap Operation.bound? := by
  induction operations generalizing sink with
  | nil => rfl
  | cons operation rest ih =>
    cases operation with
    | print bound => exact congrArg (bound :: ·) (ih _)
    | adjust adjustment => exact ih _

/-- **The output of many printings is a row of segments**, one for each of
them, each as long as the budgets allowed when its printing began. -/
theorem composed_performAll (operations : List Operation) (sink : Budgeted)
    (hchunk : sink.chunk.isSpent = false) :
    Composed operations sink (performAll operations sink).1 (performAll operations sink).2 := by
  refine ⟨bounds_performAll operations sink, ?_, exact_performAll operations sink hchunk,
    output_performAll operations sink hchunk, flushed_performAll operations sink hchunk⟩
  rintro first bound rest rfl
  rw [performAll_append, performAll_print]
  exact ⟨_, rfl⟩

/-- A sink for five bytes takes the rest of a second report once it is
refilled. Its interruption and its chunks of two bytes leave no trace. -/
theorem composed_performAll_refilled :
    let sink : Budgeted := { bytes := .upTo 5, chunk := .upTo 2, interrupts := 1 }
    let refill := Adjustment.ofSettings { bytes := some .unlimited } nofun
    let operations := [.print 0, .adjust refill, .print 0]
    sink.chunk.isSpent = false ∧
      Composed operations sink (performAll operations sink).1 (performAll operations sink).2 ∧
      (performAll operations sink).2.output.toList =
        encode "Not dNot divisible by 3 or 5: 1\n" := by
  intro sink refill operations
  refine ⟨rfl, composed_performAll operations sink rfl, ?_⟩
  have htext : (Report.ofBound 0).bytes = encode "Not divisible by 3 or 5: 1\n" := by
    rw [← Report.content_pieces, Report.pieces_zero]
    decide
  have hlast : (performAll operations sink).2 =
      (runOf 0 (refill.apply (runOf 0 sink).after)).after := rfl
  rw [hlast, runOf_eq 0 sink rfl, runOf_eq 0 _ rfl, htext]
  decide

end CountingLoops.Budgeted
