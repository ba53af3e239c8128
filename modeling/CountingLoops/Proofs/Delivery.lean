import CountingLoops.Printing
import CountingLoops.Proofs.Requests

/-!
# Deliveries

The requests of a whole printing: one exchange for each piece, then a flush.
`Delivery` is this shape as a relation and `deliver_recorded` ties it to the
executable printing, for every sink that is a machine. A finished delivery
ends in one of two ways, which `Ends` lists: flushed after all of the text, or
refused before the end of it. What a caller can rely on follows from there.
-/

namespace CountingLoops.Sink

variable {σ : Type}

/-! ## The shape of a delivery -/

/-- The bytes of pieces, in order. -/
def content (pieces : List (Phase × String)) : List UInt8 :=
  pieces.flatMap fun piece => encode piece.2

/-- The phase of the piece that holds the byte at `offset`. -/
def owner : List (Phase × String) → Nat → Option Phase
  | [], _ => none
  | (phase, text) :: rest, offset =>
    if offset < (encode text).length then some phase
    else owner rest (offset - (encode text).length)

/-- The result of a delivery that came to its flush. -/
def flushResult : Option Fault → Except Failure Unit
  | none => .ok ()
  | some fault => .error (.ofFault fault)

@[simp] theorem content_nil : content [] = [] := rfl

@[simp] theorem content_cons (phase : Phase) (text : String) (rest : List (Phase × String)) :
    content ((phase, text) :: rest) = encode text ++ content rest := rfl

theorem owner_cons_of_lt (phase : Phase) {text : String} (rest : List (Phase × String))
    {offset : Nat} (h : offset < (encode text).length) :
    owner ((phase, text) :: rest) offset = some phase := by
  simp [owner, h]

theorem owner_cons_add (phase : Phase) (text : String) (rest : List (Phase × String))
    (offset : Nat) :
    owner ((phase, text) :: rest) ((encode text).length + offset) = owner rest offset := by
  simp [owner, show ¬ (encode text).length + offset < (encode text).length by omega]

/-- Every byte of the content has an owner, and nothing else has one. -/
theorem owner_eq_none_iff (pieces : List (Phase × String)) (offset : Nat) :
    owner pieces offset = none ↔ (content pieces).length ≤ offset := by
  induction pieces generalizing offset with
  | nil => simp [owner]
  | cons piece rest ih =>
    obtain ⟨phase, text⟩ := piece
    rw [owner, content_cons, List.length_append]
    split
    · simp only [reduceCtorEq, false_iff]
      omega
    · rw [ih]
      omega

/-- The requests of a delivery of pieces, with its result. -/
inductive Delivery :
    List (Phase × String) → List Request → Option (Except Failure Unit) → Prop where
  | flushed (reply : Option Fault) : Delivery [] [.flush reply] (some (flushResult reply))
  | written {phase : Phase} {text : String} {rest : List (Phase × String)}
      {first second : List Request} {result : Option (Except Failure Unit)} :
      Exchange (encode text) first (some (.ok ())) → Delivery rest second result →
      Delivery ((phase, text) :: rest) (first ++ second) result
  | refused {phase : Phase} {text : String} {rest : List (Phase × String)}
      {log : List Request} {fault : Fault} :
      Exchange (encode text) log (some (.error fault)) →
      Delivery ((phase, text) :: rest) log
        (some (.error ((Failure.ofFault fault).withNote phase.remark)))
  | abandoned {phase : Phase} {text : String} {rest : List (Phase × String)}
      {log : List Request} :
      Exchange (encode text) log none → Delivery ((phase, text) :: rest) log none

/-- Recording changes nothing about a delivery, and what is recorded has the
shape of one. A delivery is abandoned only after more interruptions than the
patience allows for. -/
theorem deliver_recorded (sink : Sink (StateM σ)) (patience : Nat)
    (pieces : List (Phase × String)) (state : σ) (log : List Request) :
    ∃ made, Delivery pieces made (sink.deliver patience pieces state).1 ∧
      sink.recorded.deliver patience pieces (state, log) =
        ((sink.deliver patience pieces state).1, (sink.deliver patience pieces state).2,
          log ++ made) ∧
      ((sink.deliver patience pieces state).1 = none →
        patience < made.countP Request.isInterruption) := by
  induction pieces generalizing state log with
  | nil =>
    rw [deliver_nil, deliver_nil, recorded_flush]
    obtain ⟨reply, next⟩ := sink.flush state
    cases reply with
    | none => exact ⟨_, .flushed none, rfl, nofun⟩
    | some fault => exact ⟨_, .flushed (some fault), rfl, nofun⟩
  | cons piece rest ih =>
    obtain ⟨phase, text⟩ := piece
    rw [deliver_cons, deliver_cons, writeAll, writeAll]
    obtain ⟨first, hfirst, hrun, hlength⟩ :=
      sink.writeWithin_recorded (patience + (encode text).length) (encode text) state log
    rw [hrun]
    generalize sink.writeWithin (patience + (encode text).length) (encode text) state = answer
      at hfirst hlength
    obtain ⟨result, next⟩ := answer
    match result with
    | none =>
      -- all requests of the bound were made, and no byte of the piece pays for two
      refine ⟨first, .abandoned hfirst, rfl, fun _ => ?_⟩
      have hlt := hfirst.length_of_none
      rw [hlength rfl] at hlt
      omega
    | some (.error fault) => exact ⟨first, .refused hfirst, rfl, nofun⟩
    | some (.ok ()) =>
      obtain ⟨second, hsecond, hrest, hnone⟩ := ih next (log ++ first)
      refine ⟨first ++ second, .written hfirst hsecond, by simpa using hrest, fun h => ?_⟩
      rw [List.countP_append]
      exact Nat.lt_of_lt_of_le (hnone h) (Nat.le_add_left _ _)

/-- A finished delivery is finished in the same way with any more patience. -/
theorem deliver_mono (sink : Sink (StateM σ)) {less more : Nat} (hle : less ≤ more)
    (pieces : List (Phase × String)) (state : σ) (h : (sink.deliver less pieces state).1.isSome) :
    sink.deliver more pieces state = sink.deliver less pieces state := by
  induction pieces generalizing state with
  | nil => rw [deliver_nil, deliver_nil]
  | cons piece rest ih =>
    obtain ⟨phase, text⟩ := piece
    rw [deliver_cons, writeAll] at h
    have hsome : (sink.writeWithin (less + (encode text).length) (encode text) state).1.isSome := by
      generalize sink.writeWithin _ (encode text) state = answer at h
      obtain ⟨result, next⟩ := answer
      cases result with
      | none => simp at h
      | some result => rfl
    have hwrite := sink.writeWithin_mono (Nat.add_le_add_right hle _) (encode text) state hsome
    rw [deliver_cons, deliver_cons, writeAll, writeAll, hwrite]
    generalize sink.writeWithin (less + _) (encode text) state = answer at h
    obtain ⟨result, next⟩ := answer
    match result with
    | none => rfl
    | some (.error fault) => rfl
    | some (.ok ()) => exact ih next h

/-- What was taken is a beginning of the content, also of a delivery that was
given up. -/
theorem Delivery.isPrefix_accepted {pieces : List (Phase × String)} {log : List Request}
    {result : Option (Except Failure Unit)} (h : Delivery pieces log result) :
    accepted log <+: content pieces := by
  induction h with
  | flushed _ => exact List.nil_prefix
  | written hfirst _ ih =>
    rw [accepted_append, content_cons, hfirst.of_ok.2]
    exact (List.prefix_append_right_inj _).mpr ih
  | refused hfirst => exact hfirst.isPrefix_accepted.trans (List.prefix_append _ _)
  | abandoned hfirst => exact hfirst.isPrefix_accepted.trans (List.prefix_append _ _)

/-! ## How a delivery ends -/

/-- The two ends of a finished delivery. Before the last request every request
was a write after which the work went on. -/
inductive Ends (pieces : List (Phase × String)) :
    List Request → Except Failure Unit → Prop where
  /-- All of the text was taken, and one flush followed. -/
  | flushed {before : List Request} (reply : Option Fault) :
      (∀ request ∈ before, request.Continues) → accepted before = content pieces →
      Ends pieces (before ++ [Request.flush reply]) (flushResult reply)
  /-- A write was refused. The failure names the phase of the first byte that
  was not taken. -/
  | refused {before : List Request} {offered : List UInt8} {reply : Reply offered.length}
      {fault : Fault} {phase : Phase} :
      (∀ request ∈ before, request.Continues) → reply.refusal? = some fault →
      accepted before <+: content pieces →
      owner pieces (accepted before).length = some phase →
      Ends pieces (before ++ [Request.write offered reply])
        (.error ((Failure.ofFault fault).withNote phase.remark))

/-- Behind a piece that was taken as a whole, a delivery ends as it would
without the piece. -/
theorem Ends.cons {phase : Phase} {text : String} {rest : List (Phase × String)}
    {first second : List Request} {result : Except Failure Unit}
    (hfirst : ∀ request ∈ first, request.Continues) (htaken : accepted first = encode text)
    (h : Ends rest second result) : Ends ((phase, text) :: rest) (first ++ second) result := by
  have happend {before : List Request} (hbefore : ∀ request ∈ before, request.Continues) :
      ∀ request ∈ first ++ before, request.Continues := by
    intro request hmem
    rcases List.mem_append.mp hmem with hmem | hmem
    · exact hfirst request hmem
    · exact hbefore request hmem
  cases h with
  | flushed reply hbefore hall =>
    rw [← List.append_assoc]
    exact .flushed reply (happend hbefore) (by simp [htaken, hall])
  | refused hbefore hreply hpre howner =>
    rw [← List.append_assoc]
    refine .refused (happend hbefore) hreply ?_ ?_
    · simpa [htaken] using hpre
    · simpa [htaken, owner_cons_add] using howner

/-- **Every finished delivery ends in one of the two ways.** -/
theorem Delivery.ends {pieces : List (Phase × String)} {log : List Request}
    {result : Except Failure Unit} (h : Delivery pieces log (some result)) :
    Ends pieces log result := by
  generalize hr : some result = answer at h
  -- pieces that were written move to the front of the end that the rest comes to
  induction h generalizing result with
  | flushed reply =>
    cases hr
    exact @Ends.flushed [] [] reply (by simp) rfl
  | written hfirst _ ih =>
    obtain ⟨hcontinues, htaken⟩ := hfirst.of_ok
    exact (ih hr).cons hcontinues htaken
  | refused hfirst =>
    cases hr
    obtain ⟨before, offered, reply, rfl, hreply, hbefore, hlt⟩ := hfirst.of_error
    have hpre := hfirst.isPrefix_accepted
    have hlast := Request.taken_of_refusal hreply
    simp only [accepted_append, accepted_cons, hlast, accepted_nil, List.append_nil] at hpre hlt
    exact .refused hbefore hreply (hpre.trans (List.prefix_append _ _))
      (owner_cons_of_lt _ _ hlt)
  | abandoned _ => cases hr

/-! ## What the end says about the record -/

section

variable {pieces : List (Phase × String)} {log : List Request} {result : Except Failure Unit}

/-- Only the last request can be anything but a write after which the work
goes on. -/
theorem Ends.init (h : Ends pieces log result) :
    ∃ before last, log = before ++ [last] ∧ ∀ request ∈ before, request.Continues := by
  cases h with
  | flushed reply hbefore _ => exact ⟨_, _, rfl, hbefore⟩
  | refused hbefore _ _ _ => exact ⟨_, _, rfl, hbefore⟩

theorem Ends.isPrefix_accepted (h : Ends pieces log result) : accepted log <+: content pieces := by
  cases h with
  | flushed reply _ hall => simp [hall]
  | refused _ hreply hpre _ =>
    have hlast := Request.taken_of_refusal hreply
    simpa [hlast] using hpre

/-- Nothing follows a request that does not go on. -/
theorem Ends.eq_nil_of_not_continues (h : Ends pieces log result) {before after : List Request}
    {request : Request} (hlog : log = before ++ request :: after)
    (hrequest : ¬ request.Continues) : after = [] := by
  obtain ⟨front, last, rfl, hfront⟩ := h.init
  rcases after.eq_nil_or_concat with rfl | ⟨middle, final, rfl⟩
  · rfl
  · have hsplit : front ++ [last] = (before ++ request :: middle) ++ [final] := by
      simpa using hlog
    obtain ⟨rfl, -⟩ := List.append_inj' hsplit rfl
    exact absurd (hfront request (by simp)) hrequest

/-- The flush is made if all of the content was taken and only then, and it is
the last request. -/
theorem Ends.flush_iff (h : Ends pieces log result) :
    (∃ before reply, log = before ++ [Request.flush reply] ∧
      ∀ request ∈ before, request.isFlush = false) ↔ accepted log = content pieces := by
  cases h with
  | flushed reply hbefore hall =>
    have hnone := fun request hmem => (hbefore request hmem).1
    exact iff_of_true ⟨_, reply, rfl, hnone⟩ (by simp [hall])
  | @refused before offered reply fault phase hbefore hreply hpre howner =>
    refine iff_of_false ?_ ?_
    · rintro ⟨front, flushReply, hlog, -⟩
      obtain ⟨-, hlast⟩ := List.append_inj' hlog rfl
      cases hlast
    · intro hall
      have hlast := Request.taken_of_refusal hreply
      have hlength : (content pieces).length ≤ (accepted before).length := by
        rw [← hall]
        simp [hlast]
      rw [(owner_eq_none_iff _ _).mpr hlength] at howner
      cases howner

/-- Without all of the content taken there is no flush at all. -/
theorem Ends.no_flush_iff (h : Ends pieces log result) :
    (∀ request ∈ log, request.isFlush = false) ↔ accepted log ≠ content pieces := by
  rw [ne_eq, ← h.flush_iff]
  cases h with
  | flushed reply hbefore _ =>
    have hnone := fun request hmem => (hbefore request hmem).1
    refine iff_of_false (fun hno => ?_) (not_not_intro ⟨_, reply, rfl, hnone⟩)
    simpa [Request.isFlush] using hno (.flush reply) (by simp)
  | refused hbefore _ _ _ =>
    refine iff_of_true ?_ ?_
    · intro request hmem
      rcases List.mem_append.mp hmem with hmem | hmem
      · exact (hbefore request hmem).1
      · rw [List.mem_singleton.mp hmem]
        rfl
    · rintro ⟨front, reply, hlog, -⟩
      obtain ⟨-, hlast⟩ := List.append_inj' hlog rfl
      cases hlast

/-- A delivery succeeds if all of the content was taken and the flush after it
succeeded. -/
theorem Ends.ok_iff (h : Ends pieces log result) :
    result = .ok () ↔ accepted log = content pieces ∧ log.getLast? = some (.flush none) := by
  cases h with
  | flushed reply _ hall => cases reply <;> simp [flushResult, hall]
  | refused _ _ _ _ => simp

end

/-! ## What a delivery offers -/

theorem Exchange.offers_content {phase : Phase} {text : String} {rest : List (Phase × String)}
    {log before after : List Request} {offered : List UInt8} {reply : Reply offered.length}
    {result : Option (Except Fault Unit)} (h : Exchange (encode text) log result)
    (hlog : log = before ++ Request.write offered reply :: after) :
    offered ≠ [] ∧ accepted before ++ offered <+: content ((phase, text) :: rest) := by
  obtain ⟨hne, hall⟩ := h.offers hlog
  exact ⟨hne, by simp [hall]⟩

/-- Each write offers what comes next in the content. -/
theorem Delivery.offers {pieces : List (Phase × String)} {log : List Request}
    {result : Option (Except Failure Unit)} (h : Delivery pieces log result)
    {before after : List Request} {offered : List UInt8} {reply : Reply offered.length}
    (hlog : log = before ++ Request.write offered reply :: after) :
    offered ≠ [] ∧ accepted before ++ offered <+: content pieces := by
  induction h generalizing before with
  | flushed flushReply =>
    have hflags := congrArg (List.map Request.isFlush) hlog
    cases before <;> simp [Request.isFlush] at hflags
  | @written phase text rest first second _ hfirst _ ih =>
    obtain ⟨-, htaken⟩ := hfirst.of_ok
    have hlater {front : List Request}
        (hfront : second = front ++ Request.write offered reply :: after) :
        offered ≠ [] ∧
          accepted (first ++ front) ++ offered <+: content ((phase, text) :: rest) := by
      obtain ⟨hne, hpre⟩ := ih hfront
      exact ⟨hne, by simpa [htaken] using hpre⟩
    -- the request stands behind the first exchange, right at its end or in it
    rcases List.append_eq_append_iff.mp hlog with ⟨front, rfl, hrest⟩ | ⟨tail, hfront, hrest⟩
    · exact hlater hrest
    · cases tail with
      | nil =>
        obtain rfl : first = before := by simpa using hfront
        simpa using @hlater [] hrest.symm
      | cons request tail =>
        obtain ⟨rfl, -⟩ := List.cons.inj hrest
        exact hfirst.offers_content hfront
  | refused hfirst => exact hfirst.offers_content hlog
  | abandoned hfirst => exact hfirst.offers_content hlog

end CountingLoops.Sink
