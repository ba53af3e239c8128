import CountingLoops.Sink

/-!
# Requests of a write

What a sink is asked and what it answers, as data. `recorded` is a sink that
keeps this record in its state, so a record holds the requests that were
really made. `Exchange` says which requests a write may make, whatever the
sink answers; `writeWithin_recorded` ties it to the executable write, and
everything else about a record is read off the relation, without a sink.
-/

namespace CountingLoops.Sink

variable {σ : Type}

/-! ## Requests and records -/

/-- The number of bytes that an answer takes. -/
def Reply.count {size : Nat} : Reply size → Nat
  | .accepted count _ => count
  | .failed _ => 0

/-- The answer of a sink with room for `room` bytes. -/
def Reply.fitting (room size : Nat) : Reply size := .accepted (min room size) (Nat.min_le_right _ _)

/-- The fault by which an answer ends a write: nothing was taken, or the
request failed and was not merely interrupted. -/
def Reply.refusal? {size : Nat} : Reply size → Option Fault
  | .accepted 0 _ => some .unfinishedWrite
  | .accepted (_ + 1) _ => none
  | .failed fault => if fault.kind = .interrupted then none else some fault

/-- A request with the answer that it got. -/
inductive Request where
  | write (offered : List UInt8) (reply : Reply offered.length)
  | flush (reply : Option Fault)

namespace Request

/-- The bytes that the sink took. -/
def taken : Request → List UInt8
  | .write offered reply => offered.take reply.count
  | .flush _ => []

/-- The fault that ends the work at this request, if it does. -/
def fault? : Request → Option Fault
  | .write _ reply => reply.refusal?
  | .flush reply => reply

def isFlush : Request → Bool
  | .write _ _ => false
  | .flush _ => true

/-- An interrupted write, which is made again. -/
def isInterruption : Request → Bool
  | .write _ (.failed fault) => fault.kind = .interrupted
  | _ => false

/-- A write after which the work goes on: bytes were taken, or it was
interrupted. -/
def Continues (request : Request) : Prop :=
  request.isFlush = false ∧ request.fault? = none

end Request

/-- All bytes that were taken, in order. -/
def accepted (log : List Request) : List UInt8 := log.flatMap Request.taken

/-- The sink that also records its requests, the oldest first. -/
def recorded (sink : Sink (StateM σ)) : Sink (StateM (σ × List Request)) where
  write bytes := fun (state, log) =>
    let (reply, next) := sink.write bytes state
    (reply, next, log ++ [.write bytes reply])
  flush := fun (state, log) =>
    let (reply, next) := sink.flush state
    (reply, next, log ++ [.flush reply])

@[simp] theorem recorded_write (sink : Sink (StateM σ)) (bytes : List UInt8) (state : σ)
    (log : List Request) :
    sink.recorded.write bytes (state, log) =
      ((sink.write bytes state).1, (sink.write bytes state).2,
        log ++ [.write bytes (sink.write bytes state).1]) := rfl

@[simp] theorem recorded_flush (sink : Sink (StateM σ)) (state : σ) (log : List Request) :
    sink.recorded.flush (state, log) =
      ((sink.flush state).1, (sink.flush state).2, log ++ [.flush (sink.flush state).1]) := rfl

@[simp] theorem accepted_nil : accepted [] = [] := rfl

@[simp] theorem accepted_cons (request : Request) (log : List Request) :
    accepted (request :: log) = request.taken ++ accepted log := rfl

@[simp] theorem accepted_append (first second : List Request) :
    accepted (first ++ second) = accepted first ++ accepted second := by
  simp [accepted]

@[simp] theorem taken_write (offered : List UInt8) (reply : Reply offered.length) :
    (Request.write offered reply).taken = offered.take reply.count := rfl

@[simp] theorem taken_flush (reply : Option Fault) : (Request.flush reply).taken = [] := rfl

theorem Reply.count_le {size : Nat} (reply : Reply size) : reply.count ≤ size := by
  cases reply with
  | accepted count le => exact le
  | failed fault => exact Nat.zero_le _

/-- An answer that ends a write has taken nothing. -/
theorem Reply.count_of_refusal {size : Nat} {reply : Reply size} {fault : Fault}
    (h : reply.refusal? = some fault) : reply.count = 0 := by
  match reply with
  | .accepted 0 _ => rfl
  | .accepted (_ + 1) _ => cases h
  | .failed _ => rfl

theorem Request.taken_of_refusal {offered : List UInt8} {reply : Reply offered.length}
    {fault : Fault} (h : reply.refusal? = some fault) : (write offered reply).taken = [] := by
  simp [Reply.count_of_refusal h]

/-! ## The shape of a write -/

/-- The requests of a write of `bytes`, with its result. Each request offers
all that is left; the result `none` belongs to a write that was given up while
some bytes were left. -/
inductive Exchange : List UInt8 → List Request → Option (Except Fault Unit) → Prop where
  | done : Exchange [] [] (some (.ok ()))
  | abandoned {bytes : List UInt8} : bytes ≠ [] → Exchange bytes [] none
  | refused {bytes : List UInt8} {reply : Reply bytes.length} {fault : Fault} :
      bytes ≠ [] → reply.refusal? = some fault →
      Exchange bytes [.write bytes reply] (some (.error fault))
  | continued {bytes : List UInt8} {reply : Reply bytes.length} {log : List Request}
      {result : Option (Except Fault Unit)} :
      bytes ≠ [] → reply.refusal? = none → Exchange (bytes.drop reply.count) log result →
      Exchange bytes (.write bytes reply :: log) result

/-- Recording changes nothing about a write, and what is recorded is an
exchange. -/
theorem writeWithin_recorded (sink : Sink (StateM σ)) (requests : Nat) (bytes : List UInt8)
    (state : σ) (log : List Request) :
    ∃ made, Exchange bytes made (sink.writeWithin requests bytes state).1 ∧
      sink.recorded.writeWithin requests bytes (state, log) =
        ((sink.writeWithin requests bytes state).1, (sink.writeWithin requests bytes state).2,
          log ++ made) ∧
      ((sink.writeWithin requests bytes state).1 = none → made.length = requests) := by
  -- on the bound, which every request lowers by one, whatever it takes
  induction requests generalizing bytes state log with
  | zero =>
    cases bytes with
    | nil => exact ⟨[], .done, by simp⟩
    | cons byte bytes => exact ⟨[], .abandoned (by simp), by simp [writeWithin_zero]⟩
  | succ requests ih =>
    cases bytes with
    | nil => exact ⟨[], .done, by simp⟩
    | cons byte bytes =>
      rw [writeWithin_cons, writeWithin_cons, recorded_write]
      have hne : byte :: bytes ≠ [] := List.cons_ne_nil _ _
      obtain ⟨reply, next⟩ := sink.write (byte :: bytes) state
      match reply with
      | .accepted 0 le =>
        exact ⟨[.write (byte :: bytes) (.accepted 0 le)], .refused hne rfl, rfl, nofun⟩
      | .accepted (count + 1) le =>
        let request := Request.write (byte :: bytes) (.accepted (count + 1) le)
        obtain ⟨made, hmade, hrun, hlength⟩ := ih (bytes.drop count) next (log ++ [request])
        refine ⟨request :: made, .continued hne rfl hmade, ?_, ?_⟩
        · simpa [request] using hrun
        · intro hnone
          simp [hlength hnone]
      | .failed fault =>
        let request := Request.write (byte :: bytes) (.failed fault)
        by_cases hf : fault.kind = .interrupted
        · obtain ⟨made, hmade, hrun, hlength⟩ := ih (byte :: bytes) next (log ++ [request])
          simp only [hf, if_true]
          refine ⟨request :: made, .continued hne ?_ hmade, ?_, ?_⟩
          · simp [Reply.refusal?, hf]
          · simpa [request] using hrun
          · intro hnone
            simp [hlength hnone]
        · simp only [hf, if_false]
          refine ⟨[request], .refused hne ?_, rfl, nofun⟩
          simp [Reply.refusal?, hf]

/-! ## What an exchange leaves behind -/

/-- A write that succeeds was never refused, and all bytes were taken. -/
theorem Exchange.of_ok {bytes : List UInt8} {log : List Request}
    (h : Exchange bytes log (some (.ok ()))) :
    (∀ request ∈ log, request.Continues) ∧ accepted log = bytes := by
  generalize hr : some (Except.ok ()) = result at h
  induction h with
  | done => exact ⟨by simp, rfl⟩
  | abandoned _ => cases hr
  | refused _ _ => cases hr
  | continued _ hreply _ ih =>
    obtain ⟨hrest, htaken⟩ := ih hr
    refine ⟨?_, by simp [htaken]⟩
    intro request hmem
    rcases List.mem_cons.mp hmem with rfl | hmem
    · exact ⟨rfl, hreply⟩
    · exact hrest request hmem

/-- What was taken is a beginning of the bytes, however the write ended. -/
theorem Exchange.isPrefix_accepted {bytes : List UInt8} {log : List Request}
    {result : Option (Except Fault Unit)} (h : Exchange bytes log result) :
    accepted log <+: bytes := by
  induction h with
  | done => exact List.prefix_rfl
  | abandoned _ => exact List.nil_prefix
  | refused _ hreply =>
    rw [accepted_cons, Request.taken_of_refusal hreply]
    exact List.nil_prefix
  | @continued bytes reply _ _ _ _ _ ih =>
    -- what came before and what is left make up the bytes again
    have hrest := (List.prefix_append_right_inj (bytes.take reply.count)).mpr ih
    rwa [List.take_append_drop] at hrest

/-- A write that fails was refused by its last request and by no other, with
some bytes left. -/
theorem Exchange.of_error {bytes : List UInt8} {log : List Request} {fault : Fault}
    (h : Exchange bytes log (some (.error fault))) :
    ∃ before offered reply, log = before ++ [Request.write offered reply] ∧
      reply.refusal? = some fault ∧ (∀ request ∈ before, request.Continues) ∧
      (accepted log).length < bytes.length := by
  generalize hr : some (Except.error fault) = result at h
  induction h with
  | done => cases hr
  | abandoned _ => cases hr
  | @refused bytes reply _ hne hreply =>
    cases hr
    refine ⟨[], bytes, reply, rfl, hreply, by simp, ?_⟩
    have hcount := Reply.count_of_refusal hreply
    simpa [hcount] using List.length_pos_iff.mpr hne
  | @continued bytes reply log _ _ hreply _ ih =>
    obtain ⟨before, offered, last, rfl, hlast, hbefore, hlt⟩ := ih hr
    refine ⟨.write bytes reply :: before, offered, last, rfl, hlast, ?_, ?_⟩
    · intro request hmem
      rcases List.mem_cons.mp hmem with rfl | hmem
      · exact ⟨rfl, hreply⟩
      · exact hbefore request hmem
    · have hle := reply.count_le
      simp only [List.length_drop, accepted_cons, taken_write, List.length_append,
        List.length_take] at hlt ⊢
      omega

/-- What an exchange offers begins at the first byte that was not taken
before, and is all that is left. -/
theorem Exchange.offers {bytes : List UInt8} {log : List Request}
    {result : Option (Except Fault Unit)} (h : Exchange bytes log result)
    {before after : List Request} {offered : List UInt8} {reply : Reply offered.length}
    (hlog : log = before ++ Request.write offered reply :: after) :
    offered ≠ [] ∧ accepted before ++ offered = bytes := by
  induction h generalizing before with
  | done => simp at hlog
  | abandoned _ => simp at hlog
  | refused hne _ =>
    cases before with
    | nil =>
      cases hlog
      exact ⟨hne, rfl⟩
    | cons request before => simp at hlog
  | continued hne _ _ ih =>
    cases before with
    | nil =>
      cases hlog
      exact ⟨hne, rfl⟩
    | cons request before =>
      obtain ⟨rfl, htail⟩ := List.cons.inj hlog
      obtain ⟨hoffered, hrest⟩ := ih htail
      exact ⟨hoffered, by simp [hrest]⟩

/-! ## Single requests -/

/-- A write goes on behind the bytes that were taken. -/
theorem writeWithin_of_accepted {sink : Sink (StateM σ)} (requests : Nat) {bytes : List UInt8}
    (hne : bytes ≠ []) {state next : σ} {count : Nat} {le : count ≤ bytes.length}
    (hwrite : sink.write bytes state = (.accepted count le, next)) (hpos : 0 < count) :
    sink.writeWithin (requests + 1) bytes state =
      sink.writeWithin requests (bytes.drop count) next := by
  obtain ⟨byte, bytes, rfl⟩ := List.exists_cons_of_ne_nil hne
  obtain ⟨count, rfl⟩ : ∃ n, count = n + 1 := ⟨count - 1, by omega⟩
  rw [writeWithin_cons, hwrite]
  rfl

/-! ## Patience -/

/-- A request after which the work goes on was interrupted or took a byte. -/
theorem Reply.interrupted_or_count_pos {offered : List UInt8} {reply : Reply offered.length}
    (h : reply.refusal? = none) :
    (Request.write offered reply).isInterruption = true ∨ 0 < reply.count := by
  match reply with
  | .accepted 0 _ => cases h
  | .accepted (count + 1) _ => exact .inr (Nat.succ_pos count)
  | .failed fault =>
    by_cases hf : fault.kind = .interrupted
    · exact .inl (by simp [Request.isInterruption, hf])
    · simp [refusal?, hf] at h

/-- A write that was given up took a byte with each request that was not
interrupted, and not all of them. -/
theorem Exchange.length_of_none {bytes : List UInt8} {log : List Request}
    (h : Exchange bytes log none) :
    log.length < log.countP Request.isInterruption + bytes.length := by
  generalize hr : none = result at h
  induction h with
  | done => cases hr
  | abandoned hne => simpa using List.length_pos_iff.mpr hne
  | refused _ _ => cases hr
  | @continued bytes reply log _ _ hreply _ ih =>
    have hlt := ih hr
    have hle := reply.count_le
    rw [List.length_drop] at hlt
    rw [List.countP_cons, List.length_cons]
    rcases reply.interrupted_or_count_pos hreply with hi | hpos
    · simp only [hi, if_true]
      omega
    · omega

/-- A finished write is finished in the same way with any more requests. -/
theorem writeWithin_mono (sink : Sink (StateM σ)) {fewer more : Nat} (hle : fewer ≤ more)
    (bytes : List UInt8) (state : σ) (h : (sink.writeWithin fewer bytes state).1.isSome) :
    sink.writeWithin more bytes state = sink.writeWithin fewer bytes state := by
  induction fewer generalizing more bytes state with
  | zero =>
    cases bytes with
    | nil => simp
    | cons byte bytes => simp [writeWithin_zero] at h
  | succ fewer ih =>
    cases bytes with
    | nil => simp
    | cons byte bytes =>
      obtain ⟨more, rfl⟩ : ∃ n, more = n + 1 := ⟨more - 1, by omega⟩
      rw [writeWithin_cons] at h
      rw [writeWithin_cons, writeWithin_cons]
      generalize sink.write (byte :: bytes) state = answer at h
      obtain ⟨reply, next⟩ := answer
      match reply with
      | .accepted 0 _ => rfl
      | .accepted (count + 1) _ => exact ih (by omega) (bytes.drop count) next h
      | .failed fault =>
        by_cases hf : fault.kind = .interrupted
        · simp only [hf, if_true] at h ⊢
          exact ih (by omega) (byte :: bytes) next h
        · simp only [hf, if_false]

end CountingLoops.Sink
