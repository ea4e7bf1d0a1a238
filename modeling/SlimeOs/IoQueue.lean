import SlimeOs.CheckedWord
import SlimeOs.FallibleCall
import SlimeOs.SharedRing

/-!
The I/O queue: a ring of requests from a client to a driver and a ring of completions
back, over one shared mapping. A call reads the header once, works on one slot, and
writes one cursor; the other party may run between any two of these steps. Requests are
taken and completions posted while the driver serves one epoch.
-/

namespace SlimeOs.IoQueue

open Bool CheckedWord FallibleCall FallibleCall.Outcome SharedRing

def queueHeaderLen : Nat := 128
def requestSlotLen : Nat := 128
def completionSlotLen : Nat := 64
def requestPayloadBytes : Nat := 56
def completionPayloadBytes : Nat := 24
def minQueueSlots : Nat := 2
def maxQueueSlots : Nat := 256
def requestMagic : UInt32 := 1381259081
def completionMagic : UInt32 := 1129270601
def slotReady : UInt32 := 2
def flagFenced : UInt32 := 1
def knownRequestFlags : UInt32 := 1
def flagEpochEnded : UInt32 := 1
def knownCompletionFlags : UInt32 := 1
def statusOk : UInt32 := 0
def statusUnsupported : UInt32 := 10
def directionNone : UInt32 := 0
def directionDeviceRead : UInt32 := 1
def directionDeviceWrite : UInt32 := 2

inductive QueueError where
  | malformed
  | full
  | empty
  | tooLarge
  | staleEpoch
  | closed
  | unknown
deriving DecidableEq

inductive DriverState where
  | active
  | resetting
  | dead
deriving DecidableEq

structure QueueHeader where
  submitHead : Nat
  completeTail : Nat
  driverState : DriverState
  epoch : UInt64
  completeHead : Nat
  submitTail : Nat
deriving DecidableEq

structure BufferSlice where
  buffer : UInt64
  lease : UInt64
  offset : UInt64
  length : UInt64
  direction : UInt32
  reserved : List UInt8
deriving DecidableEq

structure RequestSlot where
  magic : UInt32
  state : UInt32
  flags : UInt32
  payloadLen : Nat
  requestId : UInt64
  epoch : UInt64
  slice : BufferSlice
  payload : List UInt8
deriving DecidableEq

structure CompletionSlot where
  magic : UInt32
  status : UInt32
  flags : UInt32
  payloadLen : Nat
  requestId : UInt64
  epoch : UInt64
  transferred : UInt64
  payload : List UInt8
deriving DecidableEq

def RequestSlot.zeroed : RequestSlot :=
  ⟨0, 0, 0, 0, 0, 0, ⟨0, 0, 0, 0, 0, [0, 0, 0, 0]⟩, List.replicate requestPayloadBytes 0⟩

def CompletionSlot.zeroed : CompletionSlot :=
  ⟨0, 0, 0, 0, 0, 0, 0, List.replicate completionPayloadBytes 0⟩

structure Mapping where
  header : QueueHeader
  requests : Nat → RequestSlot
  completions : Nat → CompletionSlot

def mappingBytes (slotCount : Nat) : Nat :=
  queueHeaderLen + slotCount * requestSlotLen + slotCount * completionSlotLen

def admissibleSlotCount (slotCount : Nat) : Bool :=
  minQueueSlots ≤ slotCount && slotCount ≤ maxQueueSlots && isPowerOfTwo slotCount

def format (mappingLen slotCount : Nat) (epoch : UInt64) : Outcome QueueError Mapping := do
  rejectIf (!admissibleSlotCount slotCount || epoch == 0) .malformed
  rejectIf (mappingLen < mappingBytes slotCount) .malformed
  pure ⟨⟨0, 0, .active, epoch, 0, 0⟩, fun _ => RequestSlot.zeroed, fun _ => CompletionSlot.zeroed⟩

def queueSlotIndex (sequence slotCount : Nat) : Nat := sequence &&& (slotCount - 1)

def validBufferSlice (slice : BufferSlice) (mappedLen : UInt64) : Bool :=
  slice.reserved.all (· == 0) &&
    if slice.direction = directionNone then
      slice.buffer == 0 && slice.lease == 0 && slice.offset == 0 && slice.length == 0
    else if slice.direction = directionDeviceRead ∨ slice.direction = directionDeviceWrite then
      slice.buffer != 0 && slice.lease != 0 && slice.length != 0 &&
        (checkedAdd slice.offset slice.length).any fun stop => decide (stop ≤ mappedLen)
    else false

def validRequestSlot (slot : RequestSlot) (expectedEpoch mappedLen : UInt64) : Bool :=
  slot.magic == requestMagic && slot.state == slotReady &&
    slot.flags &&& ~~~knownRequestFlags == 0 &&
    slot.requestId != 0 && slot.epoch != 0 && slot.epoch == expectedEpoch &&
    slot.payloadLen ≤ requestPayloadBytes && (slot.payload.drop slot.payloadLen).all (· == 0) &&
    validBufferSlice slot.slice mappedLen

/-- The statuses of this version are numbered from zero without a gap. -/
def validCompletionStatus (status : UInt32) : Bool := status ≤ statusUnsupported

/-- Every defined status settles its request. -/
def terminalStatus (status : UInt32) : Bool := validCompletionStatus status

def validCompletionSlot (slot : CompletionSlot)
    (expectedRequest expectedEpoch sliceLength : UInt64) : Bool :=
  slot.magic == completionMagic && slot.flags &&& ~~~knownCompletionFlags == 0 &&
    slot.requestId != 0 && slot.requestId == expectedRequest &&
    slot.epoch != 0 && slot.epoch == expectedEpoch && validCompletionStatus slot.status &&
    (slot.status == statusOk || slot.transferred == 0) && slot.transferred ≤ sliceLength &&
    slot.payloadLen ≤ completionPayloadBytes && (slot.payload.drop slot.payloadLen).all (· == 0)

/-- The arguments of `submit`. -/
structure Request where
  requestId : UInt64
  slice : BufferSlice
  payload : List UInt8
  fenced : Bool
  mappedLen : UInt64
deriving DecidableEq

/-- The arguments of `complete`. -/
structure Answer where
  requestId : UInt64
  status : UInt32
  transferred : UInt64
  payload : List UInt8
  epochEnded : Bool
deriving DecidableEq

def requestSlot (epoch : UInt64) (request : Request) : RequestSlot :=
  { magic := requestMagic
    state := slotReady
    flags := if request.fenced then flagFenced else 0
    payloadLen := request.payload.length
    requestId := request.requestId
    epoch := epoch
    slice := request.slice
    payload := request.payload ++ List.replicate (requestPayloadBytes - request.payload.length) 0 }

def completionSlot (epoch : UInt64) (answer : Answer) : CompletionSlot :=
  { magic := completionMagic
    status := answer.status
    flags := if answer.epochEnded then flagEpochEnded else 0
    payloadLen := answer.payload.length
    requestId := answer.requestId
    epoch := epoch
    transferred := answer.transferred
    payload := answer.payload ++ List.replicate (completionPayloadBytes - answer.payload.length) 0 }

structure Live where
  requestId : UInt64
  epoch : UInt64
  sliceLength : UInt64
deriving DecidableEq

structure Completion where
  requestId : UInt64
  epoch : UInt64
  status : UInt32
  transferred : UInt64
  payload : List UInt8
  epochEnded : Bool
deriving DecidableEq

structure Submission where
  requestId : UInt64
  epoch : UInt64
  slice : BufferSlice
  payload : List UInt8
  fenced : Bool
deriving DecidableEq

structure TakeRequestError where
  error : QueueError
  requestId : UInt64
  epoch : UInt64
deriving DecidableEq

/-- What `take_completion` answers for the slot it has consumed. -/
def judgeCompletion (expected : List Live) (slot : CompletionSlot) : Except QueueError Completion :=
  match expected.find? fun live => live.requestId == slot.requestId && live.epoch == slot.epoch with
  | none => .error .unknown
  | some live =>
    if validCompletionSlot slot live.requestId live.epoch live.sliceLength then
      .ok ⟨slot.requestId, slot.epoch, slot.status, slot.transferred,
        slot.payload.take slot.payloadLen, slot.flags &&& flagEpochEnded != 0⟩
    else .error .malformed

/-- What `take_request` answers for the slot it has consumed. -/
def judgeRequest (epoch mappedLen : UInt64) (slot : RequestSlot) :
    Except TakeRequestError Submission :=
  if validRequestSlot slot epoch mappedLen then
    .ok ⟨slot.requestId, slot.epoch, slot.slice, slot.payload.take slot.payloadLen,
      slot.flags &&& flagFenced != 0⟩
  else
    .error ⟨if slot.epoch = epoch then .malformed else .staleEpoch, slot.requestId, slot.epoch⟩

/-- Where the client stands in a call. The header is the one the call read. -/
inductive Client where
  | idle
  | submitting (header : QueueHeader) (request : Request)
  | submitted (header : QueueHeader) (request : Request)
  | collecting (header : QueueHeader) (expected : List Live)
  | collected (header : QueueHeader) (expected : List Live) (slot : CompletionSlot)

inductive Driver where
  | idle
  | taking (header : QueueHeader) (mappedLen : UInt64)
  | taken (header : QueueHeader) (mappedLen : UInt64) (slot : RequestSlot)
  | completing (header : QueueHeader) (answer : Answer)
  | completed (header : QueueHeader) (answer : Answer)

/-- The mapping, the two parties, the entries each ring has accepted and given out, and what
the taking calls answered. -/
structure State where
  mapping : Mapping
  client : Client
  driver : Driver
  requests : List RequestSlot
  takenRequests : List RequestSlot
  requestAnswers : List (Except TakeRequestError Submission)
  completions : List CompletionSlot
  takenCompletions : List CompletionSlot
  completionAnswers : List (Except QueueError Completion)

def State.start (mapping : Mapping) : State := ⟨mapping, .idle, .idle, [], [], [], [], [], []⟩

inductive ClientCall where
  | submit (request : Request)
  | takeCompletion (expected : List Live)

inductive DriverCall where
  | takeRequest (mappedLen : UInt64)
  | complete (answer : Answer)
  | beginReset

inductive Event where
  | client (call : ClientCall)
  | driver (call : DriverCall)

section Steps

variable (slotCount : Nat)

/-- The checks of `submit`, on the header it reads. -/
def submitChecks (header : QueueHeader) (request : Request) : Outcome QueueError Unit := do
  rejectIf (requestPayloadBytes < request.payload.length) .tooLarge
  rejectIf (header.driverState != .active) .closed
  rejectIf (slotCount ≤ header.submitHead - header.submitTail) .full
  rejectIf (request.requestId == 0) .malformed
  rejectIf
    (!validRequestSlot (requestSlot header.epoch request) header.epoch request.mappedLen) .malformed

/-- The checks of `complete`, on the header it reads. -/
def completeChecks (header : QueueHeader) (answer : Answer) : Outcome QueueError Unit := do
  rejectIf (completionPayloadBytes < answer.payload.length) .tooLarge
  rejectIf (slotCount ≤ header.completeHead - header.completeTail) .full
  rejectIf (answer.requestId == 0 || !terminalStatus answer.status) .malformed

/-- The header read of a client call. A refused call is over with it. -/
def beginClient (s : State) : ClientCall → Client
  | .submit request =>
    match submitChecks slotCount s.mapping.header request with
    | .ok () => .submitting s.mapping.header request
    | .error _ => .idle
  | .takeCompletion expected =>
    if s.mapping.header.completeHead = s.mapping.header.completeTail then .idle
    else .collecting s.mapping.header expected

def clientStep (s : State) (call : ClientCall) : State :=
  match s.client with
  | .idle => { s with client := beginClient slotCount s call }
  | .submitting header request =>
    { s with
      mapping := { s.mapping with
        requests := Function.update s.mapping.requests
          (queueSlotIndex (header.submitHead + 1) slotCount) (requestSlot header.epoch request) }
      client := .submitted header request }
  | .submitted header request =>
    { s with
      mapping := { s.mapping with
        header := { s.mapping.header with submitHead := header.submitHead + 1 } }
      client := .idle
      requests := s.requests ++ [requestSlot header.epoch request] }
  | .collecting header expected =>
    { s with
      client := .collected header expected
        (s.mapping.completions (queueSlotIndex (header.completeTail + 1) slotCount)) }
  | .collected header expected slot =>
    { s with
      mapping := { s.mapping with
        header := { s.mapping.header with completeTail := header.completeTail + 1 } }
      client := .idle
      takenCompletions := s.takenCompletions ++ [slot]
      completionAnswers := s.completionAnswers ++ [judgeCompletion expected slot] }

/-- The header read of a driver call, and the whole of `begin_reset`, which writes a word no
one else writes. -/
def beginDriver (s : State) : DriverCall → State
  | .takeRequest mappedLen =>
    if s.mapping.header.submitHead = s.mapping.header.submitTail then s
    else { s with driver := .taking s.mapping.header mappedLen }
  | .complete answer =>
    match completeChecks slotCount s.mapping.header answer with
    | .ok () => { s with driver := .completing s.mapping.header answer }
    | .error _ => s
  | .beginReset =>
    if s.mapping.header.driverState = .active then
      { s with mapping := { s.mapping with
        header := { s.mapping.header with driverState := .resetting } } }
    else s

def driverStep (s : State) (call : DriverCall) : State :=
  match s.driver with
  | .idle => beginDriver slotCount s call
  | .taking header mappedLen =>
    { s with
      driver := .taken header mappedLen
        (s.mapping.requests (queueSlotIndex (header.submitTail + 1) slotCount)) }
  | .taken header mappedLen slot =>
    { s with
      mapping := { s.mapping with
        header := { s.mapping.header with submitTail := header.submitTail + 1 } }
      driver := .idle
      takenRequests := s.takenRequests ++ [slot]
      requestAnswers := s.requestAnswers ++ [judgeRequest header.epoch mappedLen slot] }
  | .completing header answer =>
    { s with
      mapping := { s.mapping with
        completions := Function.update s.mapping.completions
          (queueSlotIndex (header.completeHead + 1) slotCount)
          (completionSlot header.epoch answer) }
      driver := .completed header answer }
  | .completed header answer =>
    { s with
      mapping := { s.mapping with
        header := { s.mapping.header with completeHead := header.completeHead + 1 } }
      driver := .idle
      completions := s.completions ++ [completionSlot header.epoch answer] }

def step (s : State) : Event → State
  | .client call => clientStep slotCount s call
  | .driver call => driverStep slotCount s call

end Steps

/-! Each ring is a lane between the two parties; a party at work on the other ring is idle
on this one. -/

def Mapping.requestLane (mapping : Mapping) : Lane RequestSlot :=
  ⟨mapping.header.submitHead, mapping.header.submitTail, mapping.requests⟩

def Mapping.completionLane (mapping : Mapping) : Lane CompletionSlot :=
  ⟨mapping.header.completeHead, mapping.header.completeTail, mapping.completions⟩

def Client.producer : Client → Producer RequestSlot
  | .submitting header request =>
    .claimed header.submitHead header.submitTail (requestSlot header.epoch request)
  | .submitted header request => .written header.submitHead (requestSlot header.epoch request)
  | _ => .idle

def Client.consumer : Client → Consumer CompletionSlot
  | .collecting header _ => .claimed header.completeTail
  | .collected header _ slot => .loaded header.completeTail slot
  | _ => .idle

def Driver.consumer : Driver → Consumer RequestSlot
  | .taking header _ => .claimed header.submitTail
  | .taken header _ slot => .loaded header.submitTail slot
  | _ => .idle

def Driver.producer : Driver → Producer CompletionSlot
  | .completing header answer =>
    .claimed header.completeHead header.completeTail (completionSlot header.epoch answer)
  | .completed header answer => .written header.completeHead (completionSlot header.epoch answer)
  | _ => .idle

structure Sound (slotCount : Nat) (s : State) : Prop where
  requests : Ordered slotCount s.mapping.requestLane s.requests s.takenRequests
  submitter : ProducerAt slotCount s.mapping.requestLane s.client.producer
  taker : ConsumerAt s.mapping.requestLane s.requests s.driver.consumer
  completions : Ordered slotCount s.mapping.completionLane s.completions s.takenCompletions
  completer : ProducerAt slotCount s.mapping.completionLane s.driver.producer
  collector : ConsumerAt s.mapping.completionLane s.completions s.client.consumer

section Invariant

variable {slotCount : Nat} {header : QueueHeader} {s : State}

theorem queueSlotIndex_eq_mod (hpower : isPowerOfTwo slotCount = true) (sequence : Nat) :
    queueSlotIndex sequence slotCount = sequence % slotCount :=
  and_pred_eq_mod hpower sequence

theorem submitChecks_room {request : Request} (h : submitChecks slotCount header request = .ok ()) :
    header.submitHead < header.submitTail + slotCount := by
  simp only [submitChecks, bind_eq_ok_iff, rejectIf_eq_ok_iff, exists_const] at h
  have hroom := of_decide_eq_false h.2.2.1
  omega

theorem completeChecks_room {answer : Answer}
    (h : completeChecks slotCount header answer = .ok ()) :
    header.completeHead < header.completeTail + slotCount := by
  simp only [completeChecks, bind_eq_ok_iff, rejectIf_eq_ok_iff, exists_const] at h
  have hroom := of_decide_eq_false h.2.1
  omega

theorem sound_start {requests : Nat → RequestSlot}
    {completions : Nat → CompletionSlot} (hsubmit : header.submitHead = 0)
    (htake : header.submitTail = 0) (hcomplete : header.completeHead = 0)
    (hcollect : header.completeTail = 0) :
    Sound slotCount (State.start ⟨header, requests, completions⟩) := by
  rcases header with ⟨_, _, _, _, _, _⟩
  subst hsubmit htake hcomplete hcollect
  exact
    { requests := ordered_empty requests
      submitter := trivial
      taker := trivial
      completions := ordered_empty completions
      completer := trivial
      collector := trivial }

theorem beginClient_sound (h : Sound slotCount s) (call : ClientCall) :
    Sound slotCount { s with client := beginClient slotCount s call } := by
  cases call with
  | submit request =>
    simp only [beginClient]
    split
    · next hchecks =>
        exact { h with submitter := .claim (submitChecks_room hchecks), collector := trivial }
    · exact { h with submitter := trivial, collector := trivial }
  | takeCompletion expected =>
    simp only [beginClient]
    split
    · exact { h with submitter := trivial, collector := trivial }
    · next hready =>
        exact { h with submitter := trivial, collector := h.completions.consumer_claim hready }

theorem beginDriver_sound (h : Sound slotCount s) (call : DriverCall) :
    Sound slotCount (beginDriver slotCount s call) := by
  cases call with
  | takeRequest mappedLen =>
    simp only [beginDriver]
    split
    · exact h
    · next hready =>
        exact { h with taker := h.requests.consumer_claim hready, completer := trivial }
  | complete answer =>
    simp only [beginDriver]
    split
    · next hchecks =>
        exact { h with taker := trivial, completer := .claim (completeChecks_room hchecks) }
    · exact h
  | beginReset =>
    simp only [beginDriver]
    split
    · exact { h with }
    · exact h

variable (hpower : isPowerOfTwo slotCount = true) (h : Sound slotCount s)
include hpower h

theorem clientStep_sound (call : ClientCall) : Sound slotCount (clientStep slotCount s call) := by
  have hproducer := h.submitter
  have hconsumer := h.collector
  unfold clientStep
  cases hclient : s.client with
  | idle => exact beginClient_sound h call
  | submitting header request =>
    rw [hclient] at hproducer
    dsimp only
    rw [queueSlotIndex_eq_mod hpower]
    exact { h with
      requests := h.requests.write hproducer
      submitter := Ordered.written hproducer
      taker := h.taker.write
      collector := trivial }
  | submitted header request =>
    rw [hclient] at hproducer
    exact { h with
      requests := h.requests.publish hproducer
      submitter := trivial
      taker := h.taker.publish
      collector := trivial }
  | collecting header expected =>
    rw [hclient] at hconsumer
    dsimp only
    rw [queueSlotIndex_eq_mod hpower]
    exact { h with
      submitter := trivial
      collector := h.completions.load hconsumer }
  | collected header expected slot =>
    rw [hclient] at hconsumer
    obtain ⟨htail, -⟩ := id hconsumer
    exact { h with
      submitter := trivial
      completions := h.completions.retire hconsumer
      completer := by
        dsimp only
        rw [htail]
        exact h.completer.retire (Nat.le_succ _)
      collector := trivial }

theorem driverStep_sound (call : DriverCall) : Sound slotCount (driverStep slotCount s call) := by
  have hproducer := h.completer
  have hconsumer := h.taker
  unfold driverStep
  cases hdriver : s.driver with
  | idle => exact beginDriver_sound h call
  | taking header mappedLen =>
    rw [hdriver] at hconsumer
    dsimp only
    rw [queueSlotIndex_eq_mod hpower]
    exact { h with
      taker := h.requests.load hconsumer
      completer := trivial }
  | taken header mappedLen slot =>
    rw [hdriver] at hconsumer
    obtain ⟨htail, -⟩ := id hconsumer
    exact { h with
      requests := h.requests.retire hconsumer
      submitter := by
        dsimp only
        rw [htail]
        exact h.submitter.retire (Nat.le_succ _)
      taker := trivial
      completer := trivial }
  | completing header answer =>
    rw [hdriver] at hproducer
    dsimp only
    rw [queueSlotIndex_eq_mod hpower]
    exact { h with
      taker := trivial
      completions := h.completions.write hproducer
      completer := Ordered.written hproducer
      collector := h.collector.write }
  | completed header answer =>
    rw [hdriver] at hproducer
    exact { h with
      taker := trivial
      completions := h.completions.publish hproducer
      completer := trivial
      collector := h.collector.publish }

theorem step_sound (event : Event) : Sound slotCount (step slotCount s event) := by
  cases event with
  | client call => exact clientStep_sound hpower h call
  | driver call => exact driverStep_sound hpower h call

end Invariant

theorem format_ok {mappingLen slotCount : Nat} {epoch : UInt64} {mapping : Mapping}
    (h : format mappingLen slotCount epoch = .ok mapping) :
    isPowerOfTwo slotCount = true ∧ Sound slotCount (State.start mapping) := by
  simp only [format, bind_eq_ok_iff, rejectIf_eq_ok_iff, exists_const,
    pure_eq_ok_iff, or_eq_false_iff, not_eq_eq_eq_not, Bool.not_false,
    admissibleSlotCount, and_eq_true] at h
  obtain ⟨⟨⟨-, hpower⟩, -⟩, -, rfl⟩ := h
  exact ⟨hpower, sound_start rfl rfl rfl rfl⟩

/-- However the two parties interleave, what is taken from either ring are its first entries
in order, and the slots still hold all the others. -/
theorem queue_in_order (mappingLen slotCount : Nat) (epoch : UInt64) (mapping : Mapping)
    (hformat : format mappingLen slotCount epoch = .ok mapping) (events : List Event) :
    let s := run (step slotCount) (State.start mapping) events
    s.takenRequests <+: s.requests ∧
      (∀ n, s.takenRequests.length ≤ n → n < s.requests.length →
        s.requests[n]? = some (s.mapping.requests (queueSlotIndex (n + 1) slotCount))) ∧
      s.takenCompletions <+: s.completions ∧
      (∀ n, s.takenCompletions.length ≤ n → n < s.completions.length →
        s.completions[n]? = some (s.mapping.completions (queueSlotIndex (n + 1) slotCount))) := by
  intro s
  obtain ⟨hpower, hstart⟩ := format_ok hformat
  have h : Sound slotCount s := run_invariant (step slotCount) (Sound slotCount)
    (fun _ event h => step_sound hpower h event) _ events hstart
  refine ⟨h.requests.taken_first, fun n htaken hsent => ?_, h.completions.taken_first,
    fun n htaken hsent => ?_⟩
  · rw [queueSlotIndex_eq_mod hpower]
    exact h.requests.held n htaken hsent
  · rw [queueSlotIndex_eq_mod hpower]
    exact h.completions.held n htaken hsent

/-- A control request, submitted while the driver looks for one and answered after it. -/
def roundTrip : List Event :=
  let submit : Event := .client (.submit ⟨5, ⟨0, 0, 0, 0, 0, []⟩, [1], false, 0⟩)
  let take : Event := .driver (.takeRequest 0)
  let complete : Event := .driver (.complete ⟨5, 0, 0, [], false⟩)
  let collect : Event := .client (.takeCompletion [⟨5, 1, 0⟩])
  [submit, take, submit, take, submit, take, take, take, complete, complete, complete,
    collect, collect, collect]

theorem queue_in_order_roundTrip :
    ∃ mapping, format 512 2 1 = .ok mapping ∧
      (run (step 2) (State.start mapping) roundTrip).takenRequests <+:
        (run (step 2) (State.start mapping) roundTrip).requests ∧
      (run (step 2) (State.start mapping) roundTrip).requestAnswers =
        [.ok ⟨5, 1, ⟨0, 0, 0, 0, 0, []⟩, [1], false⟩] ∧
      (run (step 2) (State.start mapping) roundTrip).completionAnswers =
        [.ok ⟨5, 1, 0, 0, [], false⟩] :=
  ⟨_, rfl, (queue_in_order 512 2 1 _ rfl roundTrip).1, by decide +kernel, by decide +kernel⟩

end SlimeOs.IoQueue
