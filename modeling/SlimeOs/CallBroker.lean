import Mathlib.Algebra.GroupWithZero.Nat
import Mathlib.Data.Fin.Basic
import SlimeOs.CheckedWord
import SlimeOs.FallibleCall

/-!
The call broker: requests of up to two clients relayed to one server, with replies,
cancellations, deadlines and the deaths of either side.

The broker is a loop of handlers over a table of call records. What the runtime answers to a
handler, the messages it receives included, comes from a `Runtime`: one answer for each call
the broker makes, in the order it makes them. The log holds what the broker did to the
outside. `fail` ends the task, so a handler that fails leaves no broker behind.
-/

namespace SlimeOs.CallBroker

open FallibleCall FallibleCall.Outcome

def formatVersion : Nat := 1
def kindRequest : Nat := 1
def kindReply : Nat := 2
def kindCancel : Nat := 3
def kindTerminal : Nat := 4
def kindTerminalAck : Nat := 5
def kindReplyAck : Nat := 6
def kindHeld : Nat := 7
def flagNonIdempotent : UInt32 := 1
def inlineBytes : Nat := 8

def statusSuccess : Int := 0
def statusRejected : Int := 1
def statusTimeout : Int := 2
def statusCancelled : Int := 3
def statusRetryExhausted : Int := 4
def statusMalformedReply : Int := 5
def statusPeerDead : Int := 6
def statusDuplicate : Int := 7
def statusStale : Int := 8

/-- A call envelope. Its magic is the constructor of `WireRecord` it is found under. -/
structure WireCallEnvelope where
  version : Nat
  kind : Nat
  flags : UInt32
  session : Nat
  requestId : Nat
  typeIdentity : Nat
  status : Int
  payloadLen : Nat
  payload : Vector UInt8 16
deriving DecidableEq

def terminalStatuses : List Int :=
  [statusSuccess, statusRejected, statusTimeout, statusCancelled, statusRetryExhausted,
    statusMalformedReply, statusPeerDead, statusDuplicate, statusStale]

def validCallEnvelope (value : WireCallEnvelope) (expectedType : Nat) : Bool :=
  let settles := [kindTerminal, kindTerminalAck, kindReplyAck].contains value.kind
  if value.version ≠ formatVersion ∨ value.flags &&& ~~~flagNonIdempotent ≠ 0 ∨
      value.session = 0 ∨ value.requestId = 0 ∨ value.typeIdentity = 0 ∨
      value.typeIdentity ≠ expectedType ∨ (!settles && inlineBytes < value.payloadLen) ∨
      (settles && value.payloadLen != 0) ∨
      (value.payload.toList.drop (min value.payloadLen 16)).any (· != 0) then false
  else if value.kind = kindRequest then value.status = statusSuccess
  else if value.kind = kindReply ∨ value.kind = kindReplyAck then
    [statusSuccess, statusRejected, statusCancelled].contains value.status
  else if value.kind = kindCancel then
    value.flags = 0 ∧ value.status = statusCancelled ∧ value.payloadLen = 0
  else if value.kind = kindHeld then
    value.flags = 0 ∧ value.status = statusSuccess ∧ value.payloadLen = 0
  else if value.kind = kindTerminal ∨ value.kind = kindTerminalAck then
    value.flags = 0 ∧ terminalStatuses.contains value.status ∧ value.payloadLen = 0
  else false

def capabilityKindLoan : Nat := 1
def sampleKnownFlags : UInt32 := 1
def maxSampleBytes : Nat := 1048576

structure WireSampleDescriptor where
  version : Nat
  flags : UInt32
  capabilityKind : Nat
  loanId : Nat
  offset : Nat
  length : Nat
  typeIdentity : Nat
  sequence : Nat
  reserved : Vector UInt8 8
deriving DecidableEq

def validSampleDescriptor (descriptor : WireSampleDescriptor) (expectedLoan expectedType : Nat)
    (pageSize : Nat) : Bool :=
  if descriptor.version ≠ formatVersion ∨ descriptor.capabilityKind ≠ capabilityKindLoan ∨
      descriptor.flags &&& ~~~sampleKnownFlags ≠ 0 ∨ descriptor.reserved.toList.any (· != 0) ∨
      descriptor.loanId = 0 ∨ descriptor.loanId ≠ expectedLoan ∨
      descriptor.typeIdentity = 0 ∨ descriptor.typeIdentity ≠ expectedType ∨
      2 ^ 64 ≤ descriptor.offset + descriptor.length then false
  else
    descriptor.length ≠ 0 ∧ descriptor.offset % pageSize = 0 ∧
      descriptor.length % pageSize = 0 ∧
      descriptor.offset + descriptor.length ≤ maxSampleBytes

structure WireCallTimeAdvance where
  version : Nat
  flags : Nat
  reserved0 : Nat
  nowNs : Nat
  reserved : Vector UInt8 40
deriving DecidableEq

def validCallTimeAdvance (value : WireCallTimeAdvance) : Bool :=
  value.version = formatVersion ∧ value.flags = 0 ∧ value.reserved0 = 0 ∧
    value.reserved.toList.all (· == 0)

inductive WireRecord where
  | call (envelope : WireCallEnvelope)
  | sample (descriptor : WireSampleDescriptor)
  | time (advance : WireCallTimeAdvance)
  | unknown
deriving DecidableEq

def maxMsg : Nat := 64

/-- What a receive copied out. A record decodes only when the message is long enough. -/
structure Message where
  length : Nat
  record : WireRecord
  caps : List Nat
deriving DecidableEq

/-- The record under the message's magic, which takes four bytes. -/
def Message.tagged (message : Message) : WireRecord :=
  if 4 ≤ message.length then message.record else .unknown

def Message.decodes (message : Message) : Bool := maxMsg ≤ message.length

def session : Nat := 0x000e000000000001
def typeTag : Nat := 0xd7eabf1a3dd69200
def page : Nat := 4096
def maxCalls : Nat := 32

abbrev Client := Fin 2

scoped instance two_ne_zero : NeZero 2 := ⟨by decide⟩
scoped instance four_ne_zero : NeZero 4 := ⟨by decide⟩

def pendingTerminalsPerClient (inFlight : Nat) : Nat := inFlight * 2

def maxPendingTerminals : Nat := pendingTerminalsPerClient maxCalls * 2

inductive Phase where
  | free | forwarding | awaitingReply | cancelling | forwardingReply | pendingTerminal
deriving DecidableEq

inductive Payload where
  | none
  | inline (message : WireCallEnvelope)
  | shared (bufferSlot : Nat) (descriptor : WireSampleDescriptor)
  | sharedOutstanding (bufferSlot loanId : Nat)
  | cancellingShared (bufferSlot loanId : Nat) (message : WireCallEnvelope)
  | inlineReply (message : WireCallEnvelope)
  | sharedReply (bufferSlot : Nat) (descriptor : WireSampleDescriptor)
deriving DecidableEq

def Payload.bufferSlot : Payload → Option Nat
  | .shared slot _ | .sharedOutstanding slot _ | .cancellingShared slot _ _
  | .sharedReply slot _ => some slot
  | .none | .inline _ | .inlineReply _ => Option.none

structure Call where
  phase : Phase
  requestId : Nat
  serverRequestId : Nat
  clientSession : Nat
  clientSlot : Nat
  clientIndex : Client
  retries : Nat
  deadlineNs : Nat
  nextRetryNs : Nat
  terminalStatus : Int
  offered : Bool
  payload : Payload
deriving DecidableEq

def Call.empty : Call :=
  { phase := .free, requestId := 0, serverRequestId := 0, clientSession := 0, clientSlot := 0,
    clientIndex := 0, retries := 0, deadlineNs := 0, nextRetryNs := 0, terminalStatus := 0,
    offered := false, payload := .none }

structure RuntimeLimits where
  maxInFlightCalls : Nat
  maxRetries : Nat

/-- `calls` is the prefix of the table that the declared ceiling admits: the broker reads and
writes nothing beyond it. -/
structure Broker where
  clients : Client → Option Nat
  serverSlot : Option Nat
  supervision : Fin 4 → Option Nat
  retirement : Client → Option Nat
  calls : List Call
  highWater : Client → Nat
  nextServerRequestId : Nat
  nowNs : Nat
  pendingTerminals : List (Option Call)
  timeClosed : Bool
  timeTerminated : Bool
  serverDeathReported : Bool
  serverCall : Option Nat
  declaredDeadlineNs : Nat
  limits : RuntimeLimits

def clientSupervision (client : Client) : Fin 4 := client.castLE (by decide)
def serverSupervision : Fin 4 := 2
def clockSupervision : Fin 4 := 3

/-- The roles a composition wires to the broker. -/
structure Wiring where
  clients : Client → Option Nat
  clientIdentities : Client → Option (List UInt8)
  serverSlot : Nat
  supervision : Fin 4 → Option Nat
  retirement : Client → Option Nat

def Wiring.incomplete (wiring : Wiring) (client : Client) : Bool :=
  (wiring.clients client).isSome != (wiring.clientIdentities client).isSome ||
    (wiring.supervision (clientSupervision client)).isSome && (wiring.clients client).isNone ||
    (wiring.retirement client).isSome && (wiring.clients client).isNone ||
    (wiring.retirement client).isSome &&
      (wiring.supervision (clientSupervision client)).isSome

def Broker.new (wiring : Wiring) (limits : RuntimeLimits) : Outcome String Broker := do
  rejectIf (256 ≤ limits.maxRetries) "call retry ceiling does not fit the retry counter"
  rejectIf (maxCalls < limits.maxInFlightCalls)
    "call graph in-flight ceiling exceeds broker storage"
  rejectIf (wiring.incomplete 0 || wiring.incomplete 1)
    "call client wiring is incomplete"
  rejectIf (wiring.supervision serverSupervision).isNone "call server supervision missing"
  rejectIf (wiring.supervision clockSupervision).isNone "call time supervision missing"
  pure {
    clients := wiring.clients
    serverSlot := some wiring.serverSlot
    supervision := wiring.supervision
    retirement := wiring.retirement
    calls := List.replicate limits.maxInFlightCalls Call.empty
    highWater := fun _ => 0
    nextServerRequestId := 1
    nowNs := 0
    pendingTerminals := List.replicate maxPendingTerminals none
    timeClosed := false
    timeTerminated := false
    serverDeathReported := false
    serverCall := none
    declaredDeadlineNs := 0
    limits := limits }

/-- The one effect of the graph walk on the broker: the tightest deadline it found. -/
def Broker.verifyGraph (broker : Broker) (declaredDeadlineNs : Nat) : Broker :=
  { broker with declaredDeadlineNs }

namespace Broker

def retryIntervalNs (broker : Broker) : Nat :=
  broker.declaredDeadlineNs / (broker.limits.maxRetries + 1)

def deadlineFromNow (broker : Broker) : Nat :=
  CheckedWord.saturatingAddNat broker.nowNs broker.declaredDeadlineNs

def canReceiveClient (broker : Broker) (client : Client) : Bool :=
  (broker.pendingTerminals.filter fun pending =>
    pending.any fun call => call.clientIndex == client).length <
      pendingTerminalsPerClient broker.limits.maxInFlightCalls

def freeCall (broker : Broker) : Option Nat :=
  broker.calls.findIdx? fun call => call.phase == .free

def findCall (broker : Broker) (serverRequestId : Nat) : Option Nat :=
  broker.calls.findIdx? fun call =>
    (call.phase == .awaitingReply || call.phase == .cancelling) &&
      call.serverRequestId == serverRequestId

/-- The lowest outstanding terminal of a client, over both tables. -/
def lowestPendingTerminal (broker : Broker) (client : Client) : Option Nat :=
  let note (lowest : Option Nat) (call : Call) : Option Nat :=
    if call.clientIndex == client && lowest.all (call.requestId < ·) then some call.requestId
    else lowest
  (broker.calls.filter (·.phase == .pendingTerminal) ++
    broker.pendingTerminals.filterMap id).foldl note none

def finished (broker : Broker) : Bool :=
  broker.calls.all (·.phase == .free) && broker.pendingTerminals.all Option.isNone &&
    (broker.clients 0).isNone && (broker.clients 1).isNone && broker.serverSlot.isNone &&
    broker.timeClosed

end Broker

inductive Code where
  | success | wouldBlock | outOfMemory | other
deriving DecidableEq

inductive Receipt where
  | wouldBlock
  | failed
  | message (message : Message)
deriving DecidableEq

structure Loan where
  slot : Nat
  id : Nat
deriving DecidableEq

inductive Supervision where
  | running | terminated | broken
deriving DecidableEq

/-- What the runtime answers, by the number of calls the broker has made before. -/
structure Runtime where
  recv : Nat → Receipt
  send : Nat → Code
  trySend : Nat → Code
  capabilityImport : Nat → Nat
  capabilityDelegate : Nat → Code
  sharedBufferLoan : Nat → Except Code Loan
  sharedBufferCreate : Nat → Option Nat
  /-- Mapping, unmapping, sealing a buffer and returning a loan. -/
  sharedBufferCode : Nat → Code
  supervisionStatus : Nat → Supervision
  notificationPoll : Nat → Bool

/-- What the broker did to the outside. An offer names the record it was made for, or none
when that is a terminal of the overflow queue. -/
inductive Event where
  | created (slot : Nat)
  | released (slot : Nat)
  | revoked (slot loanId : Nat)
  | returned (loanSlot : Nat)
  | dropped (slot : Nat)
  | replied (message : WireCallEnvelope)
  | sent (message : WireCallEnvelope)
  | delegated (descriptor : WireSampleDescriptor)
  | offered (record : Option Nat) (client : Client) (message : WireCallEnvelope)
deriving DecidableEq

structure World where
  broker : Broker
  clock : Nat
  log : List Event

abbrev Handler (α : Type) := FallibleCall.Call World String α

def fail {α : Type} (reason : String) : Handler α := Call.lift (.error (.returned reason))

def consult {α : Type} (answer : Nat → α) : Handler α := fun world =>
  (.ok (answer world.clock), { world with clock := world.clock + 1 })

def emit (event : Event) : Handler Unit :=
  Call.modify fun world => { world with log := world.log ++ [event] }

def getBroker : Handler Broker := do
  let world ← Call.read
  pure world.broker

def modifyBroker (f : Broker → Broker) : Handler Unit :=
  Call.modify fun world => { world with broker := f world.broker }

def getCall (index : Nat) : Handler Call := do
  let broker ← getBroker
  Call.lift (unwrap broker.calls[index]?)

def updateCall (index : Nat) (f : Call → Call) : Handler Unit :=
  modifyBroker fun broker => { broker with calls := broker.calls.modify index f }

def setCall (index : Nat) (call : Call) : Handler Unit := updateCall index fun _ => call

def setPending (index : Nat) (pending : Option Call) : Handler Unit :=
  modifyBroker fun broker =>
    { broker with pendingTerminals := broker.pendingTerminals.set index pending }

/-- `for index in 0..count`, with the flag that some pass made progress. -/
def sweep (count : Nat) (body : Nat → Handler Bool) : Handler Bool :=
  (List.range count).foldlM (fun progressed index => do
    let moved ← body index
    pure (progressed || moved)) false

def sweepCalls (body : Nat → Handler Bool) : Handler Bool := do
  let broker ← getBroker
  sweep broker.calls.length body

variable (runtime : Runtime)

def releaseCaps (caps : List Nat) : Handler Unit :=
  caps.foldlM (fun _ slot => if slot ≠ 0 then emit (.dropped slot) else pure ()) ()

def settlePayload (payload : Payload) : Handler Unit :=
  match payload with
  | .shared slot _ | .sharedReply slot _ => emit (.released slot)
  | .sharedOutstanding slot loanId | .cancellingShared slot loanId _ => do
    emit (.revoked slot loanId)
    emit (.released slot)
  | .none | .inline _ | .inlineReply _ => pure ()

def settleOutstandingRequest (index : Nat) : Handler Unit := do
  let call ← getCall index
  match call.payload with
  | .sharedOutstanding slot loanId | .cancellingShared slot loanId _ => do
    emit (.revoked slot loanId)
    emit (.released slot)
    updateCall index fun call => { call with payload := .none }
  | _ => pure ()

def expectSuccess (code : Code) (reason : String) : Handler Unit :=
  if code = .success then pure () else fail reason

def relaySharedPayload (loanSlot : Nat) : Handler Nat := do
  if (← consult runtime.sharedBufferCode) ≠ .success then
    emit (.returned loanSlot)
    fail "shared relay source map"
  else
    match ← consult runtime.sharedBufferCreate with
    | none => fail "shared relay create"
    | some slot => do
      emit (.created slot)
      expectSuccess (← consult runtime.sharedBufferCode) "shared relay target map"
      expectSuccess (← consult runtime.sharedBufferCode) "shared relay settle"
      emit (.returned loanSlot)
      expectSuccess (← consult runtime.sharedBufferCode) "shared relay settle"
      expectSuccess (← consult runtime.sharedBufferCode) "shared relay settle"
      expectSuccess (← consult runtime.sharedBufferCode) "shared relay settle"
      pure slot

def terminalEnvelope (session requestId : Nat) (status : Int) : WireCallEnvelope :=
  { version := formatVersion, kind := kindTerminal, flags := 0, session, requestId,
    typeIdentity := typeTag, status, payloadLen := 0, payload := Vector.replicate 16 0 }

def trySend (record : Option Nat) (client : Client) (message : WireCallEnvelope) :
    Handler Code := do
  emit (.offered record client message)
  consult runtime.trySend

/-- A non-blocking send reports nothing about delivery, so its success is not one here. -/
def trySendTerminal (record : Option Nat) (call : Call) (status : Int) : Handler Code := do
  match ← trySend runtime record call.clientIndex
      (terminalEnvelope call.clientSession call.requestId status) with
  | .success => pure .wouldBlock
  | code => pure code

def finish (index : Nat) (status : Int) : Handler Unit := do
  let call ← getCall index
  if call.phase = .free then pure ()
  else
    settlePayload call.payload
    updateCall index fun call => { call with payload := .none }
    match ← trySendTerminal runtime (some index) call status with
    | .success => setCall index .empty
    | .wouldBlock =>
      updateCall index fun call =>
        { call with phase := .pendingTerminal, terminalStatus := status }
    | _ => fail "call terminal"

def pumpTerminal (index : Nat) : Handler Bool := do
  let call ← getCall index
  match ← trySendTerminal runtime (some index) call call.terminalStatus with
  | .success => do
    setCall index .empty
    pure true
  | .wouldBlock => do
    if ¬ call.offered then updateCall index fun call => { call with offered := true }
    pure false
  | _ => fail "call terminal"

def retireTerminal (client : Client) (requestId : Nat) : Handler Unit := do
  let _ ← sweepCalls fun index => do
    let call ← getCall index
    if call.phase = .pendingTerminal ∧ call.clientIndex = client ∧ call.requestId = requestId then
      setCall index .empty
    pure false
  let broker ← getBroker
  let _ ← sweep broker.pendingTerminals.length fun index => do
    let broker ← getBroker
    let pending ← Call.lift (unwrap broker.pendingTerminals[index]?)
    if pending.any fun call => call.clientIndex == client && call.requestId == requestId then
      setPending index none
    pure false
  pure ()

def retireReply (client : Client) (requestId : Nat) : Handler Unit := do
  let _ ← sweepCalls fun index => do
    let call ← getCall index
    if call.phase = .forwardingReply ∧ call.clientIndex = client ∧ call.requestId = requestId then
      settlePayload call.payload
      setCall index .empty
    pure false
  pure ()

def pumpPendingTerminals : Handler Bool := do
  let broker ← getBroker
  sweep broker.pendingTerminals.length fun index => do
    let current ← getBroker
    match ← Call.lift (unwrap current.pendingTerminals[index]?) with
    | none => pure false
    | some call =>
      if broker.lowestPendingTerminal call.clientIndex ≠ some call.requestId then pure false
      else
        match ← trySendTerminal runtime none call call.terminalStatus with
        | .success => do
          setPending index none
          pure true
        | .wouldBlock => pure false
        | _ => fail "call terminal"

def reclaimClient (slot : Nat) : Handler Unit := do
  let _ ← sweepCalls fun index => do
    let call ← getCall index
    if call.phase ≠ .free ∧ call.clientSlot = slot then
      settlePayload call.payload
      setCall index .empty
    pure false
  pure ()

def Broker.rejection (broker : Broker) (client : Client) (slot session requestId : Nat)
    (status : Int) : Call :=
  { phase := .pendingTerminal, requestId, serverRequestId := 0, clientSession := session,
    clientSlot := slot, clientIndex := client, retries := 0,
    deadlineNs := broker.deadlineFromNow, nextRetryNs := 0, terminalStatus := status,
    offered := false, payload := .none }

def rejectTerminal (client : Client) (slot session requestId : Nat) (status : Int) :
    Handler Unit := do
  let broker ← getBroker
  let pending := broker.rejection client slot session requestId status
  match broker.freeCall with
  | some index => setCall index pending
  | none =>
    match broker.pendingTerminals.findIdx? Option.isNone with
    | none => do
      modifyBroker fun broker =>
        { broker with clients := Function.update broker.clients client none }
      reclaimClient slot
      emit (.dropped slot)
    | some index => setPending index (some pending)

def send (message : WireCallEnvelope) : Handler Code := do
  emit (.sent message)
  consult runtime.send

def capabilityDelegate (descriptor : WireSampleDescriptor) : Handler Code := do
  emit (.delegated descriptor)
  consult runtime.capabilityDelegate

def Broker.retried (broker : Broker) (call : Call) : Call :=
  { call with
    retries := min (call.retries + 1) 255
    nextRetryNs := CheckedWord.saturatingAddNat broker.nowNs broker.retryIntervalNs }

/-- What a forward does with the answer of its send: the record moves on, or is retried until
the ceiling. -/
def settleForward (index : Nat) (next : Payload) (result : Code) : Handler Unit := do
  let broker ← getBroker
  match result with
  | .success => do
    updateCall index fun call =>
      { call with
        phase := if call.phase = .cancelling then .cancelling else .awaitingReply
        payload := next }
    let call ← getCall index
    modifyBroker fun broker => { broker with serverCall := some call.serverRequestId }
  | .wouldBlock => do
    updateCall index broker.retried
    let call ← getCall index
    if broker.limits.maxRetries ≤ call.retries then
      finish runtime index
        (if call.phase = .cancelling then statusCancelled else statusRetryExhausted)
  | _ => fail "call forward"

def forward (index : Nat) : Handler Unit := do
  let broker ← getBroker
  match broker.serverSlot with
  | none => finish runtime index statusPeerDead
  | some _ =>
    if broker.serverCall.isSome then
      updateCall index fun call => { call with phase := .forwarding }
    else
      let call ← getCall index
      match call.payload with
      | .inline message => do
        let sent ← send runtime
          { message with session := session, requestId := call.serverRequestId }
        settleForward runtime index .none sent
      | .shared slot descriptor =>
        match broker.supervision serverSupervision with
        | none => fail "call server supervision missing"
        | some _ =>
          match ← consult runtime.sharedBufferLoan with
          | .error .wouldBlock | .error .outOfMemory => pure ()
          | .error _ => fail "shared request loan"
          | .ok loan => do
            let sent ← capabilityDelegate runtime
              { descriptor with sequence := call.serverRequestId, loanId := loan.id }
            if sent = .success then
              settleForward runtime index (.sharedOutstanding slot loan.id) sent
            else
              emit (.revoked slot loan.id)
              settleForward runtime index .none sent
      | .cancellingShared slot loanId message => do
        let sent ← send runtime message
        settleForward runtime index
          (if sent = .success then .sharedOutstanding slot loanId else .none) sent
      | .none | .sharedOutstanding _ _ | .inlineReply _ | .sharedReply _ _ =>
        fail "forward invalid payload"

def clientSession (client : Client) : Nat :=
  0x00c1000000000001 + client.val * 0x0001000000000000

def Broker.admission (broker : Broker) (client : Client) (slot session requestId : Nat)
    (payload : Payload) : Call :=
  { phase := .forwarding, requestId, serverRequestId := broker.nextServerRequestId,
    clientSession := session, clientSlot := slot, clientIndex := client, retries := 0,
    deadlineNs := broker.deadlineFromNow, nextRetryNs := broker.nowNs, terminalStatus := 0,
    offered := false, payload }

def admitCall (client : Client) (slot session requestId : Nat) (payload : Payload) :
    Handler Unit := do
  let broker ← getBroker
  if session ≠ clientSession client then
    settlePayload payload
    rejectTerminal client slot session requestId statusStale
  else if requestId ≤ broker.highWater client then
    settlePayload payload
    rejectTerminal client slot session requestId statusDuplicate
  else
    match broker.freeCall with
    | none => do
      settlePayload payload
      rejectTerminal client slot session requestId statusRetryExhausted
    | some index =>
      if 2 ^ 64 ≤ broker.nextServerRequestId + 1 then fail "server correlation exhausted"
      else
        modifyBroker fun current =>
          { current with
            nextServerRequestId := current.nextServerRequestId + 1
            highWater := Function.update current.highWater client requestId
            calls := current.calls.set index
              (broker.admission client slot session requestId payload) }
        forward runtime index

def cancelEnvelope (serverRequestId : Nat) : WireCallEnvelope :=
  { version := formatVersion, kind := kindCancel, flags := 0, session := session,
    requestId := serverRequestId, typeIdentity := typeTag, status := statusCancelled,
    payloadLen := 0, payload := Vector.replicate 16 0 }

/-- A call with its cancellation staged as its payload. Only a request the server holds keeps
its buffer beside the cancellation. -/
def Broker.staged (broker : Broker) (call : Call) : Call :=
  { call with
    phase := .cancelling
    payload :=
      match call.payload with
      | .sharedOutstanding slot loanId =>
        .cancellingShared slot loanId (cancelEnvelope call.serverRequestId)
      | _ => .inline (cancelEnvelope call.serverRequestId)
    retries := 0
    nextRetryNs := broker.nowNs
    terminalStatus := statusCancelled
    deadlineNs := broker.deadlineFromNow }

def Broker.cancelled (broker : Broker) (clientSlot : Nat) (message : WireCallEnvelope) :
    Option Nat :=
  broker.calls.findIdx? fun call =>
    call.phase != .free && call.requestId == message.requestId &&
      call.clientSession == message.session && call.clientSlot == clientSlot

def cancel (client : Client) (clientSlot : Nat) (message : WireCallEnvelope) :
    Handler Unit := do
  let broker ← getBroker
  match broker.cancelled clientSlot message with
  | none => rejectTerminal client clientSlot message.session message.requestId statusStale
  | some index => do
    let call ← getCall index
    if call.phase = .awaitingReply ∨ call.phase = .forwarding then
      if broker.serverSlot.isNone then finish runtime index statusPeerDead
      else updateCall index broker.staged
    else finish runtime index statusCancelled

def receiveEnvelope (client : Client) (slot : Nat) (length : Nat) (message : WireCallEnvelope) :
    Handler Unit :=
  if length ≠ maxMsg ∨ ¬ validCallEnvelope message typeTag then
    rejectTerminal client slot (max message.session 1) (max message.requestId 1) statusStale
  else if message.kind = kindTerminalAck then do
    emit (.replied message)
    retireTerminal client message.requestId
  else if message.kind = kindReplyAck then do
    emit (.replied message)
    retireReply client message.requestId
  else if message.session = session then
    rejectTerminal client slot message.session message.requestId statusStale
  else if message.kind = kindRequest then
    admitCall runtime client slot message.session message.requestId (.inline message)
  else if message.kind = kindCancel then cancel runtime client slot message
  else rejectTerminal client slot message.session message.requestId statusStale

def receiveDescriptor (client : Client) (slot : Nat) (message : Message)
    (descriptor : WireSampleDescriptor) : Handler Unit := do
  let loanSlot ← consult runtime.capabilityImport
  if ¬ message.decodes then
    if loanSlot ≠ 0 then emit (.dropped loanSlot)
  else if message.length ≠ maxMsg ∨ loanSlot = 0 ∨
      ¬ validSampleDescriptor descriptor descriptor.loanId typeTag page ∨
      descriptor.capabilityKind ≠ capabilityKindLoan then
    if loanSlot ≠ 0 then emit (.returned loanSlot)
    rejectTerminal client slot (clientSession client) (max descriptor.sequence 1) statusStale
  else
    let bufferSlot ← relaySharedPayload runtime loanSlot
    admitCall runtime client slot (clientSession client) descriptor.sequence
      (.shared bufferSlot descriptor)

def handleClientRecord (client : Client) (slot : Nat) (message : Message) : Handler Unit :=
  match message.tagged with
  | .call envelope => do
    releaseCaps message.caps
    if message.decodes then receiveEnvelope runtime client slot message.length envelope
  | .sample descriptor => receiveDescriptor runtime client slot message descriptor
  | .time _ | .unknown => releaseCaps message.caps

def pumpClient (client : Client) : Handler Bool := do
  let broker ← getBroker
  if ¬ broker.canReceiveClient client then pure false
  else
    match broker.clients client with
    | none => pure false
    | some slot =>
      match ← consult runtime.recv with
      | .wouldBlock => pure false
      | .failed => fail "client recv"
      | .message message => do
        handleClientRecord runtime client slot message
        pure true

def offerInlineReply (index : Nat) (outward : WireCallEnvelope) : Handler Bool := do
  let call ← getCall index
  match ← trySend runtime (some index) call.clientIndex outward with
  | .success => pure false
  | _ => fail "reply delivery"

def deliverInlineReply (index : Nat) (outward : WireCallEnvelope) : Handler Unit := do
  updateCall index fun call =>
    { call with phase := .forwardingReply, payload := .inlineReply outward, offered := false }
  let _ ← offerInlineReply runtime index outward

/-- Lend the reply's buffer to the client and hand the loan over. `keep` is what becomes of
the record when either has to wait. -/
def lendReply (index : Nat) (bufferSlot : Nat) (descriptor : WireSampleDescriptor)
    (keep : WireSampleDescriptor → Handler Unit) : Handler Bool := do
  let call ← getCall index
  let broker ← getBroker
  match broker.supervision (clientSupervision call.clientIndex) with
  | none => fail "shared reply client supervision unavailable"
  | some _ =>
    match ← consult runtime.sharedBufferLoan with
    | .error .wouldBlock | .error .outOfMemory => do
      keep descriptor
      pure false
    | .error _ => fail "shared client loan"
    | .ok loan => do
      let outward := { descriptor with loanId := loan.id }
      match ← capabilityDelegate runtime outward with
      | .success => do
        emit (.released bufferSlot)
        setCall index .empty
        pure true
      | .wouldBlock => do
        emit (.revoked bufferSlot loan.id)
        keep outward
        pure false
      | _ => fail "shared reply delivery"

def deliverSharedReply (index : Nat) (descriptor : WireSampleDescriptor) (bufferSlot : Nat) :
    Handler Unit := do
  let _ ← lendReply runtime index bufferSlot descriptor fun descriptor =>
    updateCall index fun call =>
      { call with phase := .forwardingReply, payload := .sharedReply bufferSlot descriptor }

def pumpReplies : Handler Bool :=
  sweepCalls fun index => do
    let call ← getCall index
    if call.phase ≠ .forwardingReply then pure false
    else
      match call.payload with
      | .inlineReply reply => offerInlineReply runtime index reply
      -- A retry that has to wait again leaves the descriptor of the first attempt.
      | .sharedReply bufferSlot descriptor =>
        lendReply runtime index bufferSlot descriptor fun _ => pure ()
      | _ => fail "pending reply payload"

def handleReply (reply : WireCallEnvelope) : Handler Unit := do
  let broker ← getBroker
  match broker.findCall reply.requestId with
  | none => pure ()
  | some index =>
    if reply.kind = kindHeld then pure ()
    else
      settleOutstandingRequest index
      let call ← getCall index
      let outward :=
        { reply with session := call.clientSession, requestId := call.requestId }
      if call.phase = .cancelling then
        if outward.status = statusCancelled then finish runtime index statusCancelled
      else deliverInlineReply runtime index outward

def handleSharedReply (message : Message) (descriptor : WireSampleDescriptor) :
    Handler Unit := do
  let loanSlot ← consult runtime.capabilityImport
  if ¬ message.decodes then
    if loanSlot ≠ 0 then emit (.dropped loanSlot)
  else
    let broker ← getBroker
    match broker.findCall descriptor.sequence with
    | none => if loanSlot ≠ 0 then emit (.returned loanSlot)
    | some index =>
      if message.length ≠ maxMsg ∨ loanSlot = 0 ∨
          ¬ validSampleDescriptor descriptor descriptor.loanId typeTag page then
        if loanSlot ≠ 0 then emit (.returned loanSlot)
        finish runtime index statusMalformedReply
      else
        settleOutstandingRequest index
        let call ← getCall index
        if call.phase = .cancelling then
          emit (.returned loanSlot)
          finish runtime index statusCancelled
        else
          let bufferSlot ← relaySharedPayload runtime loanSlot
          deliverSharedReply runtime index { descriptor with sequence := call.requestId }
            bufferSlot

def handleServerRecord (message : Message) : Handler Unit := do
  modifyBroker fun broker => { broker with serverCall := none }
  match message.tagged with
  | .call reply => do
    releaseCaps message.caps
    if message.decodes then
      if message.length = maxMsg ∧ validCallEnvelope reply typeTag ∧
          (reply.kind = kindReply ∨ reply.kind = kindHeld) ∧ reply.session = session then
        handleReply runtime reply
      else
        let broker ← getBroker
        match broker.findCall reply.requestId with
        | some index => finish runtime index statusMalformedReply
        | none => pure ()
  | .sample descriptor => handleSharedReply runtime message descriptor
  | .time _ | .unknown => releaseCaps message.caps

def pumpServer : Handler Bool := do
  let broker ← getBroker
  match broker.serverSlot with
  | none => pure false
  | some _ =>
    match ← consult runtime.recv with
    | .wouldBlock => pure false
    | .failed => fail "server recv"
    | .message message => do
      handleServerRecord runtime message
      pure true

def offerLowest (lowest : Client → Option Nat) (client : Client) : Handler Bool := do
  match lowest client with
  | none => pure false
  | some target => do
    let broker ← getBroker
    match broker.calls.findIdx? fun call =>
        call.phase == .pendingTerminal && call.clientIndex == client &&
          call.requestId == target with
    | some index => pumpTerminal runtime index
    | none => pure false

def Payload.cancellationSent : Payload → Payload
  | .cancellingShared slot loanId _ => .sharedOutstanding slot loanId
  | _ => .none

/-- Deliver a staged cancellation once the server is not busy with another message. -/
def forwardCancellation (index : Nat) : Handler Bool := do
  let broker ← getBroker
  let call ← getCall index
  if call.phase ≠ .cancelling ∨ broker.serverCall.isSome then pure false
  else
    match call.payload with
    | .inline message | .cancellingShared _ _ message =>
      match broker.serverSlot with
      | none => do
        finish runtime index statusPeerDead
        pure true
      | some _ => do
        expectSuccess (← send runtime message) "call cancel forward"
        updateCall index fun call => { call with payload := call.payload.cancellationSent }
        modifyBroker fun broker => { broker with serverCall := some call.serverRequestId }
        pure true
    | _ => pure false

def retryDeferred : Handler Bool := do
  let broker ← getBroker
  if broker.serverCall.isSome then pure false
  else
    match broker.calls.findIdx? fun call => call.phase == .forwarding with
    | some index => do
      forward runtime index
      pure true
    | none => pure false

def pumpTerminals : Handler Bool := do
  let broker ← getBroker
  let first ← offerLowest runtime broker.lowestPendingTerminal 0
  let second ← offerLowest runtime broker.lowestPendingTerminal 1
  let cancelled ← sweepCalls (forwardCancellation runtime)
  let retried ← retryDeferred runtime
  pure (first || second || cancelled || retried)

/-- A timeout of the call the server is executing releases the server. -/
def Broker.releaseServer (serverRequestId : Nat) (broker : Broker) : Broker :=
  { broker with
    serverCall :=
      if broker.serverCall = some serverRequestId then none else broker.serverCall }

def expire (index : Nat) : Handler Bool := do
  let broker ← getBroker
  let call ← getCall index
  if call.phase = .free then pure false
  else if call.deadlineNs ≤ broker.nowNs then do
    modifyBroker (Broker.releaseServer call.serverRequestId)
    finish runtime index (if call.phase = .cancelling then statusCancelled else statusTimeout)
    pure true
  else if (call.phase = .forwarding ∨ call.phase = .cancelling) ∧ call.payload ≠ .none ∧
      call.nextRetryNs ≤ broker.nowNs then do
    forward runtime index
    pure true
  else pure false

def Message.advance (message : Message) : Option WireCallTimeAdvance :=
  match message.record with
  | .time advance => some advance
  | _ => none

def advanceTime (nowNs : Nat) : Handler Unit := do
  modifyBroker fun broker => { broker with nowNs }
  let _ ← sweepCalls (expire runtime)

def pumpTime : Handler Bool := do
  let broker ← getBroker
  if broker.timeClosed then pure false
  else
    match ← consult runtime.recv with
    | .wouldBlock =>
      if broker.timeTerminated then do
        modifyBroker fun broker => { broker with timeClosed := true }
        pure true
      else
        match broker.supervision clockSupervision with
        | none => fail "call time supervision missing"
        | some _ =>
          match ← consult runtime.supervisionStatus with
          | .running => pure false
          | .terminated => do
            modifyBroker fun broker => { broker with timeTerminated := true }
            pure true
          | .broken => fail "call time supervision"
    | .failed => fail "call time recv"
    | .message message => do
      releaseCaps message.caps
      if message.decodes then
        match message.advance with
        | none => fail "invalid call time"
        | some value =>
          if message.length ≠ maxMsg ∨ ¬ validCallTimeAdvance value ∨
              value.nowNs < broker.nowNs then fail "invalid call time"
          else advanceTime runtime value.nowNs
      pure true

def reclaimAll (status : Int) : Handler Unit := do
  let _ ← sweepCalls fun index => do
    finish runtime index status
    pure false

def retireServer : Handler Unit := do
  let broker ← getBroker
  if broker.serverSlot.isNone then pure ()
  else
    modifyBroker fun broker => { broker with serverSlot := none }
    reclaimAll runtime statusPeerDead

def observeServerDeath : Handler Bool := do
  let broker ← getBroker
  if broker.serverDeathReported then pure false
  else
    match broker.supervision serverSupervision with
    | none => fail "call server supervision missing"
    | some _ =>
      match ← consult runtime.supervisionStatus with
      | .running => pure false
      | .terminated => do
        modifyBroker fun broker => { broker with serverDeathReported := true }
        retireServer runtime
        pure true
      | .broken => fail "server supervision"

def clientDead (client : Client) : Handler Bool := do
  let broker ← getBroker
  match broker.supervision (clientSupervision client), broker.retirement client with
  | some _, _ => do
    match ← consult runtime.supervisionStatus with
    | .running => pure false
    | .terminated => pure true
    | .broken => fail "client supervision"
  | none, some _ => consult runtime.notificationPoll
  | none, none => pure false

def reclaimDeadClient (client : Client) : Handler Bool := do
  let broker ← getBroker
  match broker.clients client with
  | none => pure false
  | some slot => do
    if ← clientDead runtime client then
      modifyBroker fun broker =>
        { broker with clients := Function.update broker.clients client none }
      reclaimClient slot
      emit (.dropped slot)
      let broker ← getBroker
      let _ ← sweep broker.pendingTerminals.length fun index => do
        let broker ← getBroker
        let pending ← Call.lift (unwrap broker.pendingTerminals[index]?)
        if pending.any fun call => call.clientIndex == client then setPending index none
        pure false
      pure true
    else pure false

def reclaimDeadClients : Handler Bool := do
  let first ← reclaimDeadClient runtime 0
  let second ← reclaimDeadClient runtime 1
  pure (first || second)

/-- The handlers of the run loop. The loop calls them in a fixed order; a run here may call
them in any. -/
inductive Pump where
  | client (client : Client)
  | serverDeath
  | terminals
  | pendingTerminals
  | server
  | replies
  | time
  | deadClients
deriving DecidableEq

def perform : Pump → Handler Bool
  | .client client => pumpClient runtime client
  | .serverDeath => observeServerDeath runtime
  | .terminals => pumpTerminals runtime
  | .pendingTerminals => pumpPendingTerminals runtime
  | .server => pumpServer runtime
  | .replies => pumpReplies runtime
  | .time => pumpTime runtime
  | .deadClients => reclaimDeadClients runtime

/-- One handler of the loop. There is no world after a handler that ended the task. -/
def step (world : Option World) (pump : Pump) : Option World :=
  world.bind fun world =>
    match perform runtime pump world with
    | (.ok _, after) => some after
    | (.error _, _) => none

def World.start (broker : Broker) (declaredDeadlineNs : Nat) : World :=
  { broker := broker.verifyGraph declaredDeadlineNs, clock := 0, log := [] }

end SlimeOs.CallBroker
