import Mathlib.Data.List.Count
import Mathlib.Data.List.Induction
import SlimeOs.CallTurns

/-!
The shared buffers the broker makes: each is in one record's payload until it is released.

Every turn of a record moves its buffer or releases it, except the staging of a cancellation,
which forgets the buffer of a request that is still queued.
-/

namespace SlimeOs.CallBroker

open FallibleCall List Broker Call

def Payload.holds (slot : Nat) (payload : Payload) : Bool := payload.bufferSlot == some slot

def Payload.count (slot : Nat) (payload : Payload) : Nat := if payload.holds slot then 1 else 0

def handCount (slot : Nat) (hand : Option Nat) : Nat := if hand = some slot then 1 else 0

def holders (slot : Nat) (calls : List Call) : Nat := calls.countP fun call =>
  call.payload.holds slot

variable (slot : Nat) (payload : Payload)

theorem count_eq_handCount : payload.count slot = handCount slot payload.bufferSlot := by
  simp [Payload.count, Payload.holds, handCount]

@[simp] theorem count_none : Payload.none.count slot = 0 := rfl

@[simp] theorem count_inlineReply (message : WireCallEnvelope) :
    (Payload.inlineReply message).count slot = 0 := rfl

variable {call call' : Call} {index : Nat} {broker : Broker} {limits : RuntimeLimits}
  {wiring : Wiring}

theorem holders_set {slot : Nat} {calls : List Call} (hcall : calls[index]? = some call) :
    holders slot (calls.set index call') + call.payload.count slot =
      holders slot calls + call'.payload.count slot := by
  obtain ⟨hlt, rfl⟩ := List.getElem_of_getElem? hcall
  have hle : (if calls[index].payload.holds slot then 1 else 0) ≤
      calls.countP fun call => call.payload.holds slot := by
    split
    next hholds =>
      exact countP_pos_iff.mpr ⟨calls[index], getElem_mem hlt, hholds⟩
    · exact Nat.zero_le _
  unfold holders Payload.count
  rw [countP_set hlt]
  omega

theorem count_released_settled : payload.settled.count (.released slot) = payload.count slot := by
  cases payload <;>
    simp [Payload.settled, Payload.count, Payload.holds, Payload.bufferSlot, count_cons]

theorem count_created_settled : payload.settled.count (.created slot) = 0 := by
  cases payload <;> simp [Payload.settled]

/-- A settled call holds no buffer, and one that awaits its reply only the buffer it has lent. -/
structure Call.Kept (call : Call) : Prop where
  settled : call.phase = .free ∨ call.phase = .pendingTerminal → call.payload = .none
  awaiting : call.phase = .awaitingReply → call.payload = .none ∨ call.payload.isLent

structure Balanced (t : Tables) : Prop where
  kept : ∀ call ∈ t.calls, call.Kept
  count : ∀ slot, t.log.count (.created slot) =
    t.log.count (.released slot) + holders slot t.calls + handCount slot t.hand

/-- Staging a cancellation keeps the buffer of a request only when that is lent to the server. -/
def Payload.survivesStaging : Payload → Bool
  | .shared .. | .cancellingShared .. | .sharedReply .. => false
  | _ => true

def StagesKept (_ : Tables) : Label → Prop
  | .staged call => call.phase = .forwarding → call.payload.survivesStaging
  | _ => True

theorem tolerates_stagesKept : Tolerates StagesKept :=
  ⟨fun _ _ _ => trivial, fun _ _ _ => trivial, fun _ _ _ => trivial, fun _ _ _ => trivial,
    fun _ _ _ => trivial⟩

theorem kept_empty : empty.Kept := ⟨fun _ => rfl, nofun⟩

theorem none_of_awaiting {payload : Payload} (h : payload = .none ∨ payload.isLent)
    (hsettled : payload.outstanding = false) : payload = .none := by
  cases payload <;> simp_all [Payload.isLent, Payload.outstanding]

theorem count_staged {slot : Nat} (hpayload : call.payload.survivesStaging) :
    (broker.staged call).payload.count slot = call.payload.count slot := by
  cases hcase : call.payload <;>
    simp_all [staged, Payload.survivesStaging, Payload.count, Payload.holds,
      Payload.bufferSlot]

theorem Turn.balance {hand hand' : Option Nat} {label : Option Label} {events : List Event}
    {t : Tables} (hturn : Turn index hand label call events call' hand') (hkept : call.Kept)
    (hallowed : ∀ l ∈ label, StagesKept t l) (slot : Nat) :
    call'.Kept ∧ events.count (.created slot) = 0 ∧
      events.count (.released slot) + call'.payload.count slot + handCount slot hand' =
        call.payload.count slot + handCount slot hand := by
  cases hturn with
  | retouched alike =>
    refine ⟨⟨?_, ?_⟩, rfl, ?_⟩
    · rw [alike.phase, alike.payload]
      exact hkept.settled
    · rw [alike.phase, alike.payload]
      exact hkept.awaiting
    · simp [alike.payload]
  | rejected free pending payload =>
    have hnone := hkept.settled (.inl free)
    refine ⟨⟨fun _ => payload, fun hphase => nomatch pending.symm.trans hphase⟩, rfl, ?_⟩
    simp [hnone, payload]
  | vacated live =>
    refine ⟨kept_empty, count_created_settled slot _, ?_⟩
    simp [count_released_settled, empty]
  | retired pending =>
    have hnone := hkept.settled (.inr pending)
    exact ⟨kept_empty, rfl, by simp [hnone, empty]⟩
  | offeredTerminal pending => exact ⟨hkept, by simp [terminal], by simp [terminal]⟩
  | offeredReply payload answered => exact ⟨hkept, by simp, by simp⟩
  | finished status live =>
    refine ⟨⟨fun _ => rfl, nofun⟩, ?_, ?_⟩
    · simp [count_created_settled, terminal]
    · simp [count_released_settled, terminal]
  | deferred queued => exact ⟨⟨by simp, by simp⟩, rfl, by simp⟩
  | forwarded queued hslot hnext =>
    refine ⟨⟨?_, fun _ => hnext⟩, rfl, ?_⟩
    · split <;> simp
    · simp [count_eq_handCount, hslot]
  | staged broker hopen =>
    have hsurvives : call.payload.survivesStaging := by
      rcases hopen with hphase | hphase
      · have hlent := hkept.awaiting hphase
        cases hcase : call.payload <;> simp_all [Payload.isLent, Payload.survivesStaging]
      · exact hallowed _ rfl hphase
    exact ⟨⟨by simp [Broker.staged], by simp [Broker.staged]⟩, rfl,
      by simp [count_staged hsurvives]⟩
  | settledRequest outstanding waiting =>
    refine ⟨⟨fun _ => rfl, fun _ => .inl rfl⟩, count_created_settled slot _, ?_⟩
    simp [count_released_settled]
  | answered waiting settled kind requestId =>
    have hnone := none_of_awaiting (hkept.awaiting waiting) settled
    exact ⟨⟨by simp, by simp⟩, rfl, by simp [hnone]⟩
  | answeredShared waiting settled held =>
    have hnone := none_of_awaiting (hkept.awaiting waiting) settled
    refine ⟨⟨by simp, by simp⟩, rfl, ?_⟩
    simp [hnone, held, count_eq_handCount, Payload.bufferSlot, handCount]

theorem balanced_move {t t' : Tables} (h : Balanced t) (hmove : Move StagesKept t t') :
    Balanced t' := by
  cases hmove with
  | @turn index label call call' events hand found turn allowed =>
    have hcall := h.kept call (mem_of_getElem? found)
    constructor
    · intro other hother
      rcases mem_or_eq_of_mem_set hother with hmem | rfl
      · exact h.kept other hmem
      · exact (turn.balance hcall allowed 0).1
    intro slot
    obtain ⟨-, hcreated, hreleased⟩ := turn.balance hcall allowed slot
    have hholders : holders slot (t.calls.set index call') + call.payload.count slot =
        holders slot t.calls + call'.payload.count slot := holders_set found
    have hcount := h.count slot
    simp only [count_append]
    omega
  | @admitted index call call' found free phase hslot request session later allowed =>
    have hcall := h.kept call (mem_of_getElem? found)
    constructor
    · intro other hother
      rcases mem_or_eq_of_mem_set hother with hmem | rfl
      · exact h.kept other hmem
      · exact ⟨by simp [phase], by simp [phase]⟩
    intro slot
    have hholders : holders slot (t.calls.set index call') + call.payload.count slot =
        holders slot t.calls + call'.payload.count slot := holders_set found
    have hplaced : call'.payload.count slot = handCount slot t.hand := by
      rw [count_eq_handCount, hslot]
    have hcount := h.count slot
    have hempty : handCount slot none = 0 := rfl
    rw [hcall.settled (.inl free), count_none] at hholders
    simp only
    omega
  | queued found allowed => exact ⟨h.kept, h.count⟩
  | unqueued => exact ⟨h.kept, h.count⟩
  | reoffered found => exact ⟨h.kept, fun slot => by simpa [terminal] using h.count slot⟩
  | @relayed created empty =>
    refine ⟨h.kept, fun slot => ?_⟩
    have hcount := h.count slot
    rw [empty] at hcount
    by_cases heq : created = slot
    · subst heq
      simp [handCount] at hcount ⊢
      omega
    · simpa [handCount, heq, count_singleton] using hcount
  | @discarded released held =>
    refine ⟨h.kept, fun slot => ?_⟩
    have hcount := h.count slot
    rw [held] at hcount
    by_cases heq : released = slot
    · subst heq
      simp [handCount] at hcount ⊢
      omega
    · simpa [handCount, heq, count_singleton] using hcount
  | @noted event quiet =>
    refine ⟨h.kept, fun slot => ?_⟩
    have hcount := h.count slot
    cases event <;> simp_all [Event.quiet]

theorem new_calls (h : new wiring limits = .ok broker) :
    broker.calls = List.replicate limits.maxInFlightCalls .empty ∧
      broker.pendingTerminals = List.replicate maxPendingTerminals none := by
  simp only [new, Outcome.bind_eq_ok_iff, Outcome.pure_eq_ok_iff] at h
  obtain ⟨_, -, _, -, _, -, _, -, _, -, rfl⟩ := h
  exact ⟨rfl, rfl⟩

theorem balanced_start (h : new wiring limits = .ok broker) (declaredDeadlineNs : Nat) :
    Balanced ((World.start broker declaredDeadlineNs).tables none) := by
  have hcalls : ((World.start broker declaredDeadlineNs).tables none).calls =
      replicate limits.maxInFlightCalls .empty := (new_calls h).1
  constructor
  · intro call hcall
    rw [hcalls] at hcall
    rw [(mem_replicate.mp hcall).2]
    exact kept_empty
  intro slot
  have hnone : holders slot (replicate limits.maxInFlightCalls empty) = 0 := by
    simp [holders, countP_replicate, empty, Payload.holds, Payload.bufferSlot]
  rw [hcalls, hnone]
  rfl

/-- The runtime creates a buffer in a slot only when the buffers it created there before have
been released. -/
def FreshSlots (log : List Event) : Prop :=
  ∀ before slot after, log = before ++ .created slot :: after →
    before.count (.created slot) = before.count (.released slot)

theorem count_created_le {log : List Event} (h : FreshSlots log) (slot : Nat) :
    log.count (.created slot) ≤ log.count (.released slot) + 1 := by
  induction log using reverseRecOn with
  | nil => exact Nat.zero_le _
  | append_singleton log event ih =>
    have hlog : FreshSlots log := by
      intro before slot after hlog
      exact h before slot (after ++ [event]) (by rw [hlog]; simp)
    have hle := ih hlog
    by_cases heq : event = .created slot
    · have hfresh := h log slot [] (by rw [heq])
      subst heq
      simp [count_append, hfresh]
    · simp only [count_append, count_singleton, beq_iff_eq, heq]
      simp only [if_false]
      omega

/-- The call record is in use and its payload is the buffer in the slot. -/
def Broker.HoldsBuffer (broker : Broker) (slot index : Nat) : Prop :=
  ∃ call, broker.calls[index]? = some call ∧ call.phase ≠ .free ∧
    call.payload.bufferSlot = some slot

theorem index_unique {α : Type} {p : α → Bool} {xs : List α} (hcount : xs.countP p ≤ 1)
    {i j : Nat} {a b : α} (hi : xs[i]? = some a) (ha : p a) (hj : xs[j]? = some b) (hb : p b) :
    i = j := by
  -- Two places with a place between them are counted in two parts of the list.
  have hnot {i j : Nat} {a b : α} (hi : xs[i]? = some a) (ha : p a) (hj : xs[j]? = some b)
      (hb : p b) : ¬ i < j := by
    intro hlt
    have hsplit := congrArg (countP p) (take_append_drop j xs)
    have hfirst := countP_pos_iff.mpr ⟨a, mem_of_getElem? ((getElem?_take_of_lt hlt).trans hi), ha⟩
    have hsecond : 0 < (xs.drop j).countP p :=
      countP_pos_iff.mpr ⟨b, mem_of_getElem? (i := 0) (by simpa using hj), hb⟩
    rw [countP_append] at hsplit
    omega
  have hij := hnot hi ha hj hb
  have hji := hnot hj hb hi ha
  omega

/-- No client cancels a call whose request is still queued at the broker with a shared
payload. -/
def noQueuedBufferCancelled (runtime : Runtime) (world : World) : Pump → Bool
  | .client client =>
    match world.broker.clients client, runtime.recv world.clock with
    | some slot, .message message =>
      (world.broker.cancels slot message).all fun call =>
        call.phase != .forwarding || call.payload.survivesStaging
    | _, _ => true
  | _ => true

theorem allows_of_noQueuedBufferCancelled {runtime : Runtime} {world : World} {pump : Pump}
    (h : noQueuedBufferCancelled runtime world pump) : Allows runtime StagesKept world pump := by
  cases pump with
  | client client =>
    intro slot message hslot hmessage
    simp only [noQueuedBufferCancelled, hslot, hmessage] at h
    refine ⟨fun _ _ _ _ _ _ => trivial, ?_, fun _ _ _ _ => trivial⟩
    intro call hcall _ _ hphase
    rw [Option.mem_def.mp hcall] at h
    simpa [hphase] using h
  | time => exact fun _ _ _ _ => ⟨fun _ _ _ _ _ _ => trivial, fun _ _ _ _ _ _ _ => trivial⟩
  | serverDeath => exact fun _ _ _ _ _ _ => trivial
  | _ => trivial

theorem holders_cases (hkept : ∀ call ∈ broker.calls, call.Kept)
    (hle : holders slot broker.calls ≤ 1) :
    holders slot broker.calls = 1 ∧ (∃! index, broker.HoldsBuffer slot index) ∨
      holders slot broker.calls = 0 ∧ ∀ index, ¬ broker.HoldsBuffer slot index := by
  have hholds {call : Call} (h : call.payload.bufferSlot = some slot) :
      call.payload.holds slot := beq_iff_eq.mpr h
  by_cases hzero : holders slot broker.calls = 0
  · refine .inr ⟨hzero, ?_⟩
    rintro index ⟨call, hcall, -, hslot⟩
    exact countP_eq_zero.mp hzero call (mem_of_getElem? hcall) (hholds hslot)
  refine .inl ⟨by omega, ?_⟩
  obtain ⟨call, hmem, hcall⟩ := countP_pos_iff.mp (Nat.pos_of_ne_zero hzero)
  obtain ⟨index, hindex⟩ := mem_iff_getElem?.mp hmem
  have hslot := beq_iff_eq.mp hcall
  refine ⟨index, ⟨call, hindex, ?_, hslot⟩, ?_⟩
  · intro hfree
    rw [(hkept call hmem).settled (.inl hfree)] at hslot
    nomatch hslot
  · rintro other ⟨call', hother, -, hslot'⟩
    exact index_unique hle hother (hholds hslot') hindex hcall

/-- Every buffer the broker created is in the payload of a call record in use or was released,
once, and none is left when the loop ends. -/
theorem buffers_held_or_released (runtime : Runtime) (wiring : Wiring) (limits : RuntimeLimits)
    (broker : Broker) (hnew : Broker.new wiring limits = .ok broker) (declaredDeadlineNs : Nat)
    (pumps : List Pump) (hpumps : Permitted (step runtime)
      (fun state pump => along (noQueuedBufferCancelled runtime) state pump)
      (some (World.start broker declaredDeadlineNs)) pumps)
    (world : World)
    (hrun : run (step runtime) (some (World.start broker declaredDeadlineNs)) pumps = some world) :
    (∀ slot, world.log.count (.created slot) =
      world.log.count (.released slot) + holders slot world.broker.calls) ∧
    (FreshSlots world.log → ∀ slot, .created slot ∈ world.log →
      (world.log.count (.created slot) = world.log.count (.released slot) + 1 ∧
        ∃! index, world.broker.HoldsBuffer slot index) ∨
      (world.log.count (.created slot) = world.log.count (.released slot) ∧
        ∀ index, ¬ world.broker.HoldsBuffer slot index)) ∧
    (world.broker.finished → ∀ slot,
      world.log.count (.created slot) = world.log.count (.released slot)) := by
  have hbalanced :=
    run_tables runtime Balanced (noQueuedBufferCancelled runtime) tolerates_stagesKept
      (fun _ _ => allows_of_noQueuedBufferCancelled) (fun _ _ => balanced_move)
      (balanced_start hnew declaredDeadlineNs) hpumps hrun
  have hcount (slot : Nat) : world.log.count (.created slot) =
      world.log.count (.released slot) + holders slot world.broker.calls :=
    hbalanced.count slot
  refine ⟨hcount, ?_, ?_⟩
  · intro hfresh slot _
    have hle := count_created_le hfresh slot
    have heq := hcount slot
    rcases holders_cases slot hbalanced.kept (by omega) with ⟨hone, hholds⟩ | ⟨hzero, hnone⟩
    · exact .inl ⟨by omega, hholds⟩
    · exact .inr ⟨by omega, hnone⟩
  · intro hfinished slot
    have hfree : ∀ call ∈ world.broker.calls, call.phase = .free := by
      simp only [Broker.finished, Bool.and_eq_true, List.all_eq_true, beq_iff_eq] at hfinished
      exact hfinished.1.1.1.1.1
    have hzero : holders slot world.broker.calls = 0 := by
      apply countP_eq_zero.mpr
      intro call hcall
      rw [(hbalanced.kept call hcall).settled (.inl (hfree call hcall))]
      nofun
    rw [hcount slot, hzero, Nat.add_zero]

def sampleWiring : Wiring where
  clients client := if client = 0 then some 10 else none
  clientIdentities client := if client = 0 then some [99] else none
  serverSlot := 20
  supervision handle := if handle = 1 then none else some handle.val
  retirement _ := none

def sampleLimits : RuntimeLimits := ⟨4, 2⟩

def sampleBroker : Broker where
  clients := sampleWiring.clients
  serverSlot := some 20
  supervision := sampleWiring.supervision
  retirement := sampleWiring.retirement
  calls := List.replicate 4 .empty
  highWater _ := 0
  nextServerRequestId := 1
  nowNs := 0
  pendingTerminals := List.replicate maxPendingTerminals none
  timeClosed := false
  timeTerminated := false
  serverDeathReported := false
  serverCall := none
  declaredDeadlineNs := 0
  limits := sampleLimits

theorem sampleBroker_new : new sampleWiring sampleLimits = .ok sampleBroker := rfl

def sampleStart : Option World := some (World.start sampleBroker 1000)

def clientEnvelope (kind requestId : Nat) (status : Int) : Receipt :=
  .message {
    length := 64
    record := .call {
      version := 1, kind, flags := 0, session := clientSession 0, requestId,
      typeIdentity := typeTag, status, payloadLen := 0, payload := Vector.replicate 16 0 }
    caps := [] }

def clientDescriptor (sequence : Nat) : Receipt :=
  .message {
    length := 64
    record := .sample {
      version := 1, flags := 0, capabilityKind := capabilityKindLoan, loanId := 7, offset := 0,
      length := page, typeIdentity := typeTag, sequence, reserved := Vector.replicate 8 0 }
    caps := [] }

/-- A runtime whose calls succeed and whose peers are gone once they are asked about. -/
def sampleRuntime (recv : Nat → Receipt) : Runtime where
  recv := recv
  send _ := .success
  trySend _ := .success
  capabilityImport _ := 5
  capabilityDelegate _ := .success
  sharedBufferLoan clock := .ok ⟨clock, clock⟩
  sharedBufferCreate clock := some clock
  sharedBufferCode _ := .success
  supervisionStatus _ := .terminated
  notificationPoll _ := false

/-- The end of every sample run: the server, the client and the clock are found dead. -/
def samplePumpsEnd : List Pump := [.serverDeath, .deadClients, .time, .time]

def lentRuntime : Runtime := sampleRuntime fun clock =>
  if clock = 0 then clientDescriptor 1 else .wouldBlock

/-- A request the server is busy with, then one in a lent page, and its cancellation. -/
def leakRuntime : Runtime := sampleRuntime fun clock =>
  if clock = 0 then clientEnvelope kindRequest 1 statusSuccess
  else if clock = 2 then clientDescriptor 2
  else if clock = 11 then clientEnvelope kindCancel 2 statusCancelled
  else .wouldBlock

theorem queued_buffer_leaked :
    (run (step leakRuntime) sampleStart
      ([.client 0, .client 0, .client 0] ++ samplePumpsEnd)).any (fun world =>
        world.log.count (.created 5) == 1 && world.log.count (.released 5) == 0 &&
          holders 5 world.broker.calls == 0 && world.broker.finished) = true := by
  decide +kernel

theorem lent_buffer_released :
    Permitted (step lentRuntime)
        (fun state pump => along (noQueuedBufferCancelled lentRuntime) state pump)
        sampleStart ([.client 0] ++ samplePumpsEnd) ∧
      ∃ world, run (step lentRuntime) sampleStart ([.client 0] ++ samplePumpsEnd) = some world ∧
        world.log.count (.created 3) = 1 ∧ world.log.count (.released 3) = 1 := by
  have hpumps : Permitted (step lentRuntime)
      (fun state pump => along (noQueuedBufferCancelled lentRuntime) state pump)
      sampleStart ([.client 0] ++ samplePumpsEnd) := by decide +kernel
  have hend : (run (step lentRuntime) sampleStart ([.client 0] ++ samplePumpsEnd)).any
      (fun world => world.broker.finished && world.log.count (.created 3) == 1) = true := by
    decide +kernel
  generalize hrun : run (step lentRuntime) sampleStart ([.client 0] ++ samplePumpsEnd) = state
    at hend
  obtain _ | world := state
  · nomatch hend
  obtain ⟨hfinished, hcreated⟩ : world.broker.finished = true ∧
      world.log.count (.created 3) = 1 := by simpa using hend
  have hreleased := (buffers_held_or_released lentRuntime sampleWiring sampleLimits
    sampleBroker sampleBroker_new 1000 _ hpumps world hrun).2.2 hfinished 3
  exact ⟨hpumps, world, rfl, hcreated, hreleased.symm.trans hcreated⟩

end SlimeOs.CallBroker
