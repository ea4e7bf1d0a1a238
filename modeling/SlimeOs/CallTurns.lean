import SlimeOs.CallBroker

/-!
What the handlers of the call broker can do to its tables, as one relation.

A record of the call table goes through the turns of `Turn`; a handler makes a sequence of
moves, each a turn of one record, a change of the overflow queue or an event of the log. The
four turns whose legitimacy the callers decide carry a label. Each handler is taken apart
once here, and what holds of every run follows from what each move keeps.
-/

namespace SlimeOs.CallBroker

open FallibleCall List FallibleCall.Call World Broker Event

/-- The events that neither move a buffer nor reach a client's endpoint. -/
def Event.quiet : Event → Bool
  | .revoked .. | .returned .. | .dropped .. | .replied .. | .sent .. | .delegated .. => true
  | .created .. | .released .. | .offered .. => false

def Event.isOffer : Event → Bool
  | .offered .. => true
  | _ => false

def Payload.settled : Payload → List Event
  | .shared slot _ | .sharedReply slot _ => [.released slot]
  | .sharedOutstanding slot loanId | .cancellingShared slot loanId _ =>
    [.revoked slot loanId, .released slot]
  | .none | .inline _ | .inlineReply _ => []

def Payload.outstanding : Payload → Bool
  | .sharedOutstanding .. | .cancellingShared .. => true
  | _ => false

def Payload.isLent : Payload → Bool
  | .sharedOutstanding .. => true
  | _ => false

def Call.terminal (call : Call) (record : Option Nat) (status : Int) : Event :=
  .offered record call.clientIndex
    (terminalEnvelope call.clientSession call.requestId status)

/-- The parts of a record that say which request it is for and how it stands. -/
structure Call.Alike (call call' : Call) : Prop where
  phase : call'.phase = call.phase
  requestId : call'.requestId = call.requestId
  clientSession : call'.clientSession = call.clientSession
  clientIndex : call'.clientIndex = call.clientIndex
  payload : call'.payload = call.payload
  terminalStatus : call'.terminalStatus = call.terminalStatus

inductive Label where
  | opened (record : Option Nat) (client : Client) (requestId : Nat)
  | finished (call : Call) (status : Int)
  | deferred (call : Call)
  | staged (call : Call)

/-- The turns of one record. `hand` is a buffer the handler has created and not yet placed. -/
inductive Turn (index : Nat) (hand : Option Nat) :
    Option Label → Call → List Event → Call → Option Nat → Prop where
  | retouched {call call' : Call} (alike : call.Alike call') :
      Turn index hand none call [] call' hand
  | rejected {call call' : Call} (free : call.phase = .free)
      (pending : call'.phase = .pendingTerminal) (payload : call'.payload = .none) :
      Turn index hand (some (.opened (some index) call'.clientIndex call'.requestId))
        call [] call' hand
  | vacated {call : Call} (live : call.phase ≠ .free) :
      Turn index hand none call call.payload.settled .empty hand
  | retired {call : Call} (pending : call.phase = .pendingTerminal) :
      Turn index hand none call [] .empty hand
  | offeredTerminal {call : Call} (pending : call.phase = .pendingTerminal) :
      Turn index hand none call [call.terminal (some index) call.terminalStatus] call hand
  | offeredReply {call : Call} {reply : WireCallEnvelope}
      (payload : call.payload = .inlineReply reply) (answered : call.phase = .forwardingReply) :
      Turn index hand none call [.offered (some index) call.clientIndex reply] call hand
  | finished {call : Call} (status : Int) (live : call.phase ≠ .free) :
      Turn index hand (some (.finished call status)) call
        (call.payload.settled ++ [call.terminal (some index) status])
        { call with phase := .pendingTerminal, payload := .none, terminalStatus := status } hand
  | deferred {call : Call} (queued : call.phase = .forwarding ∨ call.phase = .cancelling) :
      Turn index hand (some (.deferred call)) call [] { call with phase := .forwarding } hand
  | forwarded {call : Call} {next : Payload}
      (queued : call.phase = .forwarding ∨ call.phase = .cancelling)
      (slot : next.bufferSlot = call.payload.bufferSlot)
      (next_cases : next = .none ∨ next.isLent) :
      Turn index hand none call []
        { call with
          phase := if call.phase = .cancelling then .cancelling else .awaitingReply
          payload := next } hand
  | staged {call : Call} (broker : Broker)
      (open_ : call.phase = .awaitingReply ∨ call.phase = .forwarding) :
      Turn index hand (some (.staged call)) call [] (broker.staged call) hand
  | settledRequest {call : Call} (outstanding : call.payload.outstanding)
      (waiting : call.phase = .awaitingReply ∨ call.phase = .cancelling) :
      Turn index hand none call call.payload.settled { call with payload := .none } hand
  | answered {call : Call} {reply : WireCallEnvelope} (waiting : call.phase = .awaitingReply)
      (settled : call.payload.outstanding = false) (kind : reply.kind = kindReply)
      (requestId : reply.requestId = call.requestId) :
      Turn index hand none call []
        { call with phase := .forwardingReply, payload := .inlineReply reply, offered := false }
        hand
  | answeredShared {call : Call} {slot : Nat} {descriptor : WireSampleDescriptor}
      (waiting : call.phase = .awaitingReply) (settled : call.payload.outstanding = false)
      (held : hand = some slot) :
      Turn index hand none call []
        { call with phase := .forwardingReply, payload := .sharedReply slot descriptor } none

structure Tables where
  hand : Option Nat
  calls : List Call
  pending : List (Option Call)
  highWater : Client → Nat
  log : List Event

def World.tables (world : World) (hand : Option Nat) : Tables :=
  { hand, calls := world.broker.calls, pending := world.broker.pendingTerminals,
    highWater := world.broker.highWater, log := world.log }

def Tables.offers (tables : Tables) : List Event := tables.log.filter Event.isOffer

inductive Move (Allowed : Tables → Label → Prop) (t : Tables) : Tables → Prop where
  | turn {index : Nat} {label : Option Label} {call call' : Call} {events : List Event}
      {hand : Option Nat} (found : t.calls[index]? = some call)
      (turn : Turn index t.hand label call events call' hand)
      (allowed : ∀ l ∈ label, Allowed t l) :
      Move Allowed t
        { t with hand, calls := t.calls.set index call', log := t.log ++ events }
  | admitted {index : Nat} {call call' : Call} (found : t.calls[index]? = some call)
      (free : call.phase = .free) (phase : call'.phase = .forwarding)
      (slot : call'.payload.bufferSlot = t.hand)
      (request : ∀ reply, call'.payload ≠ .inlineReply reply)
      (session : call'.clientSession = clientSession call'.clientIndex)
      (later : t.highWater call'.clientIndex < call'.requestId)
      (allowed : Allowed t (.opened (some index) call'.clientIndex call'.requestId)) :
      Move Allowed t
        { t with
          hand := none
          calls := t.calls.set index call'
          highWater := Function.update t.highWater call'.clientIndex call'.requestId }
  | queued {index : Nat} {call : Call} (found : t.pending[index]? = some none)
      (allowed : Allowed t (.opened none call.clientIndex call.requestId)) :
      Move Allowed t { t with pending := t.pending.set index (some call) }
  | unqueued {index : Nat} : Move Allowed t { t with pending := t.pending.set index none }
  | reoffered {index : Nat} {call : Call} (found : t.pending[index]? = some (some call)) :
      Move Allowed t { t with log := t.log ++ [call.terminal none call.terminalStatus] }
  | relayed {slot : Nat} (empty : t.hand = none) :
      Move Allowed t { t with hand := some slot, log := t.log ++ [.created slot] }
  | discarded {slot : Nat} (held : t.hand = some slot) :
      Move Allowed t { t with hand := none, log := t.log ++ [.released slot] }
  | noted {event : Event} (quiet : event.quiet) :
      Move Allowed t { t with log := t.log ++ [event] }

/-- The moves every caller allows: the ones a handler makes without asking what became of the
record before. -/
structure Tolerates (Allowed : Tables → Label → Prop) : Prop where
  peerDead : ∀ t call, call.phase = .awaitingReply ∨ call.phase = .forwarding ∨
    call.phase = .cancelling → Allowed t (.finished call statusPeerDead)
  malformed : ∀ t call, call.phase = .awaitingReply ∨ call.phase = .cancelling →
    Allowed t (.finished call statusMalformedReply)
  cancelled : ∀ t call, call.phase = .cancelling → Allowed t (.finished call statusCancelled)
  exhausted : ∀ t call, call.phase = .forwarding →
    Allowed t (.finished call statusRetryExhausted)
  deferred : ∀ t call, call.phase = .forwarding → Allowed t (.deferred call)

def World.withCall (world : World) (index : Nat) (call : Call) : World :=
  { world with broker := { world.broker with calls := world.broker.calls.set index call } }

variable {α : Type} {call call' : Call} {message : Message} {reply : WireCallEnvelope}
  {descriptor : WireSampleDescriptor} {payload next : Payload} {client : Client} {hand : Option Nat}
  {index slot bufferSlot requestId count : Nat} {status : Int} {reason : String} {xs : List α}
  {world after middle start : World} {post : α → World → Prop} {P : World → Prop}
  {Allowed : Tables → Label → Prop} {t : Tables} {first : Handler α} {body : Nat → Handler Bool}
  {pump : Pump} (runtime : Runtime)

theorem getCall_eq (hcall : world.broker.calls[index]? = some call) :
    getCall index world = (.ok call, world) := by
  change Call.lift (Outcome.unwrap world.broker.calls[index]?) world = _
  rw [hcall]
  rfl

theorem returns_getCall {rest : Call → Handler α}
    (h : ∀ call, world.broker.calls[index]? = some call → Returns (rest call) world post) :
    Returns (getCall index >>= rest) world post := by
  refine returns_bind (fun _ _ hcall => lift_ok_iff.mp hcall) ?_
  rintro call _ ⟨hfound, rfl⟩
  exact h call (Outcome.unwrap_eq_ok_iff.mp hfound)

theorem updateCall_eq {f : Call → Call} (hcall : world.broker.calls[index]? = some call) :
    updateCall index f world = (.ok (), world.withCall index (f call)) := by
  have hset : world.broker.calls.modify index f = world.broker.calls.set index (f call) := by
    rw [modify_eq_set_getElem?, hcall]
    rfl
  change (Except.ok (), { world with
    broker := { world.broker with calls := world.broker.calls.modify index f } }) = _
  rw [hset]
  rfl

theorem settlePayload_eq (payload : Payload) (world : World) :
    settlePayload payload world = (.ok (), { world with log := world.log ++ payload.settled }) := by
  cases payload <;> simp [settlePayload, Payload.settled, emit, Call.modify, bind_apply, pure]

theorem fail_returns : Returns (fail reason) world post := by
  intro a after h
  simp [fail] at h

theorem returns_then_pure {β : Type} {b : β} (h : Returns first world fun _ after => P after) :
    Returns (first >>= fun _ => pure b) world fun _ after => P after :=
  returns_bind h fun _ _ hafter => returns_pure hafter

theorem returns_left {Q : World → Prop} (h : Returns first world fun _ after => P after ∧ Q after) :
    Returns first world fun _ after => P after :=
  returns_weaken h fun _ _ hafter => hafter.1

theorem returns_expectSuccess {code : Code}
    {rest : Unit → Handler α} (h : Returns (rest ()) world post) :
    Returns (expectSuccess code reason >>= rest) world post := by
  unfold expectSuccess
  split
  · exact returns_then rfl h
  · exact returns_bind fail_returns fun _ _ => False.elim

/-- Some allowed moves lead from `t` to the tables of the world. -/
def Reaches (Allowed : Tables → Label → Prop) (t : Tables) (hand : Option Nat)
    (world : World) : Prop :=
  Relation.ReflTransGen (Move Allowed) t (world.tables hand)

abbrev Onward {α : Type} (Allowed : Tables → Label → Prop) (t : Tables) (hand : Option Nat) :
    α → World → Prop :=
  fun _ after => Reaches Allowed t hand after

theorem unlabelled {P : Label → Prop} : ∀ l ∈ (none : Option Label), P l := by
  intro l hl
  simp at hl

theorem Reaches.turn {label : Option Label} {call : Call}
    {events : List Event} {hand' : Option Nat} (h : Reaches Allowed t hand world)
    (hcall : world.broker.calls[index]? = some call)
    (hturn : Turn index hand label call events call' hand')
    (hallowed : ∀ l ∈ label, Allowed (world.tables hand) l)
    (hafter : after.tables hand' =
      { world.tables hand with
        hand := hand', calls := world.broker.calls.set index call', log := world.log ++ events }) :
    Reaches Allowed t hand' after := by
  unfold Reaches
  rw [hafter]
  exact h.tail (.turn hcall hturn hallowed)

theorem Reaches.withCall {label : Option Label}
    {hand' : Option Nat} (h : Reaches Allowed t hand world)
    (hcall : world.broker.calls[index]? = some call)
    (hturn : Turn index hand label call [] call' hand')
    (hallowed : ∀ l ∈ label, Allowed (world.tables hand) l) :
    Reaches Allowed t hand' (world.withCall index call') :=
  h.turn hcall hturn hallowed (by simp [World.tables, World.withCall])

theorem Reaches.idle (h : Reaches Allowed t hand world)
    (hafter : after.tables hand = world.tables hand) : Reaches Allowed t hand after := by
  unfold Reaches
  rw [hafter]
  exact h

/-- A handler's pass over one record leaves every other record and the time alone. -/
structure Beside (index : Nat) (world after : World) : Prop where
  calls : ∀ j, j ≠ index → after.broker.calls[j]? = world.broker.calls[j]?
  nowNs : after.broker.nowNs = world.broker.nowNs

theorem Beside.refl : Beside index world world := ⟨fun _ _ => rfl, rfl⟩

theorem Beside.trans (h : Beside index world middle)
    (h' : Beside index middle after) : Beside index world after :=
  ⟨fun j hj => (h'.calls j hj).trans (h.calls j hj), h'.nowNs.trans h.nowNs⟩

theorem Beside.of_set (hcalls : ∃ call, after.broker.calls = world.broker.calls.set index call)
    (hnow : after.broker.nowNs = world.broker.nowNs) : Beside index world after := by
  obtain ⟨call, hcalls⟩ := hcalls
  constructor
  · intro j hj
    rw [hcalls, getElem?_set_ne hj.symm]
  · exact hnow

theorem Beside.withCall : Beside index world (world.withCall index call) := .of_set ⟨call, rfl⟩ rfl

theorem Beside.of_broker (h : after.broker = world.broker) : Beside index world after :=
  ⟨fun _ _ => by rw [h], by rw [h]⟩

theorem Beside.of_before {before : World} (h : Beside index before after)
    (hbefore : before.broker = world.broker) : Beside index world after :=
  .trans (.of_broker hbefore) h

theorem getElem?_withCall (hcall : world.broker.calls[index]? = some call) :
    (world.withCall index call').broker.calls[index]? = some call' := by
  have hlt := (List.getElem_of_getElem? hcall).1
  simp [withCall, hlt]

/-- An offered terminal is never taken for delivered. -/
theorem trySendTerminal_returns {record : Option Nat} :
    Returns (trySendTerminal runtime record call status) world fun code after =>
      code ≠ .success ∧
        after = { world with
          clock := world.clock + 1, log := world.log ++ [call.terminal record status] } := by
  refine returns_then rfl ?_
  split
  · exact returns_pure ⟨nofun, rfl⟩
  next hcode =>
    exact returns_pure ⟨hcode, rfl⟩

theorem finish_reaches (h : Reaches Allowed t hand world)
    (hallowed : ∀ call, world.broker.calls[index]? = some call → call.phase ≠ .free →
      Allowed (world.tables hand) (.finished call status)) :
    Returns (finish runtime index status) world fun _ after =>
      Reaches Allowed t hand after ∧ Beside index world after := by
  refine returns_getCall fun call hcall => ?_
  split
  · exact returns_pure ⟨h, .refl⟩
  rename_i hlive
  refine returns_then (settlePayload_eq call.payload world) ?_
  refine returns_then (updateCall_eq hcall) ?_
  refine returns_bind (trySendTerminal_returns runtime) ?_
  rintro code _ ⟨hcode, rfl⟩
  split
  · contradiction
  · refine returns_of_eq (updateCall_eq (getElem?_withCall hcall)) ?_
    refine ⟨h.turn hcall (.finished status hlive) ?_ ?_, .of_set ⟨_, set_set _⟩ rfl⟩
    · rintro l ⟨⟩
      exact hallowed call hcall hlive
    · simp [tables, withCall]
  · exact fail_returns

theorem finish_reaches_of
    (h : Reaches Allowed t hand world) (hcall : world.broker.calls[index]? = some call)
    (hallowed : Allowed (world.tables hand) (.finished call status)) :
    Returns (finish runtime index status) world fun _ after =>
      Reaches Allowed t hand after ∧ Beside index world after := by
  apply finish_reaches runtime h
  intro found hfound _
  obtain rfl := Option.mem_unique hcall hfound
  exact hallowed

theorem sweep_returns (Inv : Nat → World → Prop) (hstart : Inv 0 world)
    (hbody : ∀ index middle, index < count → Inv index middle →
      Returns (body index) middle fun _ after => Inv (index + 1) after) :
    Returns (sweep count body) world fun _ after => Inv count after := by
  refine returns_weaken (returns_fold Inv (List.range count) hstart ?_) ?_
  · intro i index progressed middle hindex hinv
    obtain ⟨hi, hindex⟩ := List.getElem_of_getElem? hindex
    rw [length_range] at hi
    obtain rfl : i = index := by simpa using hindex
    refine returns_bind (hbody i middle hi hinv) ?_
    intro moved after hafter
    exact returns_pure hafter
  · intro _ after hafter
    rwa [length_range] at hafter

theorem sweep_reaches (h : Reaches Allowed t hand world)
    (hbody : ∀ index middle, Reaches Allowed t hand middle →
      Returns (body index) middle (Onward Allowed t hand)) :
    Returns (sweep count body) world (Onward Allowed t hand) :=
  sweep_returns (fun _ => Reaches Allowed t hand) h fun index middle _ => hbody index middle

theorem sweepCalls_reaches (h : Reaches Allowed t hand world)
    (hbody : ∀ index middle, Reaches Allowed t hand middle →
      Returns (body index) middle (Onward Allowed t hand)) :
    Returns (sweepCalls body) world (Onward Allowed t hand) := by
  exact returns_then rfl (sweep_reaches h hbody)

theorem sweepCalls_each (h : Reaches Allowed t hand world)
    (hbody : ∀ index middle, Reaches Allowed t hand middle →
      middle.broker.nowNs = world.broker.nowNs →
      middle.broker.calls[index]? = world.broker.calls[index]? →
        Returns (body index) middle fun _ after =>
          Reaches Allowed t hand after ∧ Beside index middle after) :
    Returns (sweepCalls body) world (Onward Allowed t hand) := by
  refine returns_weaken (returns_then rfl (sweep_returns (fun index after =>
    Reaches Allowed t hand after ∧ after.broker.nowNs = world.broker.nowNs ∧
      ∀ j, index ≤ j → after.broker.calls[j]? = world.broker.calls[j]?) ?_ ?_)) ?_
  · exact ⟨h, rfl, fun _ _ => rfl⟩
  · rintro index middle - ⟨hmiddle, hnow, hrest⟩
    refine returns_weaken (hbody index middle hmiddle hnow (hrest index (Nat.le_refl _))) ?_
    rintro _ after ⟨hafter, hbeside⟩
    refine ⟨hafter, hbeside.nowNs.trans hnow, fun j hj => ?_⟩
    rw [hbeside.calls j (by omega), hrest j (by omega)]
  · exact fun _ _ hafter => hafter.1

theorem set_eq_self {a : α} (h : xs[index]? = some a) : xs.set index a = xs := by
  obtain ⟨hlt, rfl⟩ := List.getElem_of_getElem? h
  exact set_getElem_self hlt

theorem pumpTerminal_reaches (h : Reaches Allowed t hand world)
    (hpending : ∀ call, world.broker.calls[index]? = some call → call.phase = .pendingTerminal) :
    Returns (pumpTerminal runtime index) world (Onward Allowed t hand) := by
  refine returns_getCall fun call hcall => ?_
  refine returns_bind (trySendTerminal_returns runtime) ?_
  rintro code offered ⟨hcode, hoffered⟩
  have hcalls : offered.broker.calls[index]? = some call := by rw [hoffered]; exact hcall
  have hreach : Reaches Allowed t hand offered := by
    apply h.turn hcall (.offeredTerminal (hpending call hcall)) unlabelled
    rw [hoffered, set_eq_self hcall]
    rfl
  split
  · contradiction
  · split
    · have halike : call.Alike { call with offered := true } := ⟨rfl, rfl, rfl, rfl, rfl, rfl⟩
      refine returns_then (updateCall_eq hcalls) (returns_pure ?_)
      exact hreach.withCall hcalls (.retouched halike) unlabelled
    · exact returns_pure hreach
  · exact fail_returns

theorem vacate_reaches (h : Reaches Allowed t hand world)
    (hcall : world.broker.calls[index]? = some call) (hlive : call.phase ≠ .free) :
    Reaches Allowed t hand
      ({ world with log := world.log ++ call.payload.settled }.withCall index .empty) :=
  h.turn hcall (.vacated hlive) unlabelled rfl

section

variable (h : Reaches Allowed t hand world)
include h

/-- The sweep of `retireTerminal` and `reclaimDeadClient` over the queue. -/
theorem unqueue_reaches {P : Call → Bool} {result : α} :
    Returns (do
      let _ ← sweep count fun index => do
        let broker ← getBroker
        let pending ← Call.lift (Outcome.unwrap broker.pendingTerminals[index]?)
        if pending.any P then setPending index none
        pure false
      pure result) world (Onward Allowed t hand) := by
  refine returns_then_pure (sweep_reaches h ?_)
  intro index middle hmiddle
  refine returns_then rfl ?_
  refine returns_bind (fun _ after hpending => (lift_ok_iff.mp hpending).2) ?_
  rintro pending _ rfl
  split
  · exact returns_then rfl (returns_pure (hmiddle.tail .unqueued))
  · exact returns_pure hmiddle

theorem retireTerminal_reaches :
    Returns (retireTerminal client requestId) world (Onward Allowed t hand) := by
  refine returns_bind (sweepCalls_reaches h ?_) ?_
  · intro index middle hmiddle
    refine returns_getCall fun call hcall => ?_
    split
    next hmatch =>
      refine returns_then (updateCall_eq hcall) (returns_pure ?_)
      exact hmiddle.withCall hcall (.retired hmatch.1) unlabelled
    · exact returns_pure hmiddle
  · intro _ swept hswept
    exact returns_then rfl (unqueue_reaches hswept)

/-- The sweep of `retireReply` and `reclaimClient`. -/
theorem vacateCalls_reaches {P : Call → Prop} [DecidablePred P]
    (hlive : ∀ call, P call → call.phase ≠ .free) :
    Returns (do
      let _ ← sweepCalls fun index => do
        let call ← getCall index
        if P call then
          settlePayload call.payload
          setCall index .empty
        pure false
      pure ()) world (Onward Allowed t hand) := by
  refine returns_then_pure (sweepCalls_reaches h ?_)
  intro index middle hmiddle
  refine returns_getCall fun call hcall => ?_
  split
  next hmatch =>
    refine returns_then (settlePayload_eq _ _) ?_
    refine returns_then (updateCall_eq hcall) (returns_pure ?_)
    exact vacate_reaches hmiddle hcall (hlive call hmatch)
  · exact returns_pure hmiddle

theorem retireReply_reaches :
    Returns (retireReply client requestId) world (Onward Allowed t hand) :=
  vacateCalls_reaches h fun _ hmatch => by rw [hmatch.1]; nofun

theorem reclaimClient_reaches : Returns (reclaimClient slot) world (Onward Allowed t hand) :=
  vacateCalls_reaches h fun _ hmatch => hmatch.1

theorem pumpPendingTerminals_reaches :
    Returns (pumpPendingTerminals runtime) world (Onward Allowed t hand) := by
  refine returns_then rfl (sweep_reaches h ?_)
  intro index middle hmiddle
  refine returns_then rfl ?_
  refine returns_bind (fun _ after hpending =>
    lift_ok_iff.mp hpending) ?_
  rintro pending _ ⟨hpending, rfl⟩
  split
  · exact returns_pure hmiddle
  split
  · exact returns_pure hmiddle
  refine returns_bind (trySendTerminal_returns runtime) ?_
  rintro code - ⟨hcode, rfl⟩
  split
  · contradiction
  · exact returns_pure
      (hmiddle.tail (.reoffered (Outcome.unwrap_eq_ok_iff.mp hpending)))
  · exact fail_returns

end

def Vacant (tables : Tables) (record : Option Nat) : Prop :=
  ∀ index ∈ record, ∃ call, tables.calls[index]? = some call ∧ call.phase = .free

theorem getElem?_of_findIdx? {p : α → Bool}
    (h : xs.findIdx? p = some index) : ∃ a, xs[index]? = some a ∧ p a = true := by
  obtain ⟨hlt, hp, -⟩ := findIdx?_eq_some_iff_getElem.mp h
  exact ⟨xs[index], getElem?_eq_getElem hlt, hp⟩

theorem rejectTerminal_reaches {session : Nat} (h : Reaches Allowed t hand world)
    (hopen : ∀ record, Vacant (world.tables hand) record →
      Allowed (world.tables hand) (.opened record client requestId)) :
    Returns (rejectTerminal client slot session requestId status) world
      (Onward Allowed t hand) := by
  refine returns_then rfl ?_
  split
  next index hfree =>
    obtain ⟨call, hcall, hphase⟩ := getElem?_of_findIdx? hfree
    have hturn := @Turn.rejected index hand call
      (world.broker.rejection client slot session requestId status)
      (beq_iff_eq.mp hphase) rfl rfl
    refine returns_of_eq (updateCall_eq hcall) (h.withCall hcall hturn ?_)
    rintro l ⟨⟩
    apply hopen
    rintro i ⟨⟩
    exact ⟨call, hcall, beq_iff_eq.mp hphase⟩
  · split
    · refine returns_then rfl ?_
      refine returns_bind (reclaimClient_reaches (h.idle rfl)) ?_
      intro _ reclaimed hreclaimed
      exact returns_of_eq rfl (hreclaimed.tail (.noted rfl))
    rename_i index hvacant
    obtain ⟨pending, hpending, hnone⟩ := getElem?_of_findIdx? hvacant
    obtain rfl := Option.isNone_iff_eq_none.mp hnone
    refine returns_of_eq rfl (h.tail (.queued hpending (hopen none nofun)))

theorem settleForward_reaches {result : Code}
    (ht : Tolerates Allowed) (h : Reaches Allowed t hand world)
    (hstart : world.broker = start.broker) (hcall : world.broker.calls[index]? = some call)
    (hqueued : call.phase = .forwarding ∨ call.phase = .cancelling) (hnext : result = .success →
      next.bufferSlot = call.payload.bufferSlot ∧ (next = .none ∨ next.isLent)) :
    Returns (settleForward runtime index next result) world fun _ after =>
      Reaches Allowed t hand after ∧ Beside index start after := by
  refine returns_then rfl ?_
  split
  · refine returns_then (updateCall_eq hcall) ?_
    refine returns_getCall fun sent _ => ?_
    refine returns_of_eq rfl ⟨?_, .of_before (.of_set ⟨_, rfl⟩ rfl) hstart⟩
    exact (h.withCall hcall (.forwarded hqueued (hnext rfl).1 (hnext rfl).2) unlabelled).idle rfl
  · -- The retry is counted on the record before the ceiling is looked at.
    have halike : call.Alike (world.broker.retried call) := ⟨rfl, rfl, rfl, rfl, rfl, rfl⟩
    have hreach := h.withCall hcall (.retouched halike) unlabelled
    refine returns_then (updateCall_eq hcall) ?_
    refine returns_getCall fun retried hretried => ?_
    rw [getElem?_withCall hcall] at hretried
    obtain rfl := Option.some.inj hretried
    split
    · refine returns_weaken
        (finish_reaches_of runtime hreach (getElem?_withCall hcall) ?_) ?_
      · rcases hqueued with hphase | hphase
        · have hretried : (world.broker.retried call).phase = .forwarding := hphase
          rw [hretried]
          exact ht.exhausted _ _ hretried
        · have hretried : (world.broker.retried call).phase = .cancelling := hphase
          rw [hretried]
          exact ht.cancelled _ _ hretried
      · rintro _ after ⟨hafter, hbeside⟩
        exact ⟨hafter, .of_before (Beside.withCall.trans hbeside) hstart⟩
    · exact returns_pure ⟨hreach, .of_before .withCall hstart⟩
  · exact fail_returns

theorem forward_reaches (ht : Tolerates Allowed)
    (h : Reaches Allowed t hand world) (hcall : world.broker.calls[index]? = some call)
    (hqueued : call.phase = .forwarding ∨ call.phase = .cancelling)
    (hdefer : call.phase = .cancelling → world.broker.serverCall.isSome →
      Allowed (world.tables hand) (.deferred call)) :
    Returns (forward runtime index) world fun _ after =>
      Reaches Allowed t hand after ∧ Beside index world after := by
  refine returns_then rfl ?_
  split
  · exact finish_reaches_of runtime h hcall (ht.peerDead _ call (.inr hqueued))
  split
  · rename_i hbusy
    refine returns_of_eq (updateCall_eq hcall) ⟨?_, .of_set ⟨_, rfl⟩ rfl⟩
    apply h.withCall hcall (.deferred hqueued)
    rintro l ⟨⟩
    rcases hqueued with hphase | hphase
    · exact ht.deferred _ _ hphase
    · exact hdefer hphase hbusy
  · refine returns_then (getCall_eq hcall) ?_
    split
    · rename_i message hpayload
      refine returns_then rfl (settleForward_reaches runtime ht (h.tail (.noted rfl)) rfl hcall
        hqueued fun _ => ?_)
      rw [hpayload]
      exact ⟨rfl, .inl rfl⟩
    · rename_i slot descriptor hpayload
      split
      · exact fail_returns
      refine returns_then rfl ?_
      split
      · exact returns_pure ⟨h.idle rfl, .of_broker rfl⟩
      · exact returns_pure ⟨h.idle rfl, .of_broker rfl⟩
      · exact fail_returns
      refine returns_then rfl ?_
      split
      · refine settleForward_reaches runtime ht (h.tail (.noted rfl)) rfl hcall hqueued fun _ => ?_
        rw [hpayload]
        exact ⟨rfl, .inr rfl⟩
      · rename_i hrefused
        exact returns_then rfl (settleForward_reaches runtime ht
          ((h.tail (.noted rfl)).tail (.noted rfl)) rfl hcall hqueued
          fun hsent => absurd hsent hrefused)
    · rename_i slot loanId message hpayload
      refine returns_then rfl (settleForward_reaches runtime ht (h.tail (.noted rfl)) rfl hcall
        hqueued fun hsent => ?_)
      rw [if_pos hsent, hpayload]
      exact ⟨rfl, .inr rfl⟩
    all_goals exact fail_returns

/-- The world did something beside the tables and offered nothing. -/
structure Aside (world after : World) : Prop where
  broker : after.broker = world.broker
  offers : after.log.filter Event.isOffer = world.log.filter Event.isOffer

/-- The tables hold the calls, the queued terminals and the offers of the world. -/
structure Level (world : World) (tables : Tables) : Prop where
  calls : tables.calls = world.broker.calls
  pending : tables.pending = world.broker.pendingTerminals
  offers : tables.offers = world.log.filter Event.isOffer

theorem Aside.refl : Aside world world := ⟨rfl, rfl⟩

theorem Aside.trans (h : Aside world middle) (h' : Aside middle after) : Aside world after :=
  ⟨h'.broker.trans h.broker, h'.offers.trans h.offers⟩

theorem Aside.level (h : Aside world after) : Level world (after.tables hand) :=
  ⟨by rw [tables, h.broker], by rw [tables, h.broker], h.offers⟩

theorem aside_of_log {events : List Event} (hbroker : after.broker = world.broker)
    (hlog : after.log = world.log ++ events) (hevents : events.filter isOffer = []) :
    Aside world after :=
  ⟨hbroker, by rw [hlog, filter_append, hevents, append_nil]⟩

theorem releaseCaps_reaches {caps : List Nat} (h : Reaches Allowed t hand world) :
    Returns (releaseCaps caps) world fun _ after =>
      Reaches Allowed t hand after ∧ Aside world after := by
  apply returns_fold (fun _ after => Reaches Allowed t hand after ∧ Aside world after) caps
    ⟨h, .refl⟩
  rintro i - _ middle - ⟨hmiddle, haside⟩
  split
  · exact returns_of_eq rfl ⟨hmiddle.tail (.noted rfl), haside.trans (aside_of_log rfl rfl rfl)⟩
  · exact returns_pure ⟨hmiddle, haside⟩

theorem relaySharedPayload_reaches {loanSlot : Nat} (h : Reaches Allowed t none world) :
    Returns (relaySharedPayload runtime loanSlot) world fun slot after =>
      Reaches Allowed t (some slot) after ∧ Aside world after := by
  refine returns_then rfl ?_
  split
  · refine returns_then rfl ?_
    exact fail_returns
  refine returns_then rfl ?_
  split
  · exact fail_returns
  refine returns_then rfl (returns_then rfl ?_)
  apply returns_expectSuccess
  refine returns_then rfl ?_
  apply returns_expectSuccess
  refine returns_then rfl (returns_then rfl ?_)
  apply returns_expectSuccess
  refine returns_then rfl ?_
  apply returns_expectSuccess
  refine returns_then rfl ?_
  apply returns_expectSuccess
  refine returns_pure ⟨?_, ?_⟩
  · exact (h.tail (.relayed rfl)).tail (.noted rfl)
  · exact ⟨rfl, by simp [isOffer]⟩

def Payload.isRequest : Payload → Bool
  | .inline _ | .shared .. => true
  | _ => false

theorem discard_reaches (hrequest : payload.isRequest)
    (h : Reaches Allowed t payload.bufferSlot world) :
    Reaches Allowed t none { world with log := world.log ++ payload.settled } := by
  cases payload with
  | inline message =>
    apply h.idle
    simp [tables, Payload.settled, Payload.bufferSlot]
  | shared slot descriptor => exact h.tail (.discarded rfl)
  | _ => nomatch hrequest

theorem discard_aside : Aside world { world with log := world.log ++ payload.settled } :=
  aside_of_log rfl rfl (by cases payload <;> rfl)

theorem admitCall_reaches {session : Nat}
    (ht : Tolerates Allowed) (h : Reaches Allowed t payload.bufferSlot world)
    (hrequest : payload.isRequest) (hopen : ∀ t record, Level world t → Vacant t record →
      Allowed t (.opened record client requestId)) :
    Returns (admitCall runtime client slot session requestId payload) world
      (Onward Allowed t none) := by
  have hreject (status : Int) : Returns (do
      settlePayload payload
      rejectTerminal client slot session requestId status) world (Onward Allowed t none) := by
    refine returns_then (settlePayload_eq payload world) ?_
    exact rejectTerminal_reaches (discard_reaches hrequest h) fun record =>
      hopen _ record discard_aside.level
  refine returns_then rfl ?_
  split
  · exact hreject statusStale
  rename_i hsession
  split
  · exact hreject statusDuplicate
  rename_i hlater
  split
  · exact hreject statusRetryExhausted
  rename_i index hfree
  obtain ⟨call, hcall, hphase⟩ := getElem?_of_findIdx? hfree
  split
  · exact fail_returns
  refine returns_then rfl ?_
  have hadmitted :=
    @Move.admitted Allowed (world.tables payload.bufferSlot) index call
      (world.broker.admission client slot session requestId payload) hcall
      (beq_iff_eq.mp hphase) rfl rfl (by cases payload <;> simp_all [admission,
        Payload.isRequest]) (not_not.mp hsession) (Nat.lt_of_not_le hlater)
      (hopen _ _ (Aside.refl).level (by
        rintro i ⟨⟩
        exact ⟨call, hcall, beq_iff_eq.mp hphase⟩))
  have hlt := (List.getElem_of_getElem? hcall).1
  refine returns_left (forward_reaches runtime ht (h.tail hadmitted)
    (getElem?_set_self hlt) (.inl rfl) nofun)

def Broker.envelopeOpens (broker : Broker) (slot length : Nat) (message : WireCallEnvelope) :
    List Nat :=
  if length ≠ maxMsg ∨ ¬ validCallEnvelope message typeTag then [max message.requestId 1]
  else if message.kind = kindTerminalAck ∨ message.kind = kindReplyAck then []
  else if message.session ≠ session ∧ message.kind = kindCancel ∧
      (broker.cancelled slot message).isSome then []
  else [message.requestId]

def Broker.envelopeCancels (broker : Broker) (slot length : Nat) (message : WireCallEnvelope) :
    Option Call :=
  if length = maxMsg ∧ validCallEnvelope message typeTag ∧ message.session ≠ session ∧
      message.kind = kindCancel then
    (broker.cancelled slot message).bind (broker.calls[·]?)
  else none

def Broker.opens (broker : Broker) (slot : Nat) (message : Message) : List Nat :=
  match message.tagged with
  | .call envelope =>
    if message.decodes then broker.envelopeOpens slot message.length envelope else []
  | .sample descriptor =>
    if message.decodes then [descriptor.sequence, max descriptor.sequence 1] else []
  | _ => []

def Broker.cancels (broker : Broker) (slot : Nat) (message : Message) : Option Call :=
  match message.tagged with
  | .call envelope =>
    if message.decodes then broker.envelopeCancels slot message.length envelope else none
  | _ => none

/-- A call whose request may still reach the server or be answered by it. -/
def Call.isOpen (call : Call) : Bool := call.phase == .awaitingReply || call.phase == .forwarding

/-- What a caller has to allow for a client's message to be handled. -/
structure AllowsClient (Allowed : Tables → Label → Prop) (world : World) (client : Client)
    (opens : List Nat) (cancels : Option Call) : Prop where
  opened : ∀ requestId ∈ opens, ∀ t record, Level world t → Vacant t record →
    Allowed t (.opened record client requestId)
  staged : ∀ call ∈ cancels, call.isOpen → ∀ t, Allowed t (.staged call)
  finished : ∀ call ∈ cancels, call.isOpen = false →
    ∀ t, Allowed t (.finished call statusCancelled)

theorem AllowsClient.aside {opens : List Nat} {cancels : Option Call}
    (h : AllowsClient Allowed world client opens cancels)
    (haside : Aside world after) : AllowsClient Allowed after client opens cancels :=
  ⟨fun requestId hid t record ht => h.opened requestId hid t record
      ⟨by rw [ht.calls, haside.broker], by rw [ht.pending, haside.broker],
        ht.offers.trans haside.offers⟩,
    h.staged, h.finished⟩

section

variable (ht : Tolerates Allowed) (h : Reaches Allowed t none world)
include ht h

theorem cancel_reaches {message : WireCallEnvelope}
    (hopen : world.broker.cancelled slot message = none → ∀ record,
      Vacant (world.tables none) record →
        Allowed (world.tables none) (.opened record client message.requestId))
    (hcancel : ∀ call, (world.broker.cancelled slot message).bind (world.broker.calls[·]?) =
      some call → (call.isOpen → Allowed (world.tables none) (.staged call)) ∧
        (call.isOpen = false → Allowed (world.tables none) (.finished call statusCancelled))) :
    Returns (cancel runtime client slot message) world (Onward Allowed t none) := by
  refine returns_then rfl ?_
  split
  next hnone =>
    exact rejectTerminal_reaches h (hopen hnone)
  rename_i index hindex
  refine returns_getCall fun call hcall => ?_
  obtain ⟨hstage, hfinish⟩ := hcancel call (by rw [hindex]; exact hcall)
  split
  next hphase =>
    split
    · have hwaiting : call.phase = .awaitingReply ∨ call.phase = .forwarding ∨
          call.phase = .cancelling := hphase.imp_right .inl
      exact returns_left
        (finish_reaches_of runtime h hcall (ht.peerDead _ call hwaiting))
    · refine returns_of_eq (updateCall_eq hcall) ?_
      apply h.withCall hcall (.staged world.broker hphase)
      rintro l ⟨⟩
      exact hstage (by simpa [Call.isOpen] using hphase)
  next hphase =>
    refine returns_left (finish_reaches_of runtime h hcall ?_)
    exact hfinish (by simpa [Call.isOpen, not_or] using hphase)

theorem receiveEnvelope_reaches {length : Nat} {message : WireCallEnvelope}
    (hallows : AllowsClient Allowed world client (world.broker.envelopeOpens slot length message)
      (world.broker.envelopeCancels slot length message)) :
    Returns (receiveEnvelope runtime client slot length message) world (Onward Allowed t none) := by
  have hlevel : Level world (world.tables none) := Aside.refl.level
  unfold receiveEnvelope
  split
  next hinvalid =>
    refine rejectTerminal_reaches h fun record => hallows.opened _ ?_ _ record hlevel
    rw [envelopeOpens, if_pos hinvalid]
    exact mem_singleton_self _
  rename_i hvalid
  split
  · exact returns_then rfl (retireTerminal_reaches (h.tail (.noted rfl)))
  rename_i hterminal
  split
  · exact returns_then rfl (retireReply_reaches (h.tail (.noted rfl)))
  rename_i hreply
  -- What is left opens a record, unless it cancels one.
  have hopens (hkept : ¬ (message.session ≠ session ∧ message.kind = kindCancel ∧
      (world.broker.cancelled slot message).isSome)) :
      message.requestId ∈ world.broker.envelopeOpens slot length message := by
    rw [envelopeOpens, if_neg hvalid, if_neg (by simp [hterminal, hreply]), if_neg hkept]
    exact mem_singleton_self _
  split
  next hsession =>
    exact rejectTerminal_reaches h fun record =>
      hallows.opened _ (hopens fun hkept => hkept.1 hsession) _ record hlevel
  rename_i hsession
  split
  next hkind =>
    have hne : message.kind ≠ kindCancel := by rw [hkind]; decide
    exact admitCall_reaches runtime ht h rfl fun t record ht =>
      hallows.opened _ (hopens fun hkept => hne hkept.2.1) t record ht
  split
  next hkind =>
    apply cancel_reaches runtime ht h
    · intro hnone record
      refine hallows.opened _ (hopens fun hkept => ?_) _ record hlevel
      simp [hnone] at hkept
    intro call hcall
    have hcancels : call ∈ world.broker.envelopeCancels slot length message := by
      rw [envelopeCancels, if_pos]
      · exact hcall
      · exact ⟨by simp_all, by simp_all, hsession, hkind⟩
    exact ⟨fun ho => hallows.staged call hcancels ho _,
      fun ho => hallows.finished call hcancels ho _⟩
  next hkind =>
    exact rejectTerminal_reaches h fun record =>
      hallows.opened _ (hopens fun hkept => hkind hkept.2.1) _ record hlevel

theorem receiveDescriptor_reaches
    (hallows : message.decodes → ∀ requestId ∈ [descriptor.sequence, max descriptor.sequence 1],
      ∀ t record, Level world t → Vacant t record → Allowed t (.opened record client requestId)) :
    Returns (receiveDescriptor runtime client slot message descriptor) world
      (Onward Allowed t none) := by
  refine returns_then rfl ?_
  split
  · split
    · exact returns_of_eq rfl (h.tail (.noted rfl))
    · exact returns_pure (h.idle rfl)
  rename_i hdecodes
  have hdecodes : message.decodes := by simpa using hdecodes
  split
  · split
    · refine returns_then rfl (rejectTerminal_reaches (h.tail (.noted rfl)) fun record => ?_)
      exact hallows hdecodes _ (by simp) _ record
        ⟨rfl, rfl, by simp [Tables.offers, tables, isOffer]⟩
    · refine rejectTerminal_reaches (h.idle rfl) fun record => ?_
      exact hallows hdecodes _ (by simp) _ record ⟨rfl, rfl, rfl⟩
  · refine returns_bind (relaySharedPayload_reaches runtime (h.idle rfl)) ?_
    rintro bufferSlot relayed ⟨hrelayed, haside⟩
    refine admitCall_reaches runtime ht hrelayed rfl fun t record hlevel => ?_
    refine hallows hdecodes _ (by simp) t record ⟨?_, ?_, ?_⟩
    · rw [hlevel.calls, haside.broker]
    · rw [hlevel.pending, haside.broker]
    · exact hlevel.offers.trans haside.offers

theorem handleClientRecord_reaches
    (hallows : AllowsClient Allowed world client (world.broker.opens slot message)
      (world.broker.cancels slot message)) :
    Returns (handleClientRecord runtime client slot message) world (Onward Allowed t none) := by
  unfold handleClientRecord
  split
  next envelope htagged =>
    refine returns_bind (releaseCaps_reaches h) ?_
    rintro _ released ⟨hreleased, haside⟩
    split
    next hdecodes =>
      simp only [opens, cancels, htagged, hdecodes, if_true,
        ← haside.broker] at hallows
      exact receiveEnvelope_reaches runtime ht hreleased (hallows.aside haside)
    · exact returns_pure hreleased
  next descriptor htagged =>
    refine receiveDescriptor_reaches runtime ht h fun hdecodes requestId hid t record => ?_
    simp only [opens, cancels, htagged, hdecodes, if_true] at hallows
    exact hallows.opened requestId hid t record
  · exact returns_left (releaseCaps_reaches h)
  · exact returns_left (releaseCaps_reaches h)

theorem pumpClient_reaches (hallows : ∀ slot message, world.broker.clients client = some slot →
      runtime.recv world.clock = .message message →
        AllowsClient Allowed world client (world.broker.opens slot message)
          (world.broker.cancels slot message)) :
    Returns (pumpClient runtime client) world (Onward Allowed t none) := by
  refine returns_then rfl ?_
  split
  · exact returns_pure h
  split
  · exact returns_pure h
  rename_i slot hslot
  refine returns_then rfl ?_
  split
  · exact returns_pure (h.idle rfl)
  · exact fail_returns
  rename_i message hmessage
  refine returns_bind (handleClientRecord_reaches runtime ht (h.idle rfl) ?_) ?_
  · exact (hallows slot message hslot hmessage).aside ⟨rfl, rfl⟩
  · intro _ after hafter
    exact returns_pure hafter

end

theorem offerInlineReply_reaches
    (h : Reaches Allowed t hand world) (hcall : world.broker.calls[index]? = some call)
    (hphase : call.phase = .forwardingReply) (hpayload : call.payload = .inlineReply reply) :
    Returns (offerInlineReply runtime index reply) world (Onward Allowed t hand) := by
  refine returns_then (getCall_eq hcall) ?_
  refine returns_then rfl ?_
  split
  · refine returns_pure (h.turn hcall (.offeredReply hpayload hphase) unlabelled ?_)
    rw [set_eq_self hcall]
    rfl
  · exact fail_returns

/-- What keeps the buffer is the record, or the hand until `keep` places it in the record. -/
theorem lendReply_reaches
    {keep : WireSampleDescriptor → Handler Unit} (h : Reaches Allowed t hand world)
    (hcall : world.broker.calls[index]? = some call)
    (hdelivered : ∀ before, before.broker = world.broker → Reaches Allowed t hand before →
      Reaches Allowed t none
        ({ before with log := before.log ++ [released bufferSlot] }.withCall index .empty))
    (hkept : ∀ outward before, before.broker = world.broker → Reaches Allowed t hand before →
      Returns (keep outward) before (Onward Allowed t none)) :
    Returns (lendReply runtime index bufferSlot descriptor keep) world (Onward Allowed t none) := by
  have hwait (outward : WireSampleDescriptor) (before : World)
      (hbroker : before.broker = world.broker) (hbefore : Reaches Allowed t hand before) :
      Returns (do
        keep outward
        pure false) before (Onward Allowed t none) :=
    returns_bind (hkept outward before hbroker hbefore) fun _ _ hafter =>
      returns_pure hafter
  refine returns_getCall fun found _ => ?_
  refine returns_then rfl ?_
  split
  · exact fail_returns
  refine returns_then rfl ?_
  split
  · exact hwait _ _ rfl (h.idle rfl)
  · exact hwait _ _ rfl (h.idle rfl)
  · exact fail_returns
  refine returns_then rfl ?_
  split
  · refine returns_then rfl ?_
    refine returns_then (updateCall_eq hcall) (returns_pure ?_)
    exact hdelivered _ rfl (h.tail (.noted rfl))
  · refine returns_then rfl ?_
    exact hwait _ _ rfl ((h.tail (.noted rfl)).tail (.noted rfl))
  · exact fail_returns

theorem deliverSharedReply_reaches (h : Reaches Allowed t (some bufferSlot) world)
    (hcall : world.broker.calls[index]? = some call) (hwaiting : call.phase = .awaitingReply)
    (hsettled : call.payload.outstanding = false) :
    Returns (deliverSharedReply runtime index descriptor bufferSlot) world
      (Onward Allowed t none) := by
  have hplaced (outward : WireSampleDescriptor) (before : World)
      (hbroker : before.broker = world.broker)
      (hbefore : Reaches Allowed t (some bufferSlot) before) :
      Reaches Allowed t none (before.withCall index { call with
        phase := .forwardingReply, payload := .sharedReply bufferSlot outward }) :=
    hbefore.withCall (by rw [hbroker]; exact hcall) (.answeredShared hwaiting hsettled rfl)
      unlabelled
  refine returns_then_pure (lendReply_reaches runtime h hcall ?_ ?_)
  · intro before hbroker hbefore
    have hcall' : before.broker.calls[index]? = some call := by rw [hbroker]; exact hcall
    have hvacated := vacate_reaches (hplaced descriptor before hbroker hbefore)
      (getElem?_withCall hcall') (by simp)
    apply hvacated.idle
    simp [tables, withCall, Payload.settled]
  · intro outward before hbroker hbefore
    have hcall' : before.broker.calls[index]? = some call := by rw [hbroker]; exact hcall
    exact returns_of_eq (updateCall_eq hcall') (hplaced outward before hbroker hbefore)

theorem pumpReplies_reaches (h : Reaches Allowed t none world) :
    Returns (pumpReplies runtime) world (Onward Allowed t none) := by
  apply sweepCalls_reaches h
  intro index middle hmiddle
  refine returns_getCall fun call hcall => ?_
  split
  · exact returns_pure hmiddle
  rename_i hphase
  have hphase := not_not.mp hphase
  split
  next reply hpayload =>
    exact offerInlineReply_reaches runtime hmiddle hcall hphase hpayload
  next bufferSlot descriptor hpayload =>
    apply lendReply_reaches runtime hmiddle hcall
    · intro before hbroker hbefore
      have hcall' : before.broker.calls[index]? = some call := by rw [hbroker]; exact hcall
      have hvacated := vacate_reaches hbefore hcall' (by rw [hphase]; nofun)
      rw [hpayload] at hvacated
      exact hvacated
    · intro _ before _ hbefore
      exact returns_pure hbefore
  · exact fail_returns

/-- After its buffer is settled the record stands as before, with nothing outstanding. -/
structure Unlent (call call' : Call) : Prop where
  settled : call'.payload.outstanding = false
  phase : call'.phase = call.phase
  requestId : call'.requestId = call.requestId

theorem settleOutstandingRequest_reaches
    (h : Reaches Allowed t hand world) (hcall : world.broker.calls[index]? = some call)
    (hwaiting : call.phase = .awaitingReply ∨ call.phase = .cancelling) :
    Returns (settleOutstandingRequest index) world fun _ after =>
      Reaches Allowed t hand after ∧
        ∃ call', after.broker.calls[index]? = some call' ∧ Unlent call call' := by
  refine returns_then (getCall_eq hcall) ?_
  cases hpayload : call.payload with
  | sharedOutstanding | cancellingShared =>
    refine returns_then rfl (returns_then rfl ?_)
    refine returns_of_eq (updateCall_eq hcall) ⟨?_, _, getElem?_withCall hcall, rfl, rfl, rfl⟩
    apply h.turn hcall (.settledRequest (by rw [hpayload]; rfl) hwaiting) unlabelled
    simp [tables, withCall, hpayload, Payload.settled]
  | _ => exact returns_pure ⟨h, call, hcall, by rw [hpayload]; rfl, rfl, rfl⟩

theorem findCall_waiting {broker : Broker} {serverRequestId : Nat}
    (h : broker.findCall serverRequestId = some index) :
    ∃ call, broker.calls[index]? = some call ∧
      (call.phase = .awaitingReply ∨ call.phase = .cancelling) := by
  obtain ⟨call, hcall, hphase⟩ := getElem?_of_findIdx? h
  simp only [Bool.and_eq_true, Bool.or_eq_true, beq_iff_eq] at hphase
  exact ⟨call, hcall, hphase.1⟩

theorem awaiting_of_not_cancelling (h : Unlent call call')
    (hwaiting : call.phase = .awaitingReply ∨ call.phase = .cancelling)
    (hphase : call'.phase ≠ .cancelling) : call'.phase = .awaitingReply := by
  rw [h.phase] at hphase ⊢
  exact hwaiting.resolve_right hphase

section

variable (ht : Tolerates Allowed)
include ht

theorem finishCancelled_reaches
    (h : Reaches Allowed t hand world) (hcall : world.broker.calls[index]? = some call)
    (hphase : call.phase = .cancelling) :
    Returns (finish runtime index statusCancelled) world (Onward Allowed t hand) := by
  exact returns_left (finish_reaches_of runtime h hcall (ht.cancelled _ _ hphase))

theorem finishMalformed_reaches
    (h : Reaches Allowed t hand world) (hcall : world.broker.calls[index]? = some call)
    (hwaiting : call.phase = .awaitingReply ∨ call.phase = .cancelling) :
    Returns (finish runtime index statusMalformedReply) world (Onward Allowed t hand) := by
  exact returns_left (finish_reaches_of runtime h hcall (ht.malformed _ _ hwaiting))

theorem handleReply_reaches
    (h : Reaches Allowed t hand world) (hkind : reply.kind = kindReply ∨ reply.kind = kindHeld) :
    Returns (handleReply runtime reply) world (Onward Allowed t hand) := by
  refine returns_then rfl ?_
  split
  · exact returns_pure h
  rename_i index hindex
  obtain ⟨call, hcall, hwaiting⟩ := findCall_waiting hindex
  split
  · exact returns_pure h
  rename_i hheld
  refine returns_bind (settleOutstandingRequest_reaches h hcall hwaiting) ?_
  rintro _ settled ⟨hsettled, call', hcall', hunlent⟩
  refine returns_then (getCall_eq hcall') ?_
  split
  next hphase =>
    dsimp only
    split
    · exact finishCancelled_reaches runtime ht hsettled hcall' hphase
    · exact returns_pure hsettled
  next hphase =>
    refine returns_then (updateCall_eq hcall') (returns_then_pure (offerInlineReply_reaches runtime
      (hsettled.withCall hcall' ?_ unlabelled) (getElem?_withCall hcall') rfl rfl))
    exact .answered (awaiting_of_not_cancelling hunlent hwaiting hphase) hunlent.settled
      (hkind.resolve_right hheld) rfl

theorem handleSharedReply_reaches (h : Reaches Allowed t none world) :
    Returns (handleSharedReply runtime message descriptor) world (Onward Allowed t none) := by
  refine returns_then rfl ?_
  split
  · split
    · exact returns_of_eq rfl (h.tail (.noted rfl))
    · exact returns_pure (h.idle rfl)
  refine returns_then rfl ?_
  split
  · split
    · exact returns_of_eq rfl (h.tail (.noted rfl))
    · exact returns_pure (h.idle rfl)
  rename_i index hindex
  obtain ⟨call, hcall, hwaiting⟩ := findCall_waiting hindex
  split
  · split
    · refine returns_then rfl ?_
      exact finishMalformed_reaches runtime ht (h.tail (.noted rfl)) hcall hwaiting
    · exact finishMalformed_reaches runtime ht (h.idle rfl) hcall hwaiting
  refine returns_bind
    (settleOutstandingRequest_reaches (h.idle rfl) hcall hwaiting) ?_
  rintro _ settled ⟨hsettled, call', hcall', hunlent⟩
  refine returns_then (getCall_eq hcall') ?_
  split
  next hphase =>
    refine returns_then rfl ?_
    exact finishCancelled_reaches runtime ht (hsettled.tail (.noted rfl)) hcall' hphase
  rename_i hphase
  refine returns_bind (relaySharedPayload_reaches runtime hsettled) ?_
  rintro bufferSlot relayed ⟨hrelayed, haside⟩
  refine deliverSharedReply_reaches runtime hrelayed (by rw [haside.broker]; exact hcall')
    (awaiting_of_not_cancelling hunlent hwaiting hphase) hunlent.settled

theorem handleServerRecord_reaches (h : Reaches Allowed t none world) :
    Returns (handleServerRecord runtime message) world (Onward Allowed t none) := by
  refine returns_then rfl ?_
  have hidle := h.idle rfl
  split
  · refine returns_bind (releaseCaps_reaches hidle) ?_
    rintro _ released ⟨hreleased, -⟩
    split
    · split
      next hreply =>
        exact handleReply_reaches runtime ht hreleased hreply.2.2.1
      refine returns_then rfl ?_
      split
      · rename_i index hindex
        obtain ⟨call, hcall, hwaiting⟩ := findCall_waiting hindex
        exact finishMalformed_reaches runtime ht hreleased hcall hwaiting
      · exact returns_pure hreleased
    · exact returns_pure hreleased
  · exact handleSharedReply_reaches runtime ht hidle
  · exact returns_left (releaseCaps_reaches hidle)
  · exact returns_left (releaseCaps_reaches hidle)

theorem pumpServer_reaches (h : Reaches Allowed t none world) :
    Returns (pumpServer runtime) world (Onward Allowed t none) := by
  refine returns_then rfl ?_
  split
  · exact returns_pure h
  refine returns_then rfl ?_
  split
  · exact returns_pure (h.idle rfl)
  · exact fail_returns
  · exact returns_then_pure (handleServerRecord_reaches runtime ht (h.idle rfl))

end

theorem offerLowest_reaches {lowest : Client → Option Nat} (h : Reaches Allowed t hand world) :
    Returns (offerLowest runtime lowest client) world (Onward Allowed t hand) := by
  unfold offerLowest
  split
  · exact returns_pure h
  refine returns_then rfl ?_
  split
  next index hindex =>
    obtain ⟨call, hcall, hmatch⟩ := getElem?_of_findIdx? hindex
    refine pumpTerminal_reaches runtime h fun found hfound => ?_
    obtain rfl := Option.mem_unique hcall hfound
    simp only [Bool.and_eq_true, beq_iff_eq] at hmatch
    exact hmatch.1.1
  · exact returns_pure h

theorem cancellation_forwarded
    (hphase : call.phase = .cancelling) (hslot : next.bufferSlot = call.payload.bufferSlot)
    (hnext : next = .none ∨ next.isLent) :
    Turn index hand none call [] { call with payload := next } hand := by
  have hcall : { call with payload := next } = { call with
      phase := if call.phase = .cancelling then .cancelling else .awaitingReply
      payload := next } := by
    rw [if_pos hphase, ← hphase]
  rw [hcall]
  exact .forwarded (.inr hphase) hslot hnext

theorem send_reaches {message : WireCallEnvelope} (h : Reaches Allowed t hand world) :
    Returns (send runtime message) world fun _ after =>
      Reaches Allowed t hand after ∧ after.broker = world.broker := by
  refine returns_then rfl ?_
  exact returns_of_eq rfl ⟨h.tail (.noted rfl), rfl⟩

section

variable (ht : Tolerates Allowed) (h : Reaches Allowed t hand world)
include ht h

theorem forwardCancellation_reaches :
    Returns (forwardCancellation runtime index) world (Onward Allowed t hand) := by
  have hdead {call : Call} (hcall : world.broker.calls[index]? = some call)
      (hphase : call.phase = .cancelling) : Returns (do
        finish runtime index statusPeerDead
        pure true) world (Onward Allowed t hand) :=
    returns_bind (finish_reaches_of runtime h hcall (ht.peerDead _ call (.inr (.inr hphase))))
      fun _ _ hafter => returns_pure hafter.1
  have hsent {call : Call} {message : WireCallEnvelope}
      (hcall : world.broker.calls[index]? = some call) (hphase : call.phase = .cancelling)
      (hslot : call.payload.cancellationSent.bufferSlot = call.payload.bufferSlot)
      (hnext : call.payload.cancellationSent = .none ∨ call.payload.cancellationSent.isLent) :
      Returns (do
        expectSuccess (← send runtime message) "call cancel forward"
        updateCall index fun call => { call with payload := call.payload.cancellationSent }
        modifyBroker fun broker => { broker with serverCall := some call.serverRequestId }
        pure true) world (Onward Allowed t hand) := by
    refine returns_bind (send_reaches runtime h) ?_
    rintro - sent ⟨hsent, hbroker⟩
    apply returns_expectSuccess
    have hcall' : sent.broker.calls[index]? = some call := by rw [hbroker]; exact hcall
    refine returns_then (updateCall_eq hcall') ?_
    refine returns_then rfl (returns_pure ?_)
    exact (hsent.withCall hcall' (cancellation_forwarded hphase hslot hnext) unlabelled).idle rfl
  refine returns_then rfl ?_
  refine returns_getCall fun call hcall => ?_
  split
  · exact returns_pure h
  rename_i hready
  have hphase := not_not.mp (not_or.mp hready).1
  split
  next message hpayload =>
    split
    · exact hdead hcall hphase
    · exact hsent hcall hphase (by rw [hpayload]; rfl) (by rw [hpayload]; exact .inl rfl)
  next slot loanId message hpayload =>
    split
    · exact hdead hcall hphase
    · exact hsent hcall hphase (by rw [hpayload]; rfl) (by rw [hpayload]; exact .inr rfl)
  · exact returns_pure h

theorem retryDeferred_reaches : Returns (retryDeferred runtime) world (Onward Allowed t hand) := by
  refine returns_then rfl ?_
  split
  · exact returns_pure h
  split
  next index hindex =>
    obtain ⟨call, hcall, hphase⟩ := getElem?_of_findIdx? hindex
    have hphase := beq_iff_eq.mp hphase
    refine returns_bind
      (forward_reaches runtime ht h hcall (.inl hphase) fun hc => nomatch hphase.symm.trans hc) ?_
    intro _ after hafter
    exact returns_pure hafter.1
  · exact returns_pure h

theorem pumpTerminals_reaches : Returns (pumpTerminals runtime) world (Onward Allowed t hand) := by
  refine returns_then rfl ?_
  refine returns_bind (offerLowest_reaches runtime h) ?_
  intro _ first hfirst
  refine returns_bind (offerLowest_reaches runtime hfirst) ?_
  intro _ second hsecond
  refine returns_bind (sweepCalls_reaches hsecond fun index middle hmiddle =>
    forwardCancellation_reaches runtime ht hmiddle) ?_
  intro _ cancelled hcancelled
  refine returns_bind (retryDeferred_reaches runtime ht hcancelled) ?_
  intro _ retried hretried
  exact returns_pure hretried

/-- What a caller has to allow for the clock to reach `nowNs`. -/
structure AllowsTime (Allowed : Tables → Label → Prop) (calls : List Call) (nowNs : Nat) :
    Prop where
  expired : ∀ call ∈ calls, call.phase ≠ .free → call.phase ≠ .cancelling →
    call.deadlineNs ≤ nowNs → ∀ t, Allowed t (.finished call statusTimeout)
  deferred : ∀ call ∈ calls, call.phase = .cancelling → call.payload ≠ .none →
    nowNs < call.deadlineNs → call.nextRetryNs ≤ nowNs → ∀ t, Allowed t (.deferred call)

theorem expire_reaches (hallows : ∀ call, world.broker.calls[index]? = some call →
      AllowsTime Allowed [call] world.broker.nowNs) :
    Returns (expire runtime index) world fun _ after =>
      Reaches Allowed t hand after ∧ Beside index world after := by
  refine returns_then rfl ?_
  refine returns_getCall fun call hcall => ?_
  split
  · exact returns_pure ⟨h, .refl⟩
  rename_i hlive
  split
  next hdue =>
    refine returns_then rfl ?_
    refine returns_bind (finish_reaches_of runtime (h.idle rfl) hcall ?_) ?_
    · split
      next hphase =>
        exact ht.cancelled _ _ hphase
      next hphase =>
        exact (hallows call hcall).expired call (by simp) hlive hphase hdue _
    · rintro _ after ⟨hafter, hbeside⟩
      exact returns_pure ⟨hafter, hbeside.calls, hbeside.nowNs⟩
  next hdue =>
    split
    next hretry =>
      refine returns_then_pure (forward_reaches runtime ht h hcall hretry.1 ?_)
      intro hphase _
      exact (hallows call hcall).deferred call (by simp) hphase hretry.2.1
        (Nat.lt_of_not_le hdue) hretry.2.2 _
    · exact returns_pure ⟨h, .refl⟩

theorem advanceTime_reaches {nowNs : Nat} (hallows : AllowsTime Allowed world.broker.calls nowNs) :
    Returns (advanceTime runtime nowNs) world (Onward Allowed t hand) := by
  refine returns_then rfl ?_
  refine returns_then_pure (sweepCalls_each (h.idle rfl) ?_)
  intro index middle hmiddle hnow hsame
  refine expire_reaches runtime ht hmiddle fun call hcall => ?_
  have hmem := mem_of_getElem? (hsame.symm.trans hcall)
  rw [hnow]
  constructor
  · intro found hfound
    obtain rfl := mem_singleton.mp hfound
    exact hallows.expired found hmem
  · intro found hfound
    obtain rfl := mem_singleton.mp hfound
    exact hallows.deferred found hmem

theorem pumpTime_reaches (hallows : ∀ message advance, runtime.recv world.clock = .message message →
      message.advance = some advance → AllowsTime Allowed world.broker.calls advance.nowNs) :
    Returns (pumpTime runtime) world (Onward Allowed t hand) := by
  refine returns_then rfl ?_
  split
  · exact returns_pure h
  refine returns_then rfl ?_
  split
  · split
    · exact returns_then rfl (returns_pure (h.idle rfl))
    split
    · exact fail_returns
    refine returns_then rfl ?_
    split
    · exact returns_pure (h.idle rfl)
    · exact returns_then rfl (returns_pure (h.idle rfl))
    · exact fail_returns
  · exact fail_returns
  · rename_i message hmessage
    refine returns_bind (releaseCaps_reaches (h.idle rfl)) ?_
    rintro _ released ⟨hreleased, haside⟩
    split
    · split
      · exact returns_bind fail_returns fun _ _ => False.elim
      rename_i advance hadvance
      split
      · exact returns_bind fail_returns fun _ _ => False.elim
      refine returns_then_pure (advanceTime_reaches runtime ht hreleased ?_)
      rw [haside.broker]
      exact hallows message advance hmessage hadvance
    · exact returns_pure hreleased

end

/-- What a caller has to allow for the server's death to be observed. -/
def AllowsDeath (Allowed : Tables → Label → Prop) (calls : List Call) : Prop :=
  ∀ call ∈ calls, call.phase ≠ .free → ∀ t, Allowed t (.finished call statusPeerDead)

section

variable (h : Reaches Allowed t hand world)
include h

theorem reclaimAll_reaches (hallows : AllowsDeath Allowed world.broker.calls) :
    Returns (reclaimAll runtime statusPeerDead) world (Onward Allowed t hand) := by
  refine returns_then_pure (sweepCalls_each h ?_)
  intro index middle hmiddle _ hsame
  refine returns_then_pure (finish_reaches runtime hmiddle ?_)
  intro call hcall hlive
  exact hallows call (mem_of_getElem? (hsame.symm.trans hcall)) hlive _

theorem observeServerDeath_reaches (hallows : world.broker.serverDeathReported = false →
      runtime.supervisionStatus world.clock = .terminated →
        AllowsDeath Allowed world.broker.calls) :
    Returns (observeServerDeath runtime) world (Onward Allowed t hand) := by
  refine returns_then rfl ?_
  split
  · exact returns_pure h
  rename_i hreported
  split
  · exact fail_returns
  refine returns_then rfl ?_
  split
  · exact returns_pure (h.idle rfl)
  next hstatus =>
    refine returns_then rfl ?_
    refine returns_then_pure (returns_then rfl ?_)
    split
    · exact returns_pure (h.idle rfl)
    · refine returns_then rfl (reclaimAll_reaches runtime (h.idle rfl) ?_)
      exact hallows (Bool.eq_false_iff.mpr hreported) hstatus
  · exact fail_returns

theorem clientDead_reaches : Returns (clientDead runtime client) world (Onward Allowed t hand) := by
  refine returns_then rfl ?_
  split
  · refine returns_then rfl ?_
    split
    · exact returns_pure (h.idle rfl)
    · exact returns_pure (h.idle rfl)
    · exact fail_returns
  · exact returns_of_eq rfl (h.idle rfl)
  · exact returns_pure h

theorem reclaimDeadClient_reaches :
    Returns (reclaimDeadClient runtime client) world (Onward Allowed t hand) := by
  refine returns_then rfl ?_
  split
  · exact returns_pure h
  refine returns_bind (clientDead_reaches runtime h) ?_
  intro dead asked hasked
  split
  · refine returns_then rfl ?_
    refine returns_bind (reclaimClient_reaches (hasked.idle rfl)) ?_
    intro _ reclaimed hreclaimed
    refine returns_then rfl (returns_then rfl ?_)
    exact unqueue_reaches (hreclaimed.tail (.noted rfl))
  · exact returns_pure hasked

end

/-- What a caller has to allow for a pump of the loop: only the messages of clients and of the
clock ask for anything. -/
def Allows (runtime : Runtime) (Allowed : Tables → Label → Prop) (world : World) :
    Pump → Prop
  | .client client => ∀ slot message, world.broker.clients client = some slot →
      runtime.recv world.clock = .message message →
        AllowsClient Allowed world client (world.broker.opens slot message)
          (world.broker.cancels slot message)
  | .time => ∀ message advance, runtime.recv world.clock = .message message →
      message.advance = some advance → AllowsTime Allowed world.broker.calls advance.nowNs
  | .serverDeath => world.broker.serverDeathReported = false →
      runtime.supervisionStatus world.clock = .terminated → AllowsDeath Allowed world.broker.calls
  | _ => True

theorem perform_reaches (ht : Tolerates Allowed) (hallows : Allows runtime Allowed world pump) :
    Returns (perform runtime pump) world fun _ after =>
      Reaches Allowed (world.tables none) none after := by
  have h : Reaches Allowed (world.tables none) none world := .refl
  cases pump with
  | client client => exact pumpClient_reaches runtime ht h hallows
  | serverDeath => exact observeServerDeath_reaches runtime h hallows
  | terminals => exact pumpTerminals_reaches runtime ht h
  | pendingTerminals => exact pumpPendingTerminals_reaches runtime h
  | server => exact pumpServer_reaches runtime ht h
  | replies => exact pumpReplies_reaches runtime h
  | time => exact pumpTime_reaches runtime ht h hallows
  | deadClients =>
    refine returns_bind (reclaimDeadClient_reaches runtime h) ?_
    intro _ first hfirst
    refine returns_bind (reclaimDeadClient_reaches runtime hfirst) ?_
    intro _ second hsecond
    exact returns_pure hsecond

theorem step_reaches (ht : Tolerates Allowed) (hallows : Allows runtime Allowed world pump)
    (hstep : step runtime (some world) pump = some after) :
    Relation.ReflTransGen (Move Allowed) (world.tables none) (after.tables none) := by
  have hperform := perform_reaches runtime ht hallows
  unfold step at hstep
  rcases hresult : perform runtime pump world with ⟨fault | progressed, result⟩
  · simp [hresult] at hstep
  · obtain rfl : result = after := by simpa [hresult] using hstep
    exact hperform progressed result hresult

/-- A condition on the pumps of a run, in the world each of them is made in. -/
def along (condition : World → Pump → Bool) (state : Option World) (pump : Pump) : Bool :=
  state.all fun world => condition world pump

theorem run_tables (Inv : Tables → Prop) (condition : World → Pump → Bool) (ht : Tolerates Allowed)
    (hallows : ∀ world pump, condition world pump → Allows runtime Allowed world pump)
    (hmove : ∀ t t', Inv t → Move Allowed t t' → Inv t')
    {pumps : List Pump} (hstart : Inv (start.tables none))
    (hpumps : Permitted (step runtime) (fun state pump => along condition state pump)
      (some start) pumps)
    (hrun : run (step runtime) (some start) pumps = some world) : Inv (world.tables none) := by
  refine run_invariant_permitted (step runtime)
    (fun state => ∀ world, state = some world → Inv (world.tables none)) _ ?_
    (some start) pumps ?_ hpumps world hrun
  · rintro (_ | before) pump hbefore hpump after hafter
    · exact nomatch hafter
    have hmoves := step_reaches runtime ht (hallows before pump hpump) hafter
    have hinv := hbefore before rfl
    generalize after.tables none = reached at hmoves ⊢
    induction hmoves with
    | refl => exact hinv
    | tail _ hlast ih => exact hmove _ _ ih hlast
  · rintro _ ⟨⟩
    exact hstart

end SlimeOs.CallBroker
