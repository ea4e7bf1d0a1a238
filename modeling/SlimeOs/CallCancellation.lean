import SlimeOs.CallBuffers

/-!
A cancelled call stays cancelled: from the moment a call record is cancelling until it is free
again, its client is offered no reply to the request, and the first terminal it is offered
says that the call was cancelled, that the server died or that its reply was malformed.

The exception is the clock. An advance that finds the server busy puts a cancelling record
back among the queued requests.
-/

namespace SlimeOs.CallBroker

open FallibleCall List Call Event Function

/-- A record of an admitted request that has not been settled by a terminal. -/
def Call.isLive (call : Call) : Bool := call.phase != .free && call.phase != .pendingTerminal

def Call.key (call : Call) : Client × Nat := (call.clientIndex, call.requestId)

variable {hand hand' : Option Nat} {call call' : Call} {events before : List Event}
  {index requestId : Nat} {label : Option Label} {t t' : Tables} {runtime : Runtime} {world : World}
  {pump : Pump} {client : Client}

theorem Turn.live (hturn : Turn index hand label call events call' hand') (hlive : call'.isLive) :
    call.isLive ∧ call'.key = call.key := by
  cases hturn with
  | retouched alike =>
    refine ⟨?_, Prod.ext alike.clientIndex alike.requestId⟩
    simpa [isLive, alike.phase] using hlive
  | rejected free pending payload => simp [isLive, pending] at hlive
  | vacated live => simp [isLive, empty] at hlive
  | retired pending => simp [isLive, empty] at hlive
  | offeredTerminal pending => simp [isLive, pending] at hlive
  | offeredReply payload answered => exact ⟨hlive, rfl⟩
  | finished status live => simp [isLive] at hlive
  | deferred queued => exact ⟨by rcases queued with h | h <;> simp [isLive, h], rfl⟩
  | forwarded queued slot next_cases =>
    exact ⟨by rcases queued with h | h <;> simp [isLive, h], rfl⟩
  | staged broker hopen => exact ⟨by rcases hopen with h | h <;> simp [isLive, h], rfl⟩
  | settledRequest outstanding waiting => exact ⟨hlive, rfl⟩
  | answered waiting settled kind requestId => exact ⟨by simp [isLive, waiting], rfl⟩
  | answeredShared waiting settled held => exact ⟨by simp [isLive, waiting], rfl⟩

/-- A stored reply is a reply to the record's request. -/
def Call.Answers (call : Call) : Prop :=
  ∀ reply, call.payload = .inlineReply reply →
    reply.kind = kindReply ∧ reply.requestId = call.requestId

theorem Turn.answers (hturn : Turn index hand label call events call' hand') (h : call.Answers) :
    call'.Answers := by
  intro reply hreply
  cases hturn with
  | retouched alike =>
    rw [alike.payload] at hreply
    rw [alike.requestId]
    exact h reply hreply
  | rejected free pending payload => cases payload.symm.trans hreply
  | vacated live => cases hreply
  | retired pending => cases hreply
  | offeredTerminal pending => exact h reply hreply
  | offeredReply payload answered => exact h reply hreply
  | finished status live => cases hreply
  | deferred queued => exact h reply hreply
  | @forwarded _ next queued slot next_cases =>
    obtain rfl := hreply
    rcases next_cases with hnext | hnext <;> cases hnext
  | staged broker hopen =>
    simp only [Broker.staged] at hreply
    split at hreply <;> cases hreply
  | settledRequest outstanding waiting => cases hreply
  | answered waiting settled kind requestId =>
    obtain rfl := Payload.inlineReply.inj hreply
    exact ⟨kind, requestId⟩
  | answeredShared waiting settled held => cases hreply

/-- The live records: each of a request of its own, at or below the client's watermark. -/
structure Registered (t : Tables) : Prop where
  answers : ∀ call ∈ t.calls, call.Answers
  below : ∀ call ∈ t.calls, call.isLive → call.requestId ≤ t.highWater call.clientIndex
  distinct : ∀ (i j : Nat) (call call' : Call), t.calls[i]? = some call → t.calls[j]? = some call' →
    call.isLive → call'.isLive → call.key = call'.key → i = j

theorem registered_move {Allowed : Tables → Label → Prop} (h : Registered t)
    (hmove : Move Allowed t t') : Registered t' := by
  cases hmove with
  | @turn index label call call' events hand found turn allowed =>
    have hmem := mem_of_getElem? found
    refine ⟨?_, ?_, ?_⟩
    · intro other hother
      rcases mem_or_eq_of_mem_set hother with hold | rfl
      · exact h.answers other hold
      · exact turn.answers (h.answers call hmem)
    · intro other hother hlive
      rcases mem_or_eq_of_mem_set hother with hold | rfl
      · exact h.below other hold hlive
      obtain ⟨hlive, hkey⟩ := turn.live hlive
      obtain ⟨hclient, hid⟩ := Prod.ext_iff.mp hkey
      have hbelow := h.below call hmem hlive
      simp only [key] at hclient hid
      rw [hid, hclient]
      exact hbelow
    · intro i j first second hi hj hfirst hsecond hkey
      rcases getElem?_set_cases hi with ⟨rfl, rfl⟩ | ⟨-, hiold⟩ <;>
        rcases getElem?_set_cases hj with ⟨rfl, rfl⟩ | ⟨-, hjold⟩
      · rfl
      · obtain ⟨hlive, hsame⟩ := turn.live hfirst
        exact h.distinct _ _ _ _ found hjold hlive hsecond (hsame.symm.trans hkey)
      · obtain ⟨hlive, hsame⟩ := turn.live hsecond
        exact h.distinct _ _ _ _ hiold found hfirst hlive (hkey.trans hsame)
      · exact h.distinct _ _ _ _ hiold hjold hfirst hsecond hkey
  | @admitted index call call' found free phase slot request session later allowed =>
    -- The new request is above everything its client had before.
    have hnew {other : Call} (hother : other ∈ t.calls) (hlive : other.isLive) :
        other.key ≠ call'.key := by
      intro hkey
      obtain ⟨hclient, hid⟩ := Prod.ext_iff.mp hkey
      have hbelow := h.below other hother hlive
      simp only [key] at hclient hid
      rw [hclient] at hbelow
      omega
    refine ⟨?_, ?_, ?_⟩
    · intro other hother
      rcases mem_or_eq_of_mem_set hother with hold | rfl
      · exact h.answers other hold
      · exact fun reply hreply => absurd hreply (request reply)
    · intro other hother hlive
      change other.requestId ≤
        update t.highWater call'.clientIndex call'.requestId other.clientIndex
      rcases mem_or_eq_of_mem_set hother with hold | rfl
      · have hbelow := h.below other hold hlive
        by_cases hclient : other.clientIndex = call'.clientIndex
        · rw [hclient] at hbelow ⊢
          rw [update_self]
          omega
        · rw [update_of_ne hclient]
          exact hbelow
      · rw [update_self]
    · intro i j first second hi hj hfirst hsecond hkey
      rcases getElem?_set_cases hi with ⟨rfl, rfl⟩ | ⟨-, hiold⟩ <;>
        rcases getElem?_set_cases hj with ⟨rfl, rfl⟩ | ⟨-, hjold⟩
      · rfl
      · exact absurd hkey.symm (hnew (mem_of_getElem? hjold) hsecond)
      · exact absurd hkey (hnew (mem_of_getElem? hiold) hfirst)
      · exact h.distinct _ _ _ _ hiold hjold hfirst hsecond hkey
  | _ => exact ⟨h.answers, h.below, h.distinct⟩

theorem registered_start {wiring : Wiring} {limits : RuntimeLimits} {broker : Broker}
    (h : Broker.new wiring limits = .ok broker) (declaredDeadlineNs : Nat) :
    Registered ((World.start broker declaredDeadlineNs).tables none) := by
  have hempty {call : Call}
      (hcall : call ∈ ((World.start broker declaredDeadlineNs).tables none).calls) :
      call = .empty := by
    have hcalls : ((World.start broker declaredDeadlineNs).tables none).calls =
        replicate limits.maxInFlightCalls .empty := (new_calls h).1
    rw [hcalls] at hcall
    exact (mem_replicate.mp hcall).2
  refine ⟨?_, ?_, ?_⟩
  · intro call hcall reply hreply
    rw [hempty hcall] at hreply
    nomatch hreply
  · intro call hcall hlive
    rw [hempty hcall] at hlive
    nomatch hlive
  · intro i j call call' hi hj hlive
    rw [hempty (mem_of_getElem? hi)] at hlive
    nomatch hlive

def Anything (_ : Tables) (_ : Label) : Prop := True

theorem tolerates_anything : Tolerates Anything :=
  ⟨fun _ _ _ => trivial, fun _ _ _ => trivial, fun _ _ _ => trivial, fun _ _ _ => trivial,
    fun _ _ _ => trivial⟩

theorem allows_anything : Allows runtime Anything world pump := by
  cases pump with
  | client client =>
    exact fun _ _ _ _ => ⟨fun _ _ _ _ _ _ => trivial, fun _ _ _ _ => trivial,
      fun _ _ _ _ => trivial⟩
  | time => exact fun _ _ _ _ => ⟨fun _ _ _ _ _ _ => trivial, fun _ _ _ _ _ _ _ => trivial⟩
  | serverDeath => exact fun _ _ _ _ _ _ => trivial
  | _ => trivial

def Event.isReplyTo (client : Client) (requestId : Nat) : Event → Bool
  | .offered _ recipient message =>
    recipient == client && message.kind == kindReply && message.requestId == requestId
  | _ => false

def Event.terminalFor (index : Nat) : Event → Option Int
  | .offered record _ message =>
    if record = some index ∧ message.kind = kindTerminal then some message.status else none
  | _ => none

def settlesCancelled (status : Int) : Bool :=
  status == statusCancelled || status == statusPeerDead || status == statusMalformedReply

/-- Only the record's own request may not be reopened, an expired cancellation is still one,
and a cancelling record is not put back in the queue. -/
def KeepsCancelled (index : Nat) (_ : Tables) : Label → Prop
  | .opened record _ _ => record ≠ some index
  | .finished call status => call.phase = .cancelling → settlesCancelled status
  | .deferred call => call.phase ≠ .cancelling
  | .staged _ => True

theorem tolerates_keepsCancelled (index : Nat) : Tolerates (KeepsCancelled index) := by
  refine ⟨fun _ _ _ _ => rfl, fun _ _ _ _ => rfl, fun _ _ _ _ => rfl, ?_, ?_⟩
  · intro _ call hphase hcancelling
    nomatch hphase.symm.trans hcancelling
  · intro _ call hphase hcancelling
    nomatch hphase.symm.trans hcancelling

/-- How a record that was cancelling stands, after the terminals offered for it since. -/
inductive Standing (call : Call) (client : Client) (requestId : Nat) : List Int → Prop where
  | cancelling (phase : call.phase = .cancelling) (key : call.key = (client, requestId)) :
      Standing call client requestId []
  | settled {status : Int} {statuses : List Int} (phase : call.phase = .pendingTerminal)
      (first : settlesCancelled status) : Standing call client requestId (status :: statuses)
  | free {statuses : List Int} (phase : call.phase = .free)
      (first : ∀ status ∈ statuses.head?, settlesCancelled status) :
      Standing call client requestId statuses

/-- The record at `index` was cancelling when the log ended in `before`. -/
structure Watched (index : Nat) (client : Client) (requestId : Nat) (before : List Event)
    (t : Tables) : Prop where
  registered : Registered t
  below : requestId ≤ t.highWater client
  alone : ∀ (j : Nat) (call : Call), j ≠ index → t.calls[j]? = some call → call.isLive →
    call.key ≠ (client, requestId)
  standing : ∃ since call, t.log = before ++ since ∧
    (∀ event ∈ since, event.isReplyTo client requestId = false) ∧
    t.calls[index]? = some call ∧
    Standing call client requestId (since.filterMap (Event.terminalFor index))

theorem terminalFor_settled (index : Nat) (payload : Payload) :
    payload.settled.filterMap (terminalFor index) = [] := by
  cases payload <;> simp [Payload.settled, terminalFor]

theorem isReplyTo_settled {payload : Payload} {event : Event}
    (h : event ∈ payload.settled) : event.isReplyTo client requestId = false := by
  cases payload <;> simp_all [Payload.settled] <;> rcases h with rfl | rfl <;> rfl

theorem isReplyTo_terminal (call : Call) (record : Option Nat) (status : Int) :
    (call.terminal record status).isReplyTo client requestId = false := by
  simp [terminal, isReplyTo, terminalEnvelope, kindTerminal, kindReply]

theorem terminalFor_terminal (call : Call) (index : Nat) (record : Option Nat) (status : Int) :
    (call.terminal record status).terminalFor index =
      if record = some index then some status else none := by
  simp [terminal, terminalFor, terminalEnvelope]

theorem Turn.elsewhere {j : Nat}
    (hturn : Turn j hand label call events call' hand') (hj : j ≠ index)
    (hanswers : call.Answers) (halone : call.isLive → call.key ≠ (client, requestId)) :
    (∀ event ∈ events, event.isReplyTo client requestId = false) ∧
      events.filterMap (terminalFor index) = [] := by
  have hne : some j ≠ some index := fun h => hj (Option.some.inj h)
  cases hturn with
  | vacated live => exact ⟨fun _ => isReplyTo_settled, terminalFor_settled index _⟩
  | offeredTerminal pending =>
    exact ⟨by simp [isReplyTo_terminal], by simp [terminalFor_terminal, hj]⟩
  | @offeredReply _ reply payload answered =>
    obtain ⟨-, hid⟩ := hanswers reply payload
    have hother := halone (by simp [isLive, answered])
    refine ⟨?_, by simp [terminalFor, hne]⟩
    intro event hevent
    rw [mem_singleton.mp hevent]
    by_contra hreply
    simp only [isReplyTo, Bool.not_eq_false, Bool.and_eq_true, beq_iff_eq] at hreply
    exact hother (Prod.ext hreply.1.1 (hid.symm.trans hreply.2))
  | finished status live =>
    refine ⟨?_, ?_⟩
    · intro event hevent
      rcases mem_append.mp hevent with hevent | hevent
      · exact isReplyTo_settled hevent
      · rw [mem_singleton.mp hevent]
        exact isReplyTo_terminal call _ status
    · simp [filterMap_append, terminalFor_settled, terminalFor_terminal, hj]
  | settledRequest outstanding waiting =>
    exact ⟨fun _ => isReplyTo_settled, terminalFor_settled index _⟩
  | _ => exact ⟨nofun, rfl⟩

theorem Turn.standing {statuses : List Int} (hturn : Turn index hand label call events call' hand')
    (hstanding : Standing call client requestId statuses)
    (hallowed : ∀ l ∈ label, KeepsCancelled index t l) :
    (∀ event ∈ events, event.isReplyTo client requestId = false) ∧
      Standing call' client requestId (statuses ++ events.filterMap (terminalFor index)) := by
  have hfinished (status : Int) : (∀ event ∈ call.payload.settled ++
      [call.terminal (some index) status], event.isReplyTo client requestId = false) ∧
        (call.payload.settled ++ [call.terminal (some index) status]).filterMap
          (terminalFor index) = [status] := by
    refine ⟨?_, ?_⟩
    · intro event hevent
      rcases mem_append.mp hevent with hevent | hevent
      · exact isReplyTo_settled hevent
      · rw [mem_singleton.mp hevent]
        exact isReplyTo_terminal call _ status
    · simp [filterMap_append, terminalFor_settled, terminalFor_terminal]
  cases hstanding with
  | cancelling phase key =>
    cases hturn with
    | retouched alike =>
      exact ⟨nofun, .cancelling (alike.phase.trans phase)
        ((Prod.ext alike.clientIndex alike.requestId).trans key)⟩
    | vacated live =>
      refine ⟨fun _ => isReplyTo_settled, ?_⟩
      rw [terminalFor_settled]
      exact .free rfl nofun
    | finished status live =>
      refine ⟨(hfinished status).1, ?_⟩
      rw [(hfinished status).2]
      exact .settled rfl (hallowed _ rfl phase)
    | deferred queued => exact absurd phase (hallowed _ rfl)
    | forwarded queued slot next_cases =>
      exact ⟨nofun, .cancelling (by simp [phase]) key⟩
    | settledRequest outstanding waiting =>
      refine ⟨fun _ => isReplyTo_settled, ?_⟩
      rw [terminalFor_settled]
      exact .cancelling phase key
    | _ => simp_all
  | settled phase first =>
    cases hturn with
    | retouched alike =>
      exact ⟨nofun, .settled (alike.phase.trans phase) first⟩
    | vacated live =>
      refine ⟨fun _ => isReplyTo_settled, .free rfl ?_⟩
      simpa using first
    | retired pending =>
      refine ⟨nofun, .free rfl ?_⟩
      simpa using first
    | offeredTerminal pending =>
      refine ⟨?_, .settled phase first⟩
      simp [isReplyTo_terminal]
    | finished status live => exact ⟨(hfinished status).1, .settled rfl first⟩
    | _ => simp_all
  | free phase first =>
    cases hturn with
    | retouched alike =>
      rw [filterMap_nil, append_nil]
      exact ⟨nofun, .free (alike.phase.trans phase) first⟩
    | rejected free pending payload => exact absurd rfl (hallowed _ rfl)
    | _ => simp_all

theorem Watched.event {event : Event} (h : Watched index client requestId before t)
    (hreply : event.isReplyTo client requestId = false)
    (hterminal : event.terminalFor index = none) (hand : Option Nat)
    (pending : List (Option Call)) :
    Watched index client requestId before { t with hand, pending, log := t.log ++ [event] } := by
  obtain ⟨since, call, hlog, hsince, hcall, hstanding⟩ := h.standing
  refine ⟨⟨h.registered.answers, h.registered.below, h.registered.distinct⟩, h.below, h.alone,
    since ++ [event], call, ?_, ?_, hcall, ?_⟩
  · rw [hlog, append_assoc]
  · intro e he
    rcases mem_append.mp he with he | he
    · exact hsince e he
    · rw [mem_singleton.mp he]
      exact hreply
  · simpa [filterMap_append, hterminal] using hstanding

theorem watched_move (h : Watched index client requestId before t)
    (hmove : Move (KeepsCancelled index) t t') : Watched index client requestId before t' := by
  have hregistered := registered_move h.registered hmove
  obtain ⟨since, watched, hlog, hsince, hwatched, hstanding⟩ := h.standing
  cases hmove with
  | @turn j label call call' events hand found turn allowed =>
    have halone (other : Nat) (call'' : Call) (hother : other ≠ index)
        (hcall : (t.calls.set j call')[other]? = some call'') (hlive : call''.isLive) :
        call''.key ≠ (client, requestId) := by
      rcases getElem?_set_cases hcall with ⟨rfl, rfl⟩ | ⟨-, hold⟩
      · obtain ⟨hlive, hkey⟩ := turn.live hlive
        rw [hkey]
        exact h.alone other call hother found hlive
      · exact h.alone other call'' hother hold hlive
    by_cases hj : j = index
    · subst hj
      obtain rfl := Option.mem_unique hwatched found
      obtain ⟨hevents, hstands⟩ := turn.standing hstanding allowed
      refine ⟨hregistered, h.below, halone, since ++ events, call', ?_, ?_, ?_, ?_⟩
      · rw [hlog, append_assoc]
      · intro event hevent
        exact (mem_append.mp hevent).elim (hsince event) (hevents event)
      · exact getElem?_set_self (List.getElem_of_getElem? found).1
      · rw [filterMap_append]
        exact hstands
    · obtain ⟨hevents, hnone⟩ := turn.elsewhere hj
        (h.registered.answers call (mem_of_getElem? found)) (h.alone j call hj found)
      refine ⟨hregistered, h.below, halone, since ++ events, watched, ?_, ?_, ?_, ?_⟩
      · rw [hlog, append_assoc]
      · intro event hevent
        exact (mem_append.mp hevent).elim (hsince event) (hevents event)
      · exact (getElem?_set_ne hj).trans hwatched
      · rw [filterMap_append, hnone, append_nil]
        exact hstanding
  | @admitted j call call' found free phase slot request session later allowed =>
    have hj : j ≠ index := fun hj => allowed (congrArg some hj)
    refine ⟨hregistered, ?_, ?_, since, watched, hlog, hsince,
      (getElem?_set_ne hj).trans hwatched, hstanding⟩
    · change requestId ≤ update t.highWater call'.clientIndex call'.requestId client
      have hbelow := h.below
      by_cases hclient : client = call'.clientIndex
      · subst hclient
        rw [update_self]
        omega
      · rw [update_of_ne hclient]
        exact hbelow
    · intro other call'' hother hcall hlive
      rcases getElem?_set_cases hcall with ⟨rfl, rfl⟩ | ⟨-, hold⟩
      · intro hkey
        obtain ⟨hclient, hid⟩ := Prod.ext_iff.mp hkey
        have hbelow := h.below
        simp only [key] at hclient hid
        rw [← hclient] at hbelow
        omega
      · exact h.alone other call'' hother hold hlive
  | queued found allowed =>
    exact ⟨hregistered, h.below, h.alone, since, watched, hlog, hsince, hwatched, hstanding⟩
  | unqueued =>
    exact ⟨hregistered, h.below, h.alone, since, watched, hlog, hsince, hwatched, hstanding⟩
  | reoffered found =>
    exact h.event (isReplyTo_terminal _ _ _) (by simp [terminalFor_terminal]) t.hand t.pending
  | relayed empty => exact h.event rfl rfl _ t.pending
  | discarded held => exact h.event rfl rfl _ t.pending
  | @noted event quiet =>
    refine h.event ?_ ?_ t.hand t.pending <;> cases event <;> first | rfl | nomatch quiet

def Broker.Occupied (broker : Broker) (index : Nat) : Prop :=
  ∃ call, broker.calls[index]? = some call ∧ call.phase ≠ .free

/-- No advance of the clock finds a cancelling record that is due for another attempt. -/
def noCancellationDeferred (runtime : Runtime) (world : World) : Pump → Bool
  | .time =>
    match runtime.recv world.clock with
    | .message message => message.advance.all fun advance =>
      world.broker.calls.all fun call =>
        !(call.phase == .cancelling && call.payload != .none &&
          advance.nowNs < call.deadlineNs && call.nextRetryNs ≤ advance.nowNs)
    | _ => true
  | _ => true

theorem allows_keepsCancelled
    (h : noCancellationDeferred runtime world pump) (hlive : world.broker.Occupied index) :
    Allows runtime (KeepsCancelled index) world pump := by
  cases pump with
  | client client =>
    intro slot message _ _
    refine ⟨?_, fun _ _ _ _ => trivial, fun _ _ _ _ _ => rfl⟩
    rintro - - t - hlevel hvacant rfl
    obtain ⟨call, hcall, hfree⟩ := hvacant index rfl
    obtain ⟨call', hcall', hoccupied⟩ := hlive
    rw [hlevel.calls] at hcall
    obtain rfl := Option.mem_unique hcall hcall'
    exact hoccupied hfree
  | time =>
    intro message advance hmessage hadvance
    refine ⟨fun _ _ _ hphase _ _ hcancelling => absurd hcancelling hphase, ?_⟩
    intro call hcall hphase hpayload hdeadline hretry _ _
    simp only [noCancellationDeferred, hmessage, hadvance, Option.all_some, List.all_eq_true] at h
    have hcall := h call hcall
    simp [hphase, hpayload, hdeadline, hretry] at hcall
  | serverDeath => exact fun _ _ _ _ _ _ _ => rfl
  | _ => trivial

theorem run_step_none (runtime : Runtime) (pumps : List Pump) :
    run (step runtime) none pumps = none := by
  induction pumps with
  | nil => rfl
  | cons pump pumps ih => exact ih

theorem watched_run {pumps : List Pump} {middle : World}
    (h : Watched index client requestId before (middle.tables none))
    (hpumps : Permitted (step runtime)
      (fun state pump => along (noCancellationDeferred runtime) state pump) (some middle) pumps)
    (hlive : ∀ n < pumps.length, ∀ world,
      run (step runtime) (some middle) (pumps.take n) = some world → world.broker.Occupied index)
    (hrun : run (step runtime) (some middle) pumps = some world) :
    Watched index client requestId before (world.tables none) := by
  induction pumps generalizing middle with
  | nil =>
    obtain rfl := Option.some.inj hrun
    exact h
  | cons pump pumps ih =>
    rw [run_cons] at hrun
    rcases hstep : step runtime (some middle) pump with _ | next
    · rw [hstep, run_step_none] at hrun
      nomatch hrun
    rw [hstep] at hrun
    have hoccupied := hlive 0 (by simp) middle rfl
    have hmoves := step_reaches runtime (tolerates_keepsCancelled index)
      (allows_keepsCancelled hpumps.1 hoccupied) hstep
    have hnext : Watched index client requestId before (next.tables none) := by
      generalize next.tables none = reached at hmoves
      induction hmoves with
      | refl => exact h
      | tail _ hlast ih => exact watched_move ih hlast
    refine ih hnext (by rw [← hstep]; exact hpumps.2) ?_ hrun
    intro n hn later hlater
    apply hlive (n + 1) (by simpa using hn) later
    rw [take_succ_cons, run_cons, hstep]
    exact hlater

/-- Once a record is cancelling, and until it is free, its client is offered no reply to the
request, and the first terminal offered for it says that the call was cancelled, that the
server died or that its reply was malformed. -/
theorem cancelled_call_stays_cancelled (runtime : Runtime) (wiring : Wiring)
    (limits : RuntimeLimits) (broker : Broker) (hnew : Broker.new wiring limits = .ok broker)
    (declaredDeadlineNs : Nat) (before after : List Pump) (middle world : World)
    (hbefore : run (step runtime) (some (World.start broker declaredDeadlineNs)) before =
      some middle)
    (index : Nat) (call : Call) (hcall : middle.broker.calls[index]? = some call)
    (hphase : call.phase = .cancelling) (hpumps : Permitted (step runtime)
      (fun state pump => along (noCancellationDeferred runtime) state pump) (some middle) after)
    (hlive : ∀ n < after.length, ∀ world,
      run (step runtime) (some middle) (after.take n) = some world → world.broker.Occupied index)
    (hrun : run (step runtime) (some middle) after = some world) :
    ∃ since, world.log = middle.log ++ since ∧
      (∀ event ∈ since, event.isReplyTo call.clientIndex call.requestId = false) ∧
      ∀ status ∈ (since.filterMap (Event.terminalFor index)).head?,
        status = statusCancelled ∨ status = statusPeerDead ∨ status = statusMalformedReply := by
  have hregistered : Registered (middle.tables none) := by
    refine run_tables runtime Registered (fun _ _ => true) tolerates_anything
      (fun _ _ _ => allows_anything) (fun _ _ => registered_move)
      (registered_start hnew _) (permitted_of_forall _ ?_ _ _) hbefore
    rintro (_ | _) _ <;> rfl
  have hlive' : call.isLive := by simp [Call.isLive, hphase]
  have hwatched : Watched index call.clientIndex call.requestId middle.log
      (middle.tables none) := by
    refine ⟨hregistered, hregistered.below call (mem_of_getElem? hcall) hlive', ?_,
      [], call, (append_nil _).symm, nofun, hcall, .cancelling hphase rfl⟩
    intro j other hj hother hotherLive hkey
    exact hj (hregistered.distinct j index other call hother hcall hotherLive hlive' hkey)
  obtain ⟨since, last, hlog, hreplies, -, hstanding⟩ :=
    (watched_run hwatched hpumps hlive hrun).standing
  refine ⟨since, hlog, hreplies, ?_⟩
  intro status hstatus
  have hsettles : settlesCancelled status := by
    generalize since.filterMap (Event.terminalFor index) = statuses at hstanding hstatus
    cases hstanding with
    | cancelling phase key => nomatch hstatus
    | settled phase first =>
      obtain rfl := Option.some.inj hstatus
      exact first
    | free phase first => exact first status hstatus
  simpa [settlesCancelled, or_assoc] using hsettles

def serverReply (requestId : Nat) (status : Int) : Receipt :=
  .message {
    length := 64
    record := .call {
      version := 1, kind := kindReply, flags := 0, session := session, requestId,
      typeIdentity := typeTag, status, payloadLen := 0, payload := Vector.replicate 16 0 }
    caps := [] }

def clockAdvance (nowNs : Nat) : Receipt :=
  .message {
    length := 64
    record := .time { version := 1, flags := 0, reserved0 := 0, nowNs,
                      reserved := Vector.replicate 40 0 }
    caps := [] }

/-- A request at the server, its cancellation, and an advance of the clock before the server
answers the request. The server then answers the cancellation, and the clock passes the
deadline. -/
def deferringRuntime : Runtime := sampleRuntime fun clock =>
  if clock = 0 then clientEnvelope kindRequest 1 statusSuccess
  else if clock = 2 then clientEnvelope kindCancel 1 statusCancelled
  else if clock = 3 then clockAdvance 10
  else if clock = 4 then serverReply 1 statusSuccess
  else if clock = 6 then serverReply 1 statusCancelled
  else if clock = 8 then clockAdvance 2000
  else .wouldBlock

def deferringPumps : List Pump :=
  [.client 0, .client 0, .time, .server, .terminals, .server, .time]

/-- The record is cancelling after the second pump and in use from then on, and its client is
offered a reply and then a timeout. -/
theorem cancelled_call_answered :
    (run (step deferringRuntime) sampleStart (deferringPumps.take 2)).any (fun middle =>
      (middle.broker.calls[0]?.any fun call => call.phase == .cancelling) &&
        middle.log.all fun event => !event.isReplyTo 0 1 && (event.terminalFor 0).isNone) = true ∧
    (∀ n < 6, (run (step deferringRuntime) sampleStart (deferringPumps.take (n + 2))).any
      (fun later => later.broker.calls[0]?.any fun call => call.phase != .free) = true) ∧
    (run (step deferringRuntime) sampleStart deferringPumps).any (fun world =>
      world.log.any (Event.isReplyTo 0 1) &&
        (world.log.filterMap (Event.terminalFor 0)).head? == some statusTimeout) = true := by
  decide +kernel

/-- A request at the server and its cancellation. The server answers the request and then the
cancellation. -/
def settlingRuntime : Runtime := sampleRuntime fun clock =>
  if clock = 0 then clientEnvelope kindRequest 1 statusSuccess
  else if clock = 2 then clientEnvelope kindCancel 1 statusCancelled
  else if clock = 3 then serverReply 1 statusSuccess
  else if clock = 5 then serverReply 1 statusCancelled
  else .wouldBlock

theorem cancelled_call_settled :
    ∃ middle world call since,
      run (step settlingRuntime) sampleStart [.client 0, .client 0] = some middle ∧
      middle.broker.calls[0]? = some call ∧ call.phase = .cancelling ∧
      run (step settlingRuntime) (some middle) [.server, .terminals, .server] = some world ∧
      world.log = middle.log ++ since ∧
      (∀ event ∈ since, event.isReplyTo call.clientIndex call.requestId = false) ∧
      ∀ status ∈ (since.filterMap (Event.terminalFor 0)).head?,
        status = statusCancelled ∨ status = statusPeerDead ∨ status = statusMalformedReply := by
  have hmiddle : (run (step settlingRuntime) sampleStart [.client 0, .client 0]).any (fun middle =>
      middle.broker.calls[0]?.any fun call => call.phase == .cancelling) = true := by
    decide +kernel
  have hpumps : Permitted (step settlingRuntime)
      (fun state pump => along (noCancellationDeferred settlingRuntime) state pump)
      (run (step settlingRuntime) sampleStart [.client 0, .client 0])
      [.server, .terminals, .server] := by decide +kernel
  have hlive : ∀ n < 3, (run (step settlingRuntime)
      (run (step settlingRuntime) sampleStart [.client 0, .client 0])
      ([.server, .terminals, .server].take n)).all (fun world =>
        world.broker.calls[0]?.any fun call => call.phase != .free) = true := by decide +kernel
  have hworld : (run (step settlingRuntime)
      (run (step settlingRuntime) sampleStart [.client 0, .client 0])
      [.server, .terminals, .server]).isSome = true := by decide +kernel
  generalize hbefore : run (step settlingRuntime) sampleStart [.client 0, .client 0] = state
    at hmiddle hpumps hlive hworld
  obtain _ | middle := state
  · nomatch hmiddle
  obtain ⟨world, hrun⟩ := Option.isSome_iff_exists.mp hworld
  obtain ⟨call, hcall, hphase⟩ : ∃ call, middle.broker.calls[0]? = some call ∧
      call.phase = .cancelling := by simpa [Option.any_eq_true] using hmiddle
  have hoccupied : ∀ n < 3, ∀ world, run (step settlingRuntime) (some middle)
      ([.server, .terminals, .server].take n) = some world → world.broker.Occupied 0 := by
    intro n hn later hlater
    have hlater' := hlive n hn
    rw [hlater] at hlater'
    simpa [Option.any_eq_true, Broker.Occupied] using hlater'
  obtain ⟨since, hsince⟩ := cancelled_call_stays_cancelled settlingRuntime sampleWiring
    sampleLimits sampleBroker sampleBroker_new 1000 _ _ middle world hbefore 0 call hcall hphase
    hpumps hoccupied hrun
  exact ⟨middle, world, call, since, rfl, hcall, hphase, hrun, hsince⟩

end SlimeOs.CallBroker
