import SlimeOs.AnswerDocket
import SlimeOs.CallCancellation

/-!
Every request has one outcome: the terminals a client is offered for one request carry one
status, and none is offered once a reply has been, unless the server died.

The call table and the overflow queue are read as a docket whose questions are the requests.
What breaks the property is a settled record that is settled again, by the clock or by a
cancellation, and a request id that is used again.
-/

namespace SlimeOs.CallBroker

open Bool FallibleCall Function List Option Event Call Tables World

inductive Answer where
  | reply
  | terminal (status : Int)
deriving DecidableEq

/-- The answer a record stands at: the one it offers until it is acknowledged. -/
def Call.answer (call : Call) : Option Answer :=
  match call.phase, call.payload with
  | .pendingTerminal, _ => some (.terminal call.terminalStatus)
  | .forwardingReply, .inlineReply _ => some .reply
  | _, _ => none

def Call.entry (call : Call) : Option ((Client × Nat) × Option Answer) :=
  if call.phase = .free then none else some (call.key, call.answer)

def entries (calls : List Call) (pending : List (Option Call)) :
    Nat ⊕ Nat → Option ((Client × Nat) × Option Answer)
  | .inl index => calls[index]?.bind Call.entry
  | .inr index => pending[index]?.join.map fun call =>
    (call.key, some (.terminal call.terminalStatus))

def Event.announcement : Event → Option ((Client × Nat) × Answer)
  | .offered _ client message =>
    if message.kind = kindTerminal then
      some ((client, message.requestId), .terminal message.status)
    else if message.kind = kindReply then some ((client, message.requestId), .reply)
    else none
  | _ => none

def Tables.docket (t : Tables) : Docket (Nat ⊕ Nat) (Client × Nat) Answer where
  entries := entries t.calls t.pending
  announced := t.log.filterMap Event.announcement

variable {call call' : Call} {pending : List (Option Call)} {index requestId : Nat}
  {calls : List Call} {event : Event} {Agree : Answer → Answer → Prop} {t : Tables}
  {limits : RuntimeLimits} {wiring : Wiring} {broker : Broker} {runtime : Runtime} {world : World}
  {client : Client} {status : Int} {pump : Pump}

theorem entries_set_call (hcall : calls[index]? = some call) :
    entries (calls.set index call') pending =
      update (entries calls pending) (.inl index) call'.entry := by
  have hlt := (List.getElem_of_getElem? hcall).1
  funext place
  by_cases hplace : place = .inl index
  · subst hplace
    simp [entries, hlt]
  rw [update_of_ne hplace]
  rcases place with j | j
  · have hj : index ≠ j := fun h => hplace (by rw [h])
    simp [entries, getElem?_set_ne hj]
  · rfl

theorem entries_set_pending {call : Option Call} (hindex : call = none ∨ index < pending.length) :
    entries calls (pending.set index call) =
      update (entries calls pending) (.inr index)
        (call.map fun call => (call.key, some (.terminal call.terminalStatus))) := by
  funext place
  by_cases hplace : place = .inr index
  · subst hplace
    rcases hindex with rfl | hlt
    · by_cases hlt : index < pending.length <;> simp [entries, hlt]
    · simp [entries, hlt]
  rw [update_of_ne hplace]
  rcases place with j | j
  · rfl
  · have hj : index ≠ j := fun h => hplace (by rw [h])
    simp [entries, getElem?_set_ne hj]

theorem entry_of_live (hlive : call.phase ≠ .free) :
    call.entry = some (call.key, call.answer) := if_neg hlive

theorem announcement_terminal (call : Call) (record : Option Nat) (status : Int) :
    (call.terminal record status).announcement = some (call.key, .terminal status) := by
  simp [terminal, announcement, terminalEnvelope, key]

theorem announcement_settled (payload : Payload) :
    payload.settled.filterMap announcement = [] := by
  cases payload <;> rfl

theorem announcement_quiet (hquiet : event.quiet) : event.announcement = none := by
  cases event <;> first | rfl | nomatch hquiet

/-- Requests are new when they are opened, and a settled record is settled again only by a
status that agrees with what was offered before. -/
def Settles (Agree : Answer → Answer → Prop) (t : Tables) : Label → Prop
  | .opened _ client requestId => t.docket.Fresh (client, requestId)
  | .finished call status =>
    ∀ given ∈ call.answer, Docket.Yields Agree given (.terminal status)
  | .deferred _ | .staged _ => True

/-- A record that waits for something stands at no answer. -/
theorem answer_of_waiting (hphase : call.phase = .awaitingReply ∨
    call.phase = .forwarding ∨ call.phase = .cancelling) : call.answer = none := by
  rcases hphase with h | h | h <;> simp [answer, h]

theorem entry_of_waiting (hphase : call.phase = .awaitingReply ∨
    call.phase = .forwarding ∨ call.phase = .cancelling) : call.entry = some (call.key, none) := by
  have hlive : call.phase ≠ .free := by
    rcases hphase with h | h | h <;> simp [h]
  rw [entry_of_live hlive, answer_of_waiting hphase]

theorem Turn.docket {hand hand' : Option Nat} {label : Option Label} {events : List Event}
    (hturn : Turn index hand label call events call' hand')
    (hcall : t.calls[index]? = some call) (hanswers : call.Answers)
    (hallowed : ∀ l ∈ label, Settles Agree t l) :
    Relation.ReflTransGen (Docket.Step Agree) t.docket
      { entries := update t.docket.entries (.inl index) call'.entry
        announced := t.docket.announced ++ events.filterMap announcement } := by
  have hentry : t.docket.entries (.inl index) = call.entry := by
    simp [Tables.docket, entries, hcall]
  -- A turn the docket does not see.
  have hkept {call' : Call} (h : call'.entry = call.entry) :
      Relation.ReflTransGen (Docket.Step Agree) t.docket
        { entries := update t.docket.entries (.inl index) call'.entry
          announced := t.docket.announced ++ [] } := by
    rw [h, ← hentry, update_eq_self, append_nil]
  have hclosed : Relation.ReflTransGen (Docket.Step Agree) t.docket
      { entries := update t.docket.entries (.inl index) empty.entry
        announced := t.docket.announced ++ [] } := by
    rw [append_nil]
    exact .single .closed
  have hannounced {answer : Answer} (h : call.entry = some (call.key, some answer)) :
      Relation.ReflTransGen (Docket.Step Agree) t.docket
        { entries := update t.docket.entries (.inl index) call.entry
          announced := t.docket.announced ++ [(call.key, answer)] } := by
    rw [← hentry, update_eq_self]
    exact .single (.announced (hentry.trans h))
  cases hturn with
  | retouched alike =>
    apply hkept
    simp [entry, answer, key, alike.phase, alike.payload, alike.requestId,
      alike.clientIndex, alike.terminalStatus]
  | rejected free pending payload =>
    have hfresh := hallowed _ rfl
    rw [entry_of_live (by rw [pending]; decide)]
    simp only [filterMap_nil, append_nil]
    exact .single (.opened hfresh)
  | vacated live =>
    rw [announcement_settled]
    exact hclosed
  | retired pending => exact hclosed
  | offeredTerminal pending =>
    simp only [filterMap_cons, announcement_terminal, filterMap_nil]
    apply hannounced
    rw [entry_of_live (by rw [pending]; decide)]
    simp [answer, pending]
  | @offeredReply _ reply payload answered =>
    obtain ⟨hkind, hid⟩ := hanswers reply payload
    have hevent : (offered (some index) call.clientIndex reply).announcement =
        some (call.key, .reply) := by
      simp [announcement, hkind, hid, kindReply, kindTerminal, key]
    simp only [filterMap_cons, hevent, filterMap_nil]
    apply hannounced
    rw [entry_of_live (by rw [answered]; decide)]
    simp [answer, answered, payload]
  | finished status live =>
    simp only [filterMap_append, announcement_settled, filterMap_cons,
      announcement_terminal, filterMap_nil, nil_append]
    have hruled := Docket.Step.ruled (hentry.trans (entry_of_live live)) (hallowed _ rfl)
    exact (Relation.ReflTransGen.single hruled).tail (.announced (update_self (Sum.inl index) _ _))
  | deferred queued =>
    apply hkept
    rw [entry_of_waiting (.inr queued)]
    exact entry_of_waiting (.inr (.inl rfl))
  | forwarded queued slot next_cases =>
    apply hkept
    rw [entry_of_waiting (.inr queued)]
    apply entry_of_waiting
    by_cases h : call.phase = .cancelling <;> simp [h]
  | staged broker hopen =>
    apply hkept
    rw [entry_of_waiting (hopen.imp_right .inl)]
    exact entry_of_waiting (.inr (.inr rfl))
  | settledRequest outstanding waiting =>
    have hwaiting : call.phase = .awaitingReply ∨ call.phase = .forwarding ∨
        call.phase = .cancelling := waiting.imp_right .inr
    rw [announcement_settled]
    apply hkept
    rw [entry_of_waiting hwaiting]
    exact entry_of_waiting hwaiting
  | answered waiting settled kind requestId =>
    simp only [filterMap_nil, append_nil]
    exact .single (.ruled (hentry.trans (entry_of_waiting (.inl waiting))) (by simp))
  | answeredShared waiting settled held =>
    apply hkept
    rw [entry_of_waiting (.inl waiting)]
    rfl

theorem docket_silent (hevent : event.announcement = none) (t : Tables)
    (hand : Option Nat) : docket { t with hand, log := t.log ++ [event] } = t.docket := by
  simp [docket, hevent]

theorem move_docket {t' : Tables} (hanswers : ∀ call ∈ t.calls, call.Answers)
    (hmove : Move (Settles Agree) t t') :
    Relation.ReflTransGen (Docket.Step Agree) t.docket t'.docket := by
  cases hmove with
  | turn found turn allowed =>
    have hsteps := turn.docket found (hanswers _ (mem_of_getElem? found)) allowed
    simpa [docket, entries_set_call found] using hsteps
  | @admitted index call call' found free phase slot request session later allowed =>
    have hfresh := allowed
    have hopened : Docket.Step Agree t.docket { t.docket with
        entries := update t.docket.entries (.inl index) (some (call'.key, none)) } :=
      .opened hfresh
    refine .single ?_
    simpa [docket, entries_set_call found, entry_of_waiting (.inr (.inl phase))]
      using hopened
  | @queued index call found allowed =>
    have hfresh := allowed
    have hopened : Docket.Step Agree t.docket { t.docket with
        entries := update t.docket.entries (.inr index)
          (some (call.key, some (.terminal call.terminalStatus))) } := .opened hfresh
    have hlt := (List.getElem_of_getElem? found).1
    refine .single ?_
    simpa [docket, entries_set_pending (.inr hlt)] using hopened
  | @unqueued index =>
    have hclosed : Docket.Step Agree t.docket { t.docket with
        entries := update t.docket.entries (.inr index) none } := .closed
    refine .single ?_
    simpa [docket, entries_set_pending (.inl rfl)] using hclosed
  | @reoffered index call found =>
    have hentry : t.docket.entries (.inr index) =
        some (call.key, some (.terminal call.terminalStatus)) := by
      simp [docket, entries, found]
    refine .single ?_
    simpa [docket, announcement_terminal] using Docket.Step.announced hentry
  | relayed empty => rw [docket_silent rfl]
  | discarded held => rw [docket_silent rfl]
  | noted quiet => rw [docket_silent (announcement_quiet quiet)]

theorem docket_start (h : Broker.new wiring limits = .ok broker) (declaredDeadlineNs : Nat) :
    ((start broker declaredDeadlineNs).tables none).docket.Consistent Agree := by
  obtain ⟨hcalls, hpending⟩ := new_calls h
  have hvacant (place : Nat ⊕ Nat) :
      ((start broker declaredDeadlineNs).tables none).docket.entries place = none := by
    change entries broker.calls broker.pendingTerminals place = none
    rw [hcalls, hpending]
    rcases place with index | index <;>
      simp [entries, getElem?_replicate, entry, empty, apply_ite]
  refine ⟨?_, ?_, by rintro _ _ _ ⟨⟩⟩
  · intro place place' question given given' hentry
    cases (hvacant place).symm.trans hentry
  · intro place question given hentry
    cases (hvacant place).symm.trans hentry

theorem consistent_run {condition : World → Pump → Bool} (hrefl : ∀ answer, Agree answer answer)
    (hsymm : ∀ answer answer', Agree answer answer' → Agree answer' answer)
    (ht : Tolerates (Settles Agree))
    (hallows : ∀ world pump, condition world pump → Allows runtime (Settles Agree) world pump)
    (hnew : Broker.new wiring limits = .ok broker) {declaredDeadlineNs : Nat} {pumps : List Pump}
    (hpumps : Permitted (step runtime) (fun state pump => along condition state pump)
      (some (start broker declaredDeadlineNs)) pumps)
    (hrun : run (step runtime) (some (start broker declaredDeadlineNs)) pumps =
      some world) : (world.tables none).docket.Consistent Agree := by
  refine (run_tables runtime (fun t => Registered t ∧ t.docket.Consistent Agree) condition ht
    hallows ?_ ⟨registered_start hnew _, docket_start hnew _⟩ hpumps hrun).2
  rintro t t' ⟨hregistered, hconsistent⟩ hmove
  exact ⟨registered_move hregistered hmove,
    Docket.consistent_steps hrefl hsymm hconsistent (move_docket hregistered.answers hmove)⟩

/-- No record is in use or queued for the request, and nothing was ever offered for it. -/
def World.isFresh (world : World) (client : Client) (requestId : Nat) : Bool :=
  (world.broker.calls.all fun call => call.phase == .free || call.key != (client, requestId)) &&
    (world.broker.pendingTerminals.all fun pending =>
      pending.all fun call => call.key != (client, requestId)) &&
    world.log.all fun event => event.announcement.all fun offer => offer.1 != (client, requestId)

theorem fresh_of_level (h : world.isFresh client requestId) (hlevel : Level world t) :
    t.docket.Fresh (client, requestId) := by
  simp only [isFresh, and_eq_true, List.all_eq_true] at h
  obtain ⟨⟨hcalls, hpending⟩, hlog⟩ := h
  refine ⟨?_, ?_⟩
  · rintro (index | index) given hentry
    · obtain ⟨call, hcall, hentry⟩ := bind_eq_some_iff.mp hentry
      have hunused := hcalls call (hlevel.calls ▸ mem_of_getElem? hcall)
      unfold entry at hentry
      split at hentry
      · nomatch hentry
      next hlive =>
        simp_all
    · obtain ⟨call, hcall, hentry⟩ := map_eq_some_iff.mp hentry
      have hmem := mem_of_getElem? (join_eq_some_iff.mp hcall)
      have hunqueued := hpending (some call) (hlevel.pending ▸ hmem)
      simp_all
  · intro answer hanswer
    obtain ⟨event, hevent, hoffer⟩ := mem_filterMap.mp hanswer
    have hisOffer : event.isOffer := by
      cases event <;> first | rfl | nomatch hoffer
    have hmem : event ∈ world.log.filter isOffer := by
      rw [← hlevel.offers]
      exact mem_filter.mpr ⟨hevent, hisOffer⟩
    have hother := hlog event (mem_filter.mp hmem).1
    rw [hoffer] at hother
    simp at hother

/-- The pumps that neither use a request id again nor settle a settled record with another
status: a client's message opens a new request or cancels a record that is not settled, and
the clock passes the deadline of no settled record. -/
def settlesOnce (runtime : Runtime) (world : World) : Pump → Bool
  | .client client =>
    match world.broker.clients client, runtime.recv world.clock with
    | some slot, .message message =>
      (world.broker.opens slot message).all (world.isFresh client) &&
        (world.broker.cancels slot message).all fun call =>
          call.answer.all (· == .terminal statusCancelled)
    | _, _ => true
  | .time =>
    match runtime.recv world.clock with
    | .message message => message.advance.all fun advance =>
      world.broker.calls.all fun call =>
        advance.nowNs < call.deadlineNs || call.answer.all (· == .terminal statusTimeout)
    | _ => true
  | _ => true

/-- The server is not found dead while a client still has to acknowledge a terminal with
another status. -/
def buriesNoTerminal (runtime : Runtime) (world : World) : Pump → Bool
  | .serverDeath =>
    world.broker.serverDeathReported || runtime.supervisionStatus world.clock != .terminated ||
      world.broker.calls.all fun call => call.phase != .pendingTerminal ||
        call.terminalStatus == statusPeerDead
  | _ => true

theorem yields_self (h : call.answer.all (· == .terminal status)) :
    ∀ given ∈ call.answer, Docket.Yields Agree given (.terminal status) := by
  intro given hgiven other hother
  rw [mem_def.mp hgiven] at h
  rw [← beq_iff_eq.mp h]
  exact hother

theorem tolerates_settles : Tolerates (Settles Agree) := by
  have hwaiting {t : Tables} {call : Call} {status : Int}
      (hphase : call.phase = .awaitingReply ∨ call.phase = .forwarding ∨
        call.phase = .cancelling) : Settles Agree t (.finished call status) := by
    intro given hgiven
    rw [answer_of_waiting hphase] at hgiven
    nomatch hgiven
  exact ⟨fun _ _ hphase => hwaiting hphase, fun _ _ hphase => hwaiting (hphase.imp_right .inr),
    fun _ _ hphase => hwaiting (.inr (.inr hphase)),
    fun _ _ hphase => hwaiting (.inr (.inl hphase)), fun _ _ _ => trivial⟩

theorem allows_settles (h : settlesOnce runtime world pump)
    (hdeath : pump = .serverDeath → Allows runtime (Settles Agree) world pump) :
    Allows runtime (Settles Agree) world pump := by
  cases pump with
  | client client =>
    intro slot message hslot hmessage
    simp only [settlesOnce, hslot, hmessage, and_eq_true, List.all_eq_true] at h
    refine ⟨?_, fun _ _ _ _ => trivial, ?_⟩
    · intro requestId hopens t record hlevel _
      exact fresh_of_level (h.1 requestId hopens) hlevel
    intro call hcall _ _
    have hsettled := h.2
    rw [mem_def.mp hcall] at hsettled
    exact yields_self hsettled
  | time =>
    intro message advance hmessage hadvance
    refine ⟨?_, fun _ _ _ _ _ _ _ => trivial⟩
    intro call hcall _ _ hdue _
    simp only [settlesOnce, hmessage, hadvance, all_some, List.all_eq_true] at h
    have hsettled := h call hcall
    rw [or_eq_true, decide_eq_true_iff] at hsettled
    exact yields_self (hsettled.resolve_left (by omega))
  | serverDeath => exact hdeath rfl
  | _ => trivial

def Event.terminalTo (client : Client) (requestId : Nat) : Event → Option Int
  | .offered _ recipient message =>
    if recipient = client ∧ message.kind = kindTerminal ∧ message.requestId = requestId then
      some message.status
    else none
  | _ => none

theorem announced_of_terminalTo (h : status ∈ t.log.filterMap (terminalTo client requestId)) :
    ((client, requestId), .terminal status) ∈ t.docket.announced := by
  obtain ⟨event, hevent, hstatus⟩ := mem_filterMap.mp h
  refine mem_filterMap.mpr ⟨event, hevent, ?_⟩
  cases event with
  | offered record recipient message =>
    simp only [terminalTo] at hstatus
    split at hstatus
    next hmessage =>
      obtain ⟨rfl, hkind, rfl⟩ := hmessage
      simp [announcement, hkind, some.inj hstatus]
    · nomatch hstatus
  | _ => nomatch hstatus

theorem announced_of_isReplyTo (h : t.log.any (isReplyTo client requestId)) :
    ((client, requestId), .reply) ∈ t.docket.announced := by
  obtain ⟨event, hevent, hreply⟩ := List.any_eq_true.mp h
  refine mem_filterMap.mpr ⟨event, hevent, ?_⟩
  cases event with
  | offered record recipient message =>
    simp only [isReplyTo, and_eq_true, beq_iff_eq] at hreply
    obtain ⟨⟨rfl, hkind⟩, rfl⟩ := hreply
    simp [announcement, hkind, kindReply, kindTerminal]
  | _ => cases hreply

/-- Answers agree unless one of them tells of a death. -/
def AgreeInLife (answer answer' : Answer) : Prop :=
  answer = answer' ∨ answer = .terminal statusPeerDead ∨ answer' = .terminal statusPeerDead

/-- Answers agree unless one is a reply and the other tells of a death. -/
def AgreeThroughout (answer answer' : Answer) : Prop :=
  answer = answer' ∨ answer = .reply ∧ answer' = .terminal statusPeerDead ∨
    answer = .terminal statusPeerDead ∧ answer' = .reply

theorem allows_agreeInLife
    (h : settlesOnce runtime world pump) : Allows runtime (Settles AgreeInLife) world pump := by
  apply allows_settles h
  rintro rfl - - - - - t - - - -
  exact .inr (.inr rfl)

theorem allows_agreeThroughout
    (h : settlesOnce runtime world pump) (hdeath : buriesNoTerminal runtime world pump) :
    Allows runtime (Settles AgreeThroughout) world pump := by
  apply allows_settles h
  rintro rfl hreported hstatus call hcall - t given hgiven other hother
  simp only [buriesNoTerminal, hreported, hstatus, Bool.false_or, bne_self_eq_false,
    List.all_eq_true] at hdeath
  have hsettled := hdeath call hcall
  unfold answer at hgiven
  split at hgiven
  next hphase =>
    obtain rfl := some.inj hgiven
    have hdead : call.terminalStatus = statusPeerDead := by simpa [hphase] using hsettled
    rwa [hdead] at hother
  · obtain rfl := some.inj hgiven
    rcases hother with rfl | ⟨rfl, hdead⟩ | ⟨rfl, -⟩
    · exact .inr (.inl ⟨rfl, rfl⟩)
    · exact .inr (.inl ⟨rfl, rfl⟩)
    · exact .inl rfl
  · nomatch hgiven

/-- The terminals offered for one request carry one status, unless one of them tells that the
server died; after a reply only such a terminal is offered. If the server is not found dead
while another terminal is not acknowledged, the status is one without exception. -/
theorem request_has_one_outcome (runtime : Runtime) (wiring : Wiring) (limits : RuntimeLimits)
    (broker : Broker) (hnew : Broker.new wiring limits = .ok broker) (declaredDeadlineNs : Nat)
    (pumps : List Pump)
    (hpumps : Permitted (step runtime) (fun state pump => along (settlesOnce runtime) state pump)
      (some (World.start broker declaredDeadlineNs)) pumps)
    (world : World)
    (hrun : run (step runtime) (some (World.start broker declaredDeadlineNs)) pumps =
      some world) (client : Client) (requestId : Nat) :
    (∀ status ∈ world.log.filterMap (Event.terminalTo client requestId),
      ∀ status' ∈ world.log.filterMap (Event.terminalTo client requestId),
        status = status' ∨ status = statusPeerDead ∨ status' = statusPeerDead) ∧
    (world.log.any (Event.isReplyTo client requestId) →
      ∀ status ∈ world.log.filterMap (Event.terminalTo client requestId), status = statusPeerDead) ∧
    (Permitted (step runtime) (fun state pump => along (buriesNoTerminal runtime) state pump)
      (some (World.start broker declaredDeadlineNs)) pumps →
      ∀ status ∈ world.log.filterMap (Event.terminalTo client requestId),
        ∀ status' ∈ world.log.filterMap (Event.terminalTo client requestId), status = status') := by
  have hlife : (world.tables none).docket.Consistent AgreeInLife := by
    refine consistent_run (fun _ => .inl rfl) ?_ tolerates_settles
      (fun _ _ => allows_agreeInLife) hnew hpumps hrun
    rintro answer answer' (h | h | h)
    · exact .inl h.symm
    · exact .inr (.inr h)
    · exact .inr (.inl h)
  refine ⟨?_, ?_, ?_⟩
  · intro status hstatus status' hstatus'
    have hagree := hlife.agree _ _ _ (announced_of_terminalTo hstatus)
      (announced_of_terminalTo hstatus')
    simpa [AgreeInLife] using hagree
  · intro hreply status hstatus
    have hagree := hlife.agree _ _ _ (announced_of_isReplyTo hreply)
      (announced_of_terminalTo hstatus)
    simpa [AgreeInLife] using hagree
  intro hdeaths status hstatus status' hstatus'
  have hboth : Permitted (step runtime) (fun state pump => along (fun world pump =>
      settlesOnce runtime world pump && buriesNoTerminal runtime world pump) state pump)
      (some (World.start broker declaredDeadlineNs)) pumps := by
    refine permitted_and (step runtime) ?_ hpumps hdeaths
    rintro (_ | world) pump hfirst hsecond
    · rfl
    · exact and_eq_true_iff.mpr ⟨hfirst, hsecond⟩
  have hthroughout : (world.tables none).docket.Consistent AgreeThroughout := by
    refine consistent_run (fun _ => .inl rfl) ?_ tolerates_settles ?_ hnew hboth hrun
    · rintro answer answer' (h | h | h)
      · exact .inl h.symm
      · exact .inr (.inr ⟨h.2, h.1⟩)
      · exact .inr (.inl ⟨h.2, h.1⟩)
    · intro world pump hpump
      obtain ⟨hsettles, hburies⟩ := and_eq_true_iff.mp hpump
      exact allows_agreeThroughout hsettles hburies
  have hagree := hthroughout.agree _ _ _ (announced_of_terminalTo hstatus)
    (announced_of_terminalTo hstatus')
  simpa [AgreeThroughout] using hagree

/-- A request, its reply, a clock past its deadline and its cancellation. -/
def overruledRuntime : Runtime := sampleRuntime fun clock =>
  if clock = 0 then clientEnvelope kindRequest 1 statusSuccess
  else if clock = 2 then serverReply 1 statusSuccess
  else if clock = 4 then clockAdvance 2000
  else if clock = 6 then clientEnvelope kindCancel 1 statusCancelled
  else .wouldBlock

theorem request_has_three_outcomes :
    (run (step overruledRuntime) sampleStart [.client 0, .server]).any (fun world =>
      world.log.any (Event.isReplyTo 0 1) &&
        world.log.filterMap (Event.terminalTo 0 1) == []) = true ∧
    (run (step overruledRuntime) sampleStart [.client 0, .server, .time, .client 0]).any
      (fun world => world.log.filterMap (Event.terminalTo 0 1) ==
        [statusTimeout, statusCancelled]) = true := by
  decide +kernel

def answeringRuntime : Runtime := sampleRuntime fun clock =>
  if clock = 0 then clientEnvelope kindRequest 1 statusSuccess
  else if clock = 2 then serverReply 1 statusSuccess
  else if clock = 4 then clientEnvelope kindReplyAck 1 statusSuccess
  else if clock = 5 then clientEnvelope kindRequest 2 statusSuccess
  else if clock = 7 then clockAdvance 2000
  else .wouldBlock

def answeringPumps : List Pump :=
  [.client 0, .server, .client 0, .client 0, .time, .terminals]

theorem answered_and_expired_outcomes :
    ∃ world, run (step answeringRuntime) sampleStart answeringPumps = some world ∧
      world.log.any (Event.isReplyTo 0 1) = true ∧
      (∀ status ∈ world.log.filterMap (Event.terminalTo 0 1), status = statusPeerDead) ∧
      world.log.filterMap (Event.terminalTo 0 2) ≠ [] ∧
      ∀ status ∈ world.log.filterMap (Event.terminalTo 0 2),
        ∀ status' ∈ world.log.filterMap (Event.terminalTo 0 2), status = status' := by
  have hpumps : Permitted (step answeringRuntime)
      (fun state pump => along (settlesOnce answeringRuntime) state pump)
      sampleStart answeringPumps := by decide +kernel
  have hdeaths : Permitted (step answeringRuntime)
      (fun state pump => along (buriesNoTerminal answeringRuntime) state pump)
      sampleStart answeringPumps := by decide +kernel
  have hend : (run (step answeringRuntime) sampleStart answeringPumps).any (fun world =>
      world.log.any (Event.isReplyTo 0 1) &&
        world.log.filterMap (Event.terminalTo 0 2) != []) = true := by decide +kernel
  generalize hrun : run (step answeringRuntime) sampleStart answeringPumps = state at hend
  obtain _ | world := state
  · nomatch hend
  obtain ⟨hreply, hoffered⟩ : world.log.any (Event.isReplyTo 0 1) = true ∧
      world.log.filterMap (Event.terminalTo 0 2) ≠ [] := by simpa using hend
  have houtcome := request_has_one_outcome answeringRuntime sampleWiring sampleLimits
    sampleBroker sampleBroker_new 1000 answeringPumps hpumps world hrun 0
  exact ⟨world, rfl, hreply, (houtcome 1).2.1 hreply, hoffered, (houtcome 2).2.2 hdeaths⟩

end SlimeOs.CallBroker
