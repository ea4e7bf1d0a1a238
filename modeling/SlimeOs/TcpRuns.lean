import SlimeOs.TcpSteps

/-!
Runs of the TCP engine. Between its operations the network moves the sockets as it likes, their
buffers apart.

Every socket has at most one owner along every run. The buffers of the live sockets lie in ranges
of the two pools that never overlap, and a socket is rebuilt, dialled for a new connection or set
listening only while it is free. A lookup waits for the connection that started it.
-/

namespace SlimeOs.Tcp

open FallibleCall List Network Option Engine
open Table (Step Steps)

inductive Op where
  | handle (stack : Stack) (destinations : NetworkDestinations) (holder : Holder)
      (request : WireNetworkRequest) (payload : List UInt8) (now : Instant)
  | handleLocal (stack : Stack) (destinations : NetworkDestinations)
      (applications : NetworkApplications) (holder : Holder) (request : WireNetworkRequest)
      (payload : List UInt8) (now : Instant)
  | listen (stack : Stack) (holder : Holder) (policy : Application) (request : WireNetworkRequest)
      (now : Instant)
  | accept (stack : Stack) (holder : Holder) (listener : Nat) (now : Instant)
  | pollPending (holder : Holder) (capability : Nat) (now : Instant)
  | advanceDns (stack : Stack) (destinations : NetworkDestinations) (now : Instant)
  | tick (stack : Stack) (now : Instant)
  | releaseHolder (holder : Holder)
  | resetAll (now : Instant)
  | permitEgress (stack : Stack) (frame : Frame)
  | enableDns (resolver : Except Status Resolver)
  | network (sockets : Index → Socket)

/-- What an operation answers, where the runs need it. -/
inductive Response where
  | reply (reply : Reply)
  | polled (completion : Option Completion)
  | done
deriving DecidableEq

def Engine.moveSockets (e : Engine) (sockets : Index → Socket) : Engine :=
  { e with pool := fun index => { e.pool index with socket := sockets index } }

def perform : Op → Call Engine Empty Response
  | .handle stack destinations holder request payload now =>
    .reply <$> Engine.handle stack destinations holder request payload now
  | .handleLocal stack destinations applications holder request payload now =>
    .reply <$> Engine.handleLocal stack destinations applications holder request payload now
  | .listen stack holder policy request now =>
    .reply <$> Engine.listen stack holder policy request now
  | .accept stack holder listener now => .reply <$> Engine.accept stack holder listener now
  | .pollPending holder capability now => .polled <$> Engine.pollPending holder capability now
  | .advanceDns stack destinations now =>
    (fun _ => .done) <$> Engine.advanceDns stack destinations now
  | .tick stack now => fun e => (.ok .done, e.tick stack now)
  | .releaseHolder holder => fun e => (.ok .done, (e.releaseHolder holder).2)
  | .resetAll now => fun e => (.ok .done, (e.resetAll now).2)
  | .permitEgress stack frame => fun e => (.ok .done, (e.permitEgress stack frame).2)
  | .enableDns resolver => fun e => (.ok .done, (e.enableDns resolver).2)
  | .network sockets => fun e => (.ok .done, e.moveSockets sockets)

def step (e : Engine) (op : Op) : Engine := (perform op e).2

theorem map_state {α β : Type} (f : α → β) (x : Call Engine Empty α) (e : Engine) :
    ((f <$> x) e).2 = (x e).2 := by
  change ((x >>= fun a => pure (f a)) e).2 = _
  rw [Call.bind_apply]
  rcases x e with ⟨- | a, -⟩ <;> rfl

theorem map_answer {α β : Type} (f : α → β) (x : Call Engine Empty α) (e : Engine) :
    ((f <$> x) e).1 = ((x e).1).map f := by
  change ((x >>= fun a => pure (f a)) e).1 = _
  rw [Call.bind_apply]
  rcases x e with ⟨- | a, -⟩ <;> rfl

/-- On whose behalf an operation is performed; an operation without a request is judged by no
destinations and no options. -/
def Op.By : Op → Option Caller → Prop
  | .handle _ destinations holder _ _ _, caller =>
    ∃ terms, caller = some terms ∧ terms.holder = holder ∧
      terms.destinations = destinations ∧ terms.options = defaultOptions
  | .handleLocal _ destinations applications holder _ _ _, caller =>
    ∃ terms, caller = some terms ∧ terms.holder = holder ∧
      terms.destinations = destinations ∧
      ∀ policy, byHolder applications holder = some policy → policy.options = terms.options
  | .listen _ holder _ _ _, caller => ∃ terms, caller = some terms ∧ terms.holder = holder
  | .accept _ holder _ _, caller => ∃ terms, caller = some terms ∧ terms.holder = holder
  | .pollPending holder _ _, caller => ∃ terms, caller = some terms ∧ terms.holder = holder
  | .releaseHolder holder, caller => ∃ terms, caller = some terms ∧ terms.holder = holder
  | _, caller => caller = none

theorem defaultOptions_valid : defaultOptions.Valid := ⟨by decide +kernel, by decide +kernel⟩

theorem Op.exists_by (op : Op) : ∃ caller, op.By caller := by
  have hsome (holder : Holder) : ∃ caller : Option Caller, ∃ terms, caller = some terms ∧
      terms.holder = holder :=
    ⟨_, ⟨holder, ⟨[], Nat.zero_le _⟩, defaultOptions, defaultOptions_valid⟩, rfl, rfl⟩
  cases op with
  | handle stack destinations holder =>
    exact ⟨_, ⟨holder, destinations, defaultOptions, defaultOptions_valid⟩, rfl, rfl, rfl, rfl⟩
  | handleLocal stack destinations applications holder =>
    rcases hpolicy : byHolder applications holder with _ | policy
    · exact ⟨_, ⟨holder, destinations, defaultOptions, defaultOptions_valid⟩, rfl, rfl, rfl, by
        simp [hpolicy]⟩
    · exact ⟨_, ⟨holder, destinations, policy.options, policy.valid⟩, rfl, rfl, rfl, by
        simp [hpolicy]⟩
  | listen stack holder => exact hsome holder
  | accept stack holder => exact hsome holder
  | pollPending holder => exact hsome holder
  | releaseHolder holder => exact hsome holder
  | advanceDns | tick | resetAll | permitEgress | enableDns | network => exact ⟨none, rfl⟩

variable {e : Engine}

theorem step_steps {op : Op} {caller : Option Caller} (hby : op.By caller)
    (h : e.table.Owned) : Steps caller e.table (step e op).table := by
  unfold step
  cases op with
  | handle stack destinations holder request payload now =>
    obtain ⟨terms, rfl, rfl, rfl, hoptions⟩ := hby
    have hsteps : Steps (some terms) e.table
        (e.handleWith stack _ _ request payload now _).2.table :=
      handleWith_steps h request payload now
    rw [hoptions] at hsteps
    exact hsteps
  | handleLocal stack destinations applications holder request payload now =>
    obtain ⟨terms, rfl, rfl, rfl, hoptions⟩ := hby
    rw [perform, map_state]
    exact handleLocal_steps h applications hoptions request payload now
  | listen stack holder policy request now =>
    obtain ⟨terms, rfl, hholder⟩ := hby
    rw [perform, map_state]
    exact listen_steps hholder policy request now
  | accept stack holder listener now =>
    obtain ⟨terms, rfl, hholder⟩ := hby
    rw [perform, map_state]
    exact accept_steps hholder listener now
  | pollPending holder capability now =>
    obtain ⟨terms, rfl, hholder⟩ := hby
    rw [perform, map_state]
    exact pollPending_steps holder hholder capability now
  | advanceDns stack destinations now =>
    obtain rfl := hby
    rw [perform, map_state]
    exact advanceDns_steps destinations now
  | tick stack now =>
    obtain rfl := hby
    exact tick_steps now
  | releaseHolder holder =>
    obtain ⟨terms, rfl, rfl⟩ := hby
    exact releaseHolder_steps h
  | resetAll now =>
    obtain rfl := hby
    exact resetAll_steps now
  | permitEgress stack frame =>
    rw [perform, permitEgress_table]
  | enableDns resolver =>
    rw [perform]
    unfold enableDns
    dsimp only
    split
    · exact .refl
    · split
      · exact .single Step.enable
      · exact .refl
  | network sockets => exact .refl

theorem owned_new {smoltcp : Smoltcp} {storage rx tx epoch backend : Nat}
    (h : new smoltcp storage rx tx epoch backend = .ok e) : e.table.Owned := by
  unfold new at h
  split at h
  · cases h
  · obtain rfl := Except.ok.inj h
    exact ⟨nofun, nofun, nofun, fun _ => rfl, fun _ => ⟨le_rfl, le_rfl⟩, nofun⟩

theorem owned_step (h : e.table.Owned) (op : Op) : (step e op).table.Owned := by
  obtain ⟨caller, hby⟩ := op.exists_by
  exact Table.steps_invariant Table.owned_step h (step_steps hby h)

theorem owned_run {smoltcp : Smoltcp} {storage rx tx epoch backend : Nat}
    (h : new smoltcp storage rx tx epoch backend = .ok e) (ops : List Op) :
    (run step e ops).table.Owned :=
  run_invariant step (fun e => e.table.Owned) (fun _ op hs => owned_step hs op) e ops (owned_new h)

variable (stack : Stack)

theorem accept_answers (holder : Holder) (listenerId : Nat) (now : Instant)
    (e : Engine) : ∃ reply, (accept stack holder listenerId now e).1 = .ok reply := by
  unfold accept
  dsimp only
  split
  · exact ⟨_, rfl⟩
  rename_i entry listener hfound
  obtain ⟨hlistener, htest⟩ := findListener_eq_some hfound
  simp only [Bool.and_eq_true] at htest
  obtain ⟨kept, hkept, -⟩ := refreshListeners_keeps stack hlistener htest.2
  rw [hkept]
  exact ⟨_, rfl⟩

theorem listen_answers (holder : Holder) (policy : Application)
    (request : WireNetworkRequest) (now : Instant) (e : Engine) :
    ∃ reply, (Engine.listen stack holder policy request now e).1 = .ok reply := by
  unfold Engine.listen
  dsimp only
  split
  · exact ⟨_, rfl⟩
  split
  · exact ⟨_, rfl⟩
  · split
    · exact ⟨_, rfl⟩
    · split <;> exact ⟨_, rfl⟩

theorem handleLocal_answers (destinations : NetworkDestinations)
    (applications : NetworkApplications) (holder : Holder) (request : WireNetworkRequest)
    (payload : List UInt8) (now : Instant) (e : Engine) :
    ∃ reply, (handleLocal stack destinations applications holder request payload now
      e).1 = .ok reply := by
  unfold handleLocal
  dsimp only
  split
  · exact ⟨_, rfl⟩
  split
  · exact ⟨_, rfl⟩
  split
  · exact listen_answers stack holder _ request now _
  split
  · exact accept_answers stack holder _ now _
  split
  · split <;> exact ⟨_, rfl⟩
  · split
    · split <;> exact ⟨_, rfl⟩
    · exact ⟨_, rfl⟩

theorem pollPending_answers (holder : Holder) (capability : Nat) (now : Instant) (e : Engine) :
    ∃ completion, (pollPending holder capability now e).1 = .ok completion := by
  unfold pollPending
  dsimp only
  split
  · exact ⟨_, rfl⟩
  · split
    · exact ⟨_, rfl⟩
    · split <;> exact ⟨_, rfl⟩

theorem redial_answers (destinations : NetworkDestinations) (now : Instant)
    {pending : NameConnect} (hnext : pending.next ≤ pending.addresses.length)
    (connection : Connection) (answer : Option Dns.Answer) (e : Engine) :
    (redial stack destinations now pending connection answer e).1 = .ok () := by
  unfold redial
  split
  · rfl
  rw [getElem?_eq_getElem (by omega)]
  dsimp only
  split
  · rfl
  · split
    · rfl
    · split <;> rfl

theorem advanceDns_answers (h : e.table.Owned) (stack : Stack)
    (destinations : NetworkDestinations) (now : Instant) :
    (advanceDns stack destinations now e).1 = .ok () := by
  unfold advanceDns
  dsimp only
  split
  · rfl
  rename_i pending hpending
  obtain ⟨hresolver, hnext, grant, hgrant, -, hstage⟩ := h.awaited pending hpending
  split
  · rfl
  rename_i connection hconnection
  obtain rfl := Option.some.inj ((grants_of_connection hconnection).symm.trans hgrant)
  split
  · rfl
  split
  next hphase =>
    have hfirst : pending.next = 0 := by
      rcases hstage with hother | ⟨-, hfirst⟩
      · rw [hphase] at hother
        cases hother
      · exact hfirst
    unfold advanceResolving
    split
    next hnone =>
      rw [show e.table.resolving = e.resolver.isSome from rfl,
        show e.resolver = none from hnone] at hresolver
      cases hresolver
    split
    · rfl
    split
    · rfl
    split
    · rfl
    split
    · rfl
    split
    · rfl
    split
    · rfl
    · exact redial_answers stack destinations now (by rw [hfirst]; exact Nat.zero_le _) _ _ _
  · unfold advanceConnecting
    dsimp only
    split
    · rfl
    · split
      · rfl
      · exact redial_answers stack destinations now hnext _ _ _

theorem perform_answers (h : e.table.Owned) (op : Op) :
    ∃ response, (perform op e).1 = .ok response := by
  cases op with
  | handle stack destinations holder request payload now =>
    exact ⟨_, rfl⟩
  | handleLocal stack destinations applications holder request payload now =>
    obtain ⟨reply, hreply⟩ := handleLocal_answers stack destinations applications holder request
      payload now e
    rw [perform, map_answer, hreply]
    exact ⟨_, rfl⟩
  | listen stack holder policy request now =>
    obtain ⟨reply, hreply⟩ := listen_answers stack holder policy request now e
    rw [perform, map_answer, hreply]
    exact ⟨_, rfl⟩
  | accept stack holder listener now =>
    obtain ⟨reply, hreply⟩ := accept_answers stack holder listener now e
    rw [perform, map_answer, hreply]
    exact ⟨_, rfl⟩
  | pollPending holder capability now =>
    obtain ⟨completion, hcompletion⟩ := pollPending_answers holder capability now e
    rw [perform, map_answer, hcompletion]
    exact ⟨_, rfl⟩
  | advanceDns stack destinations now =>
    rw [perform, map_answer, advanceDns_answers h]
    exact ⟨_, rfl⟩
  | tick | releaseHolder | resetAll | permitEgress | enableDns | network => exact ⟨_, rfl⟩

def Engine.owners (e : Engine) (index : Index) : Nat :=
  (e.connections index).isSome.toNat +
    (List.finRange socketCount).countP fun entry =>
      (e.listeners entry).any fun listener => listener.socket == some index

def Span.Apart (a b : Span) : Prop :=
  a.start + a.length ≤ b.start ∨ b.start + b.length ≤ a.start

/-- Every socket has at most one owner, every socket was taken while it was free, no two live
sockets share a byte of a pool, and a lookup waits for the connection that started it. -/
structure SinglyOwned (e : Engine) : Prop where
  owners_le : ∀ index, e.owners index ≤ 1
  taken_free : ∀ use ∈ e.uses, use.owned = false ∧ use.resetPending = false ∧ use.state = .closed
  buffers_apart : ∀ i j, i ≠ j →
    (e.pool i).rx.Apart (e.pool j).rx ∧ (e.pool i).tx.Apart (e.pool j).tx
  buffers_within : ∀ i,
    (e.pool i).rx.start + (e.pool i).rx.length ≤ socketCount * e.rxCapacity ∧
      (e.pool i).tx.start + (e.pool i).tx.length ≤ socketCount * e.txCapacity
  lookup_awaited : ∀ pending, e.nameConnect = some pending →
    ∃ connection, e.connections pending.index = some connection ∧
      (connection.phase = .resolving ∨ connection.phase = .connecting) ∧
      connection.id = pending.starter

theorem countP_le_one {α : Type} {p : α → Bool} {xs : List α} (hnodup : xs.Nodup)
    (hone : ∀ a b, p a = true → p b = true → a = b) : xs.countP p ≤ 1 := by
  induction xs with
  | nil => simp
  | cons x xs ih =>
    rw [nodup_cons] at hnodup
    by_cases hx : p x = true
    · have hrest : xs.countP p = 0 := by
        rw [countP_eq_zero]
        intro y hy hpy
        exact hnodup.1 (hone x y hx hpy ▸ hy)
      simp [hx, hrest]
    · simpa [hx] using ih hnodup.2

theorem span_apart {capacity a b i j : Nat} (ha : a ≤ capacity) (hb : b ≤ capacity) (hne : i ≠ j) :
    Span.Apart ⟨i * capacity, a⟩ ⟨j * capacity, b⟩ := by
  unfold Span.Apart
  dsimp only
  rcases Nat.lt_or_gt_of_ne hne with hlt | hgt
  · have hstep := Nat.mul_le_mul_right capacity hlt
    rw [Nat.succ_mul] at hstep
    omega
  · have hstep := Nat.mul_le_mul_right capacity hgt
    rw [Nat.succ_mul] at hstep
    omega

theorem span_within {capacity a : Nat} (ha : a ≤ capacity) (index : Index) :
    index.val * capacity + a ≤ socketCount * capacity := by
  have hstep := Nat.mul_le_mul_right capacity index.isLt
  rw [Nat.succ_mul] at hstep
  omega

theorem owners_le_one (h : e.table.Owned) (index : Index) : e.owners index ≤ 1 := by
  unfold owners
  rcases hconnection : e.connections index with _ | connection
  · simp only [isSome_none, Bool.toNat_false, zero_add]
    apply countP_le_one (nodup_finRange socketCount)
    intro entry entry' hentry hentry'
    obtain ⟨listener, hlistener, hnamed⟩ := (any_eq_true _ _).mp hentry
    obtain ⟨listener', hlistener', hnamed'⟩ := (any_eq_true _ _).mp hentry'
    exact h.single index entry entry' _ _ (posts_of_listener hlistener)
      (posts_of_listener hlistener') (by simpa using hnamed) (by simpa using hnamed')
  · have hnone : ((finRange socketCount).countP fun entry =>
        (e.listeners entry).any fun listener => listener.socket == some index) = 0 := by
      rw [countP_eq_zero]
      intro entry _ hentry
      obtain ⟨listener, hlistener, hnamed⟩ := (any_eq_true _ _).mp hentry
      exact h.unlistened (grants_of_connection hconnection) entry _
        (posts_of_listener hlistener) (by simpa using hnamed)
    rw [hnone]
    rfl

theorem singlyOwned_of_owned (h : e.table.Owned) : SinglyOwned e := by
  have hbuilt (index : Index) : (e.pool index).rx = ⟨index.val * e.rxCapacity, (e.shapes index).1⟩ ∧
      (e.pool index).tx = ⟨index.val * e.txCapacity, (e.shapes index).2⟩ :=
    Prod.mk.inj (h.built index)
  refine ⟨owners_le_one h, h.clean, ?_, ?_, ?_⟩
  · intro i j hne
    rw [(hbuilt i).1, (hbuilt j).1, (hbuilt i).2, (hbuilt j).2]
    have hval : i.val ≠ j.val := fun heq => hne (Fin.ext heq)
    exact ⟨span_apart (h.fits i).1 (h.fits j).1 hval, span_apart (h.fits i).2 (h.fits j).2 hval⟩
  · intro i
    rw [(hbuilt i).1, (hbuilt i).2]
    exact ⟨span_within (h.fits i).1 i, span_within (h.fits i).2 i⟩
  intro pending hpending
  obtain ⟨-, -, grant, hgrant, hid, hstage⟩ := h.awaited pending hpending
  obtain ⟨connection, hconnection, rfl⟩ := map_eq_some_iff.mp hgrant
  refine ⟨connection, hconnection, ?_, hid⟩
  rcases hstage with hstage | ⟨hstage, -⟩
  · exact .inr hstage
  · exact .inl hstage

/-- Along every run of the engine each socket has at most one owner, and no operation panics. -/
theorem sockets_have_one_owner {smoltcp : Smoltcp} {storage rx tx epoch backend : Nat} {e : Engine}
    (hnew : Engine.new smoltcp storage rx tx epoch backend = .ok e) (ops : List Op) :
    SinglyOwned (run step e ops) ∧
      ∀ op, ∃ response, (perform op (run step e ops)).1 = .ok response :=
  ⟨singlyOwned_of_owned (owned_run hnew ops), perform_answers (owned_run hnew ops)⟩

def plainSmoltcp : Smoltcp where
  new := ⟨.closed, none, none, 0, 0, none⟩
  abort := fun socket => { socket with state := .closed }
  setNagleEnabled := fun socket _ => socket
  setHopLimit := fun socket _ => socket
  setTimeout := fun socket _ => socket
  setKeepAlive := fun socket keepAlive => { socket with keepAlive }
  new_closed := rfl
  abort_endpoints := fun _ => ⟨rfl, rfl⟩

/-- A stack that grants what is asked of it and has nothing to receive. -/
def quietStack : Stack where
  hasIpAddr := fun _ => true
  connect := fun socket remote port =>
    some
      { socket with
        state := .synSent
        localEndpoint := some ⟨remote.addr, port⟩
        remoteEndpoint := some remote }
  listen := fun socket _ => some { socket with state := .listen }
  close := fun socket => { socket with state := .finWait1 }
  maySend := fun _ => true
  canSend := fun _ => true
  mayRecv := fun _ => true
  canRecv := fun _ => false
  sendSlice := fun socket payload => some (payload.length, socket)
  recvSlice := fun socket _ => some (0, socket)
  start := fun resolver _ _ => (none, resolver)
  poll := fun resolver _ => (none, resolver)
  permitEgress := fun resolver _ => (false, resolver)

def loopbackAddress : Ipv4 := #v[127, 0, 0, 1]
def serverHolder : Holder := Vector.replicate 32 1
def clientHolder : Holder := Vector.replicate 32 2

/-- A listener for one client, with room for one accepted connection. -/
def serverRow : Application where
  holderIdentity := serverHolder
  allowedPeerIdentity := clientHolder
  admittedPeerIpv4 := Vector.replicate 4 0
  localIpv4 := loopbackAddress
  localPort := 8080
  rights := rightListen ||| rightSend ||| rightRecv
  role := .listener
  backend := .loopback
  backlog := 1
  acceptedSocketLimit := 1
  byteBudget := 4096
  timerBudget := 1
  queueDepth := 4
  retryLimit := 1
  options := defaultOptions
  valid := defaultOptions_valid

def listenRequest : WireNetworkRequest where
  magic := networkMagic
  version := formatVersion
  op := opListen
  transport := transportTcp
  flags := 0
  port := 8080
  nameLen := 0
  capability := 0
  addressKind := addressIpv4
  reserved := Vector.replicate 7 0
  endpoint := ByteLayout.splice (ByteLayout.zeros 24) 0 loopbackAddress

theorem sockets_have_one_owner_when_listening :
    ∃ e, Engine.new plainSmoltcp 4 8192 8192 1 1 = .ok e ∧
      (run step e [.listen quietStack serverHolder serverRow listenRequest 0]).owners 0 = 1 ∧
      SinglyOwned (run step e [.listen quietStack serverHolder serverRow listenRequest 0]) :=
  ⟨_, rfl, by decide +kernel, (@sockets_have_one_owner _ 4 8192 8192 1 1 _ rfl _).1⟩

end SlimeOs.Tcp
