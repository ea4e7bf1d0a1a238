import SlimeOs.TcpLedger

/-!
The engine's operations, seen on its table: each is a sequence of steps, and only steps of its
caller where it has one.
-/

namespace SlimeOs.Tcp

open FallibleCall Function List Network Option Table Connection Step Relation.ReflTransGen
open Table (Step Steps)

namespace Engine

/-- The engine without the progress of its sockets. -/
def table (e : Engine) : Table where
  grants := fun index => (e.connections index).map Connection.toGrant
  posts := fun entry => (e.listeners entry).map Listener.toPost
  shapes := e.shapes
  buffers := fun index => ((e.pool index).rx, (e.pool index).tx)
  rxCapacity := e.rxCapacity
  txCapacity := e.txCapacity
  nameSpace := e.nameSpace
  serial := e.serial
  resolving := e.resolver.isSome
  lookup := e.nameConnect
  uses := e.uses

variable {caller : Option Caller} {terms : Caller} {holder : Holder} {e e' : Engine} {t : Table}
  {stack : Stack} {index entry other : Index} {serial : Nat} {connection : Connection}
  {listener : Listener} {row : Nat × Destination}

theorem map_update {α β : Type} (g : α → β) (f : Index → Option α) (index : Index)
    (value : Option α) :
    (fun other => (update f index value other).map g) =
      update (fun other => (f other).map g) index (value.map g) := by
  funext other
  by_cases hother : other = index
  · subst hother
    simp
  · simp [update_of_ne hother]

@[simp] theorem table_setSocket (index : Index) (socket : Socket) :
    (e.setSocket index socket).table = e.table := by
  have hbuffers : (fun other => (((e.setSocket index socket).pool other).rx,
      ((e.setSocket index socket).pool other).tx)) =
      fun other => ((e.pool other).rx, (e.pool other).tx) := by
    funext other
    by_cases hother : other = index
    · subst hother
      simp [setSocket]
    · simp [setSocket, update_of_ne hother]
  unfold table
  rw [hbuffers]
  rfl

@[simp] theorem table_setConnection (index : Index) (connection : Option Connection) :
    (e.setConnection index connection).table =
      e.table.setGrant index (connection.map toGrant) := by
  unfold table setConnection setGrant
  rw [map_update]

@[simp] theorem table_setListener (entry : Index) (listener : Option Listener) :
    (e.setListener entry listener).table =
      e.table.setPost entry (listener.map Listener.toPost) := by
  unfold table setListener setPost
  rw [map_update]

@[simp] theorem table_record (event : Event) : (e.record event).table = e.table := by
  unfold record
  split <;> rfl

@[simp] theorem table_recordOpen (index : Index) (holder : Holder) :
    (e.recordOpen index holder).table = e.table := table_record _

@[simp] theorem table_abortSocket (index : Index) : (e.abortSocket index).table = e.table := by
  unfold abortSocket
  split
  · exact table_setSocket index _
  · exact table_setSocket index _

theorem table_withSerial (serial : Nat) :
    { e with serial := serial }.table = { e.table with serial := serial } := rfl

theorem idOf_of_table (h : e.table = e'.table) (serial : Nat) : e.idOf serial = e'.idOf serial := by
  unfold idOf
  rw [show e.nameSpace = e'.nameSpace from congrArg Table.nameSpace h]

theorem children_table (listener : Nat) : e.table.children listener = e.children listener := by
  unfold Table.children children table
  simp only [Option.any_map]

theorem charged_table (destination : Nat) :
    e.table.charged destination = e.charged destination := by
  unfold Table.charged charged table
  simp only [Option.any_map]

/-- Nobody owns the socket, and it can be taken. -/
structure Vacant (e : Engine) (index : Index) : Prop where
  free : e.table.Free index
  quiet : e.resets index = none
  closed : (e.socketAt index).state = .closed

theorem listensOn_eq_false_iff (index : Index) : e.listensOn index = false ↔
      ∀ entry post, e.table.posts entry = some post → post.socket ≠ some index := by
  simp only [listensOn, List.any_eq_false, mem_finRange, true_implies, table]
  constructor
  · intro h entry post hpost
    obtain ⟨listener, hlistener, rfl⟩ := map_eq_some_iff.mp hpost
    have hentry := h entry
    rw [hlistener] at hentry
    simpa using hentry
  · intro h entry
    rcases hlistener : e.listeners entry with _ | listener
    · simp
    · have hpost := h entry listener.toPost (by rw [hlistener]; rfl)
      simpa using hpost

theorem free_iff (index : Index) :
    e.table.Free index ↔ e.connections index = none ∧ e.listensOn index = false := by
  rw [listensOn_eq_false_iff]
  unfold Table.Free
  simp only [table, map_eq_none_iff]

theorem vacant_of_freeSocket (h : e.freeSocket = some index) : e.Vacant index := by
  have hfound := find?_some h
  simp only [Bool.and_eq_true, isNone_iff_eq_none, Bool.not_eq_true', beq_iff_eq] at hfound
  obtain ⟨⟨⟨hconnection, hreset⟩, hlisteners⟩, hclosed⟩ := hfound
  exact ⟨(free_iff index).mpr ⟨hconnection, hlisteners⟩, hreset, hclosed⟩

theorem note_step (h : e.Vacant index) (taking : Taking) :
    Step caller e.table (e.note taking index).table := by
  obtain ⟨hconnection, hlisteners⟩ := (free_iff index).mp h.free
  refine take ⟨taking, index, e.owned index, (e.resets index).isSome,
    (e.socketAt index).state⟩ ⟨?_, ?_, h.closed⟩
  · simp [owned, hconnection, hlisteners]
  · simp [h.quiet]

/-- A socket that has been given its shape is still free to take, and nothing else changed. -/
structure Shaped (e e' : Engine) (index : Index) (options : SocketOptions) : Prop where
  vacant : e'.Vacant index
  shape : e'.shapes index = sizes options
  connections : e'.connections = e.connections
  listeners : e'.listeners = e.listeners
  serial : e'.serial = e.serial
  nameSpace : e'.nameSpace = e.nameSpace
  resolver : e'.resolver = e.resolver
  nameConnect : e'.nameConnect = e.nameConnect

theorem shape_spec (h : e.Vacant index) (options : SocketOptions) :
    Steps caller e.table (e.shape index options).2.table ∧
      ((e.shape index options).1 = true → Shaped e (e.shape index options).2 index options) := by
  unfold shape
  dsimp only
  split
  · exact ⟨.refl, nofun⟩
  rename_i hcapacity
  push Not at hcapacity
  split
  next hdiffers =>
    have hnoted : (e.note .rebuilt index).table.Free index := h.free
    refine ⟨(single (note_step h .rebuilt)).tail ?_, fun _ => ?_⟩
    · have hrebuild : Step caller _ _ :=
        rebuild index (sizes options) hnoted hcapacity.1 hcapacity.2
      convert hrebuild using 1
      have hbuffers : (fun other => ((update e.pool index
          (e.smoltcp.socketOver e.rxCapacity e.txCapacity index options.rxBufferBytes
            options.txBufferBytes) other).rx,
          (update e.pool index (e.smoltcp.socketOver e.rxCapacity e.txCapacity index
            options.rxBufferBytes options.txBufferBytes) other).tx)) =
          update (fun other => ((e.pool other).rx, (e.pool other).tx)) index
            (rangesOver e.rxCapacity e.txCapacity index (sizes options)) := by
        funext other
        by_cases hother : other = index
        · subst hother
          simp [Smoltcp.socketOver, rangesOver, sizes]
        · simp [update_of_ne hother]
      unfold table
      simp only [note]
      rw [hbuffers]
      rfl
    · refine ⟨⟨h.free, h.quiet, ?_⟩, ?_, rfl, rfl, rfl, rfl, rfl, rfl⟩
      · simp [socketAt, note, Smoltcp.socketOver, e.smoltcp.new_closed]
      · simp [note, sizes]
  next hsame =>
    refine ⟨.refl, fun _ => ⟨h, not_not.mp hsame, rfl, rfl, rfl, rfl, rfl, rfl⟩⟩

theorem posts_of_listener
    (h : e.listeners entry = some listener) : e.table.posts entry = some listener.toPost := by
  simp [table, h]

theorem grants_of_connection (h : e.connections index = some connection) :
    e.table.grants index = some connection.toGrant := by
  simp [table, h]

theorem armListener_steps (h : e.listeners entry = some listener) :
    Steps caller e.table (e.armListener stack entry listener).2.table := by
  unfold armListener
  dsimp only
  split
  · exact .refl
  rename_i hchecks
  push Not at hchecks
  obtain ⟨-, hidle, hlimit, htimers, hdepth, hbytes⟩ := hchecks
  split
  · exact .refl
  rename_i slot hslot
  obtain ⟨hshape, hshaped⟩ := shape_spec (vacant_of_freeSocket hslot) listener.options
  split
  next e' heq =>
    rw [heq] at hshape
    exact hshape
  rename_i e' heq
  rw [heq] at hshape hshaped
  have hready := hshaped rfl
  have hnoted := hshape.tail (note_step hready.vacant .listening)
  split
  · exact hnoted
  apply hnoted.tail
  have hlistener : (e'.note .listening slot).listeners entry = some listener := by
    rw [← h, ← hready.listeners]
    rfl
  rw [table_setListener, table_setSocket]
  refine arm entry slot listener.toPost (posts_of_listener hlistener) ?_
    hready.vacant.free hready.shape ?_
  · simpa using hidle
  have hchildren : (e'.note .listening slot).table.children listener.id =
      e.children listener.id := by
    rw [children_table]
    unfold children
    rw [show (e'.note .listening slot).connections = e.connections from hready.connections]
  rw [hchildren]
  exact ⟨hlimit, htimers, hdepth, hbytes⟩

theorem disarmed_eq (listener : Listener) : e.disarmed listener = listener ∨
      e.disarmed listener = { listener with socket := none } := by
  unfold disarmed
  split
  · exact .inr rfl
  · exact .inl rfl

theorem setPost_self {post : Post} (h : t.posts entry = some post) :
    t.setPost entry (some post) = t := by
  unfold setPost
  rw [← h, update_eq_self]

theorem setGrant_self {grant : Option Grant}
    (h : t.grants index = grant) : t.setGrant index grant = t := by
  unfold setGrant
  rw [← h, update_eq_self]

theorem disarmed_steps (h : e.listeners entry = some listener) :
    Steps caller e.table (e.setListener entry (some (e.disarmed listener))).table := by
  have hpost := posts_of_listener h
  rw [table_setListener]
  rcases disarmed_eq listener with hsame | hdisarmed
  · rw [hsame, map_some, setPost_self hpost]
  · rw [hdisarmed]
    exact .single (disarm entry listener.toPost hpost)

theorem refreshListener_steps (entry : Index) :
    Steps caller e.table (e.refreshListener stack entry).table := by
  unfold refreshListener
  split
  · exact .refl
  rename_i listener hlistener
  dsimp only
  have hdisarmed : Steps caller _ _ := disarmed_steps hlistener
  have hentry : (e.setListener entry (some (e.disarmed listener))).listeners entry =
      some (e.disarmed listener) := update_self ..
  apply hdisarmed.trans
  split
  next hover =>
    rw [table_setListener entry none]
    refine .single (sweep entry _ (posts_of_listener hentry) ?_ ?_)
    · rcases disarmed_eq listener with h | h <;> rw [h] <;> simpa using hover.1
    · rw [children_table, ← hover.2]
      rcases disarmed_eq listener with h | h <;> rw [h]
  · exact armListener_steps hentry

theorem refreshListeners_steps : Steps caller e.table (e.refreshListeners stack).table := by
  unfold refreshListeners
  generalize finRange socketCount = entries
  induction entries generalizing e with
  | nil => exact .refl
  | cons entry entries ih =>
    exact (refreshListener_steps entry).trans ih

theorem shape_listeners (index : Index) (options : SocketOptions) :
    (e.shape index options).2.listeners = e.listeners := by
  unfold shape
  dsimp only
  split
  · rfl
  · split <;> rfl

theorem armListener_listeners (stack : Stack) (entry : Index) (listener : Listener) :
    (e.armListener stack entry listener).2.listeners = e.listeners ∨
      ∃ slot, (e.armListener stack entry listener).2.listeners =
        update e.listeners entry
          (some { listener with socket := some slot, retries := 0, sentEnd := none }) := by
  unfold armListener
  dsimp only
  split
  · exact .inl rfl
  split
  · exact .inl rfl
  rename_i slot hslot
  have hlisteners := shape_listeners (e := e) slot listener.options
  split
  next e' heq =>
    rw [heq] at hlisteners
    exact .inl hlisteners
  rename_i e' heq
  rw [heq] at hlisteners
  split
  · exact .inl hlisteners
  · refine .inr ⟨slot, ?_⟩
    rw [← hlisteners]
    rfl

def SameListener (listener kept : Listener) : Prop :=
  ∃ socket, kept.toPost = { listener.toPost with socket := socket }

theorem SameListener.trans {first second third : Listener} (h : SameListener first second)
    (h' : SameListener second third) : SameListener first third := by
  obtain ⟨socket, hsecond⟩ := h
  obtain ⟨socket', hthird⟩ := h'
  exact ⟨socket', by rw [hthird, hsecond]⟩

theorem refreshListener_keeps (stack : Stack)
    (h : e.listeners other = some listener) (hactive : listener.active = true) :
    ∃ kept, (e.refreshListener stack entry).listeners other = some kept ∧
      SameListener listener kept := by
  unfold refreshListener
  split
  · exact ⟨listener, h, listener.socket, rfl⟩
  rename_i found hfound
  dsimp only
  by_cases hother : other = entry
  · subst hother
    obtain rfl := mem_unique h hfound
    rw [if_neg (by simp [hactive])]
    have hdisarmed : SameListener listener (e.disarmed listener) := by
      rcases disarmed_eq listener with hsame | hdisarmed
      · exact ⟨listener.socket, by rw [hsame]⟩
      · exact ⟨none, by rw [hdisarmed]⟩
    rcases armListener_listeners stack other (e.disarmed listener) with harm | ⟨slot, harm⟩
    · exact ⟨_, by rw [harm]; exact update_self .., hdisarmed⟩
    · exact ⟨_, by rw [harm]; exact update_self .., hdisarmed.trans ⟨some slot, rfl⟩⟩
  · refine ⟨listener, ?_, listener.socket, rfl⟩
    split
    · simpa [setListener, update_of_ne hother] using h
    rcases armListener_listeners stack entry (e.disarmed found) with harm | ⟨slot, harm⟩
    · rw [harm]
      simpa [setListener, update_of_ne hother] using h
    · rw [harm]
      simpa [setListener, update_of_ne hother] using h

theorem refreshListeners_keeps (stack : Stack)
    (h : e.listeners other = some listener) (hactive : listener.active = true) :
    ∃ kept, (e.refreshListeners stack).listeners other = some kept ∧
      SameListener listener kept := by
  unfold refreshListeners
  generalize finRange socketCount = entries
  induction entries generalizing e listener with
  | nil => exact ⟨listener, h, listener.socket, rfl⟩
  | cons entry entries ih =>
    obtain ⟨next, hnext, socket, hsame⟩ := refreshListener_keeps stack h hactive
    obtain ⟨kept, hkept, hlast⟩ := ih hnext (by rw [hsame]; exact hactive)
    exact ⟨kept, hkept, SameListener.trans ⟨socket, hsame⟩ hlast⟩

theorem nextSerial_eq_some (h : e.nextSerial = some serial) :
    serial = e.serial + 1 ∧ e.serial + 1 < 2 ^ 32 := by
  unfold nextSerial at h
  split at h
  next hbound =>
    exact ⟨(some.inj h).symm, hbound⟩
  · cases h

theorem openListener_steps (hholder : terms.holder = holder) (policy : Application) (peer : Peer) :
    Steps (some terms) e.table (e.openListener stack holder policy peer).2.table := by
  unfold openListener
  split
  · exact .refl
  rename_i entry hentry
  have hvacant : e.table.posts entry = none := by
    simpa [table] using find?_some hentry
  split
  · exact .refl
  rename_i serial hserial
  obtain ⟨rfl, hbound⟩ := nextSerial_eq_some hserial
  dsimp only
  generalize hdeclared : listenerOf holder policy peer (e.idOf (e.serial + 1)) = declared
  have hdeclare : Step (some terms) e.table
      ({ e with serial := e.serial + 1 }.setListener entry (some declared)).table := by
    rw [table_setListener, ← hdeclared]
    exact declare entry _ hvacant hbound (by rw [map_some, hholder]; rfl) rfl rfl policy.valid
  have howner : terms.holder = declared.holder := by rw [hholder, ← hdeclared]; rfl
  have hlistener : ({ e with serial := e.serial + 1 }.setListener entry
      (some declared)).listeners entry = some declared := update_self ..
  have harm : Steps (some terms) _ (({ e with serial := e.serial + 1 }.setListener entry
      (some declared)).armListener stack entry declared).2.table := armListener_steps hlistener
  have hkept := armListener_listeners (e := { e with serial := e.serial + 1 }.setListener entry
    (some declared)) stack entry declared
  split
  next e' heq =>
    rw [heq] at harm hkept
    apply (head hdeclare harm).tail
    rw [table_setListener]
    rcases hkept with hkept | ⟨slot, hkept⟩
    · exact withdraw entry _ (posts_of_listener ((congrFun hkept entry).trans hlistener))
        (congrArg some howner)
    · exact withdraw entry _ (posts_of_listener
        ((congrFun hkept entry).trans (update_self ..))) (congrArg some howner)
  next e' heq =>
    rw [heq] at harm
    exact .head hdeclare harm

theorem listen_steps (hholder : terms.holder = holder)
    (policy : Application) (request : WireNetworkRequest) (now : Instant) :
    Steps (some terms) e.table (listen stack holder policy request now e).2.table := by
  unfold listen
  dsimp only
  split
  · exact .refl
  split
  · exact .refl
  split
  · exact .refl
  rename_i peer hpeer
  have hrefresh : Steps (some terms) e.table
      ({ e with lastNow := now }.refreshListeners stack).table :=
    refreshListeners_steps (e := { e with lastNow := now })
  split
  · exact hrefresh
  · exact hrefresh.trans (openListener_steps hholder policy peer)

theorem findListener_eq_some {test : Listener → Bool}
    (h : e.findListener test = some (entry, listener)) :
    e.listeners entry = some listener ∧ test listener = true := by
  obtain ⟨found, -, hfound⟩ := exists_of_findSome?_eq_some h
  rcases hlistener : e.listeners found with _ | other
  · simp [hlistener] at hfound
  rw [hlistener, bind_some] at hfound
  split at hfound
  next htest =>
    obtain ⟨rfl, rfl⟩ := Prod.mk.inj (some.inj hfound)
    exact ⟨hlistener, htest⟩
  · cases hfound

theorem acceptFrom_steps
    (h : e.listeners entry = some listener) (hholder : terms.holder = listener.holder)
    (now : Instant) :
    Steps (some terms) e.table (e.acceptFrom stack listener.holder entry listener now).2.table := by
  unfold acceptFrom
  split
  · exact .refl
  rename_i slot hslot
  dsimp only
  split
  · exact .refl
  split
  · exact .refl
  split
  · exact .refl
  rename_i serial hserial
  obtain ⟨rfl, hbound⟩ := nextSerial_eq_some hserial
  refine head ?_ (armListener_steps ?_)
  · rw [table_recordOpen, table_setListener, table_setConnection]
    exact adopt entry slot listener.toPost _ (posts_of_listener h) hslot
      (by rw [map_some, hholder]) rfl hbound rfl rfl rfl rfl
  · unfold recordOpen record
    split <;> exact update_self ..

theorem accept_steps (hholder : terms.holder = holder) (listenerId : Nat) (now : Instant) :
    Steps (some terms) e.table (accept stack holder listenerId now e).2.table := by
  unfold accept
  dsimp only
  split
  · exact .refl
  rename_i entry listener hfound
  obtain ⟨hlistener, htest⟩ := findListener_eq_some hfound
  simp only [Bool.and_eq_true, beq_iff_eq] at htest
  obtain ⟨⟨-, hsame⟩, hactive⟩ := htest
  have hrefresh : Steps (some terms) e.table
      ({ e with lastNow := now }.refreshListeners stack).table :=
    refreshListeners_steps (e := { e with lastNow := now })
  split
  · exact hrefresh
  rename_i kept hkept
  obtain ⟨other, hother, socket, hpost⟩ := refreshListeners_keeps stack hlistener hactive
  obtain rfl := mem_unique hkept hother
  have howner : kept.holder = holder := by
    rw [hpost]
    exact hsame
  apply hrefresh.trans
  subst howner
  exact acceptFrom_steps hkept hholder now

theorem find_eq_some {capability : Nat} (h : e.find holder capability = some (index, connection)) :
    e.connections index = some connection ∧ connection.id = capability ∧
      connection.holder = holder := by
  obtain ⟨found, -, hfound⟩ := exists_of_findSome?_eq_some h
  rcases hconnection : e.connections found with _ | other
  · simp [hconnection] at hfound
  rw [hconnection, bind_some] at hfound
  split at hfound
  next htest =>
    obtain ⟨rfl, rfl⟩ := Prod.mk.inj (some.inj hfound)
    simp only [Bool.and_eq_true, beq_iff_eq] at htest
    exact ⟨hconnection, htest⟩
  · cases hfound

theorem destinationFor_eq_some {destinations : NetworkDestinations}
    {requested : Address} {port : UInt16}
    (h : destinationFor destinations holder requested port = some row) :
    destinations.destination row.1 = some row.2 ∧ row.2.holderIdentity = holder := by
  obtain ⟨⟨destination, index⟩, hmem, hfound⟩ := exists_of_findSome?_eq_some h
  dsimp only at hfound
  split at hfound
  next htest =>
    obtain rfl := some.inj hfound
    simp only [Bool.and_eq_true, beq_iff_eq] at htest
    exact ⟨mem_zipIdx_iff_getElem?.mp hmem, htest.1.1.1.1⟩
  · cases hfound

theorem unawaited_of_none (h : t.lookup = none) : t.Unawaited index := by
  intro pending hpending
  rw [h] at hpending
  cases hpending

theorem startLookup_steps {request : WireNetworkRequest} {id : Nat}
    (h : e.connections index = some connection)
    (hid : connection.id = id) (hholder : terms.holder = connection.holder)
    (hphase : connection.phase = .resolving) (hresolver : e.resolver.isSome)
    (hidle : e.nameConnect = none) (now : Instant) (resolver : Resolver) :
    Steps (some terms) e.table (e.startLookup stack request index id now resolver).2.table := by
  have hgrant := grants_of_connection h
  unfold startLookup
  split
  next status resolver' hstart =>
    refine .single ?_
    rw [table_setConnection]
    have hsame : { e with resolver := some resolver' }.table = e.table := by
      unfold table
      simp [hresolver]
    rw [hsame]
    exact drop index _ hgrant (congrArg some hholder) (unawaited_of_none hidle)
  · refine .single ?_
    have hbegin : Step (some terms) e.table { e.table with lookup := _ } :=
      begin
        { index := index
          port := request.port
          addresses := []
          next := 0
          deadline := now + seconds 15
          expiry := now
          starter := id }
        connection.toGrant hgrant hphase hid rfl hresolver
    convert hbegin using 1
    unfold table
    simp [hresolver]

/-- What `connect` knows of the socket and the row when it opens the connection. -/
structure Opening (e : Engine) (terms : Caller) (row : Nat × Destination) (index : Index)
    (serial : Nat) : Prop where
  vacant : e.Vacant index
  shape : e.shapes index = sizes terms.options
  serial_eq : serial = e.serial + 1
  bound : e.serial + 1 < 2 ^ 32
  row_eq : terms.destinations.destination row.1 = some row.2
  owner : row.2.holderIdentity = terms.holder
  room : RowAffords row.2 terms.options (e.charged row.1 + 1)

theorem Opening.step (h : e.Opening terms row index serial) (htable : e'.table = e.table)
    (phase : Phase) (now : Instant) (endpoints : Option (IpEndpoint × IpEndpoint)) :
    Step (some terms) e.table
      ({ e' with serial := serial }.setConnection index
        (some (connectionOf terms.holder row.1 row.2 terms.options phase (e'.idOf serial) now
          endpoints))).table := by
  rw [table_setConnection, table_withSerial (e := e'), htable, idOf_of_table htable, h.serial_eq]
  refine Step.open index _ terms row.2 rfl h.vacant.free h.bound rfl rfl rfl rfl h.shape h.row_eq
    h.owner ?_
  rw [charged_table]
  exact h.room

theorem connectNumeric_steps
    (h : e.Opening terms row index serial) (request : WireNetworkRequest) (now : Instant) :
    Steps (some terms) e.table
      (e.connectNumeric stack terms.holder request now terms.options row index serial).2.table := by
  unfold connectNumeric
  split
  · exact .refl
  dsimp only
  have hnoted : Steps (some terms) e.table (e.note .connected index).table :=
    .single (note_step h.vacant .connected)
  split
  · exact hnoted
  apply hnoted.tail
  have hopening : (e.note .connected index).Opening terms row index serial :=
    ⟨⟨h.vacant.free, h.vacant.quiet, h.vacant.closed⟩, h.shape, h.serial_eq, h.bound, h.row_eq,
      h.owner, h.room⟩
  exact hopening.step (by rw [table_recordOpen]; exact table_setSocket (e := e.note _ _) ..)
    .connecting now _

theorem connectNamed_steps (h : e.Opening terms row index serial) (hresolver : e.resolver.isSome)
    (hidle : e.nameConnect = none) (request : WireNetworkRequest) (now : Instant)
    (resolver : Resolver) :
    Steps (some terms) e.table
      (e.connectNamed stack terms.holder request now terms.options row resolver index
        serial).2.table := by
  unfold connectNamed
  generalize hsocket : e.setSocket index (e.smoltcp.apply (e.socketAt index) terms.options) = shaken
  have htable : shaken.table = e.table := by rw [← hsocket, table_setSocket]
  have hentered : ({ shaken with serial := serial }.setConnection index
      (some (connectionOf terms.holder row.1 row.2 terms.options .resolving (shaken.idOf serial) now
        none))).connections index = some _ := update_self ..
  apply head (h.step htable .resolving now none)
  refine startLookup_steps hentered rfl rfl rfl ?_ ?_ now resolver
  · subst hsocket
    exact hresolver
  · subst hsocket
    exact hidle

theorem connect_steps (request : WireNetworkRequest) (now : Instant) : Steps (some terms) e.table
      (e.connect stack terms.destinations terms.holder request now terms.options).2.table := by
  unfold connect
  split
  · exact .refl
  dsimp only
  split
  · exact .refl
  rename_i row hrow
  obtain ⟨hdestination, howner⟩ := destinationFor_eq_some hrow
  split
  · exact .refl
  split
  · exact .refl
  rename_i hidle
  split
  · exact .refl
  rename_i hroom
  split
  · exact .refl
  rename_i index hindex
  obtain ⟨hshape, hshaped⟩ := shape_spec (vacant_of_freeSocket hindex) terms.options
  split
  next e' heq =>
    rw [heq] at hshape
    exact hshape
  rename_i e' heq
  rw [heq] at hshape hshaped
  have hready := hshaped rfl
  split
  · exact hshape
  rename_i serial hserial
  obtain ⟨hserial, hbound⟩ := nextSerial_eq_some hserial
  have hopening : e'.Opening terms row index serial := by
    refine ⟨hready.vacant, hready.shape, hserial, hbound, hdestination, howner, ?_⟩
    push Not at hroom
    unfold charged at hroom ⊢
    rw [hready.connections]
    exact ⟨hroom.1, hroom.2.2.1, hroom.2.1, hroom.2.2.2⟩
  apply hshape.trans
  split
  next hnamed hsome =>
    refine connectNamed_steps hopening (by simp [hsome]) ?_ request now _
    rw [hready.nameConnect]
    simpa [hnamed] using hidle
  · exact connectNumeric_steps hopening request now

section Own

section

variable (hconnection : e.connections index = some connection)
include hconnection

section

variable (hholder : terms.holder = connection.holder)
include hholder

theorem drop_steps (hquiet : e.table.Unawaited index) :
    Step (some terms) e.table (e.table.setGrant index none) :=
  drop index _ (grants_of_connection hconnection) (congrArg some hholder) hquiet

theorem progress_steps (hquiet : e.table.Unawaited index) (phase : Phase) (shutdown : Bool) :
    Step (some terms) e.table
      (e.table.setGrant index
        (some { connection.toGrant with phase := phase, shutdown := shutdown })) :=
  progress index _ phase shutdown (grants_of_connection hconnection) (congrArg some hholder)
    hquiet

theorem closeConnection_steps (hquiet : e.table.Unawaited index) (now : Instant) :
    Steps (some terms) e.table (e.closeConnection stack index connection now).2.table := by
  unfold closeConnection
  dsimp only
  split
  · have htable : ((e.abortSocket index).setConnection index none).table =
        e.table.setGrant index none := by simp
    split
    · rw [table_record, htable]
      exact .single (drop_steps hconnection hholder hquiet)
    · rw [htable]
      exact .single (drop_steps hconnection hholder hquiet)
  · rw [table_setConnection, table_setSocket]
    exact .single (progress_steps hconnection hholder hquiet .closing connection.shutdown)

theorem shutdownConnection_steps (hquiet : e.table.Unawaited index) :
    Steps (some terms) e.table (e.shutdownConnection stack index connection).2.table := by
  unfold shutdownConnection
  split
  · rw [table_setConnection, table_setSocket]
    exact .single (progress_steps hconnection hholder hquiet connection.phase true)
  · exact .refl

end

end

theorem send_table (payload : List UInt8) : (e.send stack index payload).2.table = e.table := by
  unfold send
  dsimp only
  split
  · rfl
  split
  · rfl
  · split
    · rfl
    · exact table_setSocket index _

theorem recv_table (payload : List UInt8) : (e.recv stack index payload).2.table = e.table := by
  unfold recv
  dsimp only
  split
  · split
    · rfl
    · exact table_setSocket index _
  split
  · rfl
  · split
    · rfl
    · split <;> rfl

theorem serve_steps (h : e.table.Owned) (hconnection : e.connections index = some connection)
    (hholder : terms.holder = connection.holder) (request : WireNetworkRequest)
    (payload : List UInt8) (now : Instant) :
    Steps (some terms) e.table (e.serve stack request payload now index connection).2.table := by
  unfold serve
  split
  · exact .refl
  split
  · exact .refl
  rename_i hphase
  have hquiet : e.table.Unawaited index := by
    rintro pending hpending rfl
    obtain ⟨-, -, grant, hgrant, -, hstage⟩ := h.awaited pending hpending
    obtain rfl := some.inj ((grants_of_connection hconnection).symm.trans hgrant)
    rcases hstage with hstage | ⟨hstage, -⟩ <;> simp [hstage] at hphase
  split
  · exact closeConnection_steps hconnection hholder hquiet now
  split
  · exact .refl
  split
  · exact shutdownConnection_steps hconnection hholder hquiet
  split
  · exact .refl
  · split
    · rw [send_table]
    · rw [recv_table]

theorem handleWith_steps (h : e.table.Owned) (request : WireNetworkRequest)
    (payload : List UInt8) (now : Instant) :
    Steps (some terms) e.table
      (e.handleWith stack terms.destinations terms.holder request payload now
        terms.options).2.table := by
  unfold handleWith
  dsimp only
  split
  · exact .refl
  split
  · exact connect_steps (e := { e with lastNow := now }) request now
  split
  · exact .refl
  split
  · exact .refl
  rename_i found hfound
  obtain ⟨hconnection, -, hholder⟩ := find_eq_some hfound
  exact serve_steps (e := { e with lastNow := now }) h hconnection hholder.symm request payload now

theorem settle_steps (hconnection : e.connections index = some connection)
    (hholder : terms.holder = connection.holder) (hquiet : e.table.Unawaited index)
    (status : Status) : Steps (some terms) e.table (e.settle index connection status).table := by
  have htable : (e.settle index connection status).table = e.table.setGrant index none := by
    unfold settle
    rw [table_setConnection]
    congr 1
    have haborted : (if status ≠ .success then e.abortSocket index else e).table = e.table := by
      split
      · exact table_abortSocket index
      · rfl
    generalize (if status ≠ .success then e.abortSocket index else e) = aborted at haborted ⊢
    have hrecorded : (if connection.phase = .closing ∧ connection.listener.isSome then
        aborted.record (.acceptedClose connection.closeQueues.1 connection.closeQueues.2
          (terminalOf status (e.socketAt index).state) (aborted.socketBytes index))
        else aborted).table = e.table := by
      split
      · rw [table_record, haborted]
      · exact haborted
    generalize (if connection.phase = .closing ∧ connection.listener.isSome then _
      else aborted) = recorded at hrecorded ⊢
    rw [← hrecorded]
    split <;> rfl
  rw [htable]
  exact .single (drop_steps hconnection hholder hquiet)

theorem pollPending_steps (holder : Holder) (hholder : terms.holder = holder) (capability : Nat)
    (now : Instant) : Steps (some terms) e.table (pollPending holder capability now e).2.table := by
  unfold pollPending
  dsimp only
  split
  · exact .refl
  rename_i index connection hfound
  obtain ⟨hconnection, -, howner⟩ := find_eq_some hfound
  split
  · exact .refl
  rename_i hwaits
  have hquiet : e.table.Unawaited index := by
    intro pending hpending hindex
    apply hwaits
    rw [show e.nameConnect = some pending from hpending]
    simpa using hindex
  split
  · exact .refl
  · refine .single ?_
    rw [table_setConnection]
    exact progress_steps hconnection
      (hholder.trans howner.symm) hquiet .connected connection.shutdown
  · exact settle_steps hconnection (hholder.trans howner.symm) hquiet _

theorem closeListener_steps
    (hlistener : e.listeners entry = some listener) (hholder : terms.holder = listener.holder) :
    Steps (some terms) e.table (e.closeListener stack entry listener).table := by
  refine head ?_ refreshListeners_steps
  have htable : (listener.socket.elim
      (e.setListener entry (some { listener with active := false, socket := none }))
      fun slot => (e.setListener entry
        (some { listener with active := false, socket := none })).abortSocket slot).table =
      (e.setListener entry (some { listener with active := false, socket := none })).table := by
    rcases listener.socket with _ | slot
    · rfl
    · exact table_abortSocket slot
  rw [table_record, htable, table_setListener]
  exact retire entry _ (posts_of_listener hlistener) (congrArg some hholder)

variable (destinations : NetworkDestinations)

theorem refuseLocal_steps (applications : NetworkApplications)
    (holder : Holder) (request : WireNetworkRequest) (policy : Application) :
    Steps caller e.table
      (e.refuseLocal stack destinations applications holder request policy).2.table := by
  unfold refuseLocal
  split
  · exact .refl
  split
  · exact .refl
  split
  · exact .refl
  dsimp only
  split
  · exact refreshListeners_steps
  · split
    · exact refreshListeners_steps
    · exact refreshListeners_steps

theorem handleLocal_steps (h : e.table.Owned) (applications : NetworkApplications)
    (hoptions : ∀ policy, byHolder applications terms.holder = some policy →
      policy.options = terms.options)
    (request : WireNetworkRequest) (payload : List UInt8) (now : Instant) :
    Steps (some terms) e.table
      (handleLocal stack terms.destinations applications terms.holder request payload now
        e).2.table := by
  unfold handleLocal
  dsimp only
  split
  · exact .refl
  split
  · exact .refl
  rename_i policy hpolicy
  have hrow := hoptions policy (filter_eq_some_iff.mp hpolicy).1
  rw [hrow]
  split
  · exact listen_steps rfl policy request now
  split
  · exact accept_steps rfl request.capability now
  split
  · have hrefused : Steps (some terms) e.table
        ({ e with lastNow := now }.refuseLocal stack terms.destinations applications
          terms.holder request policy).2.table :=
      refuseLocal_steps (e := { e with lastNow := now }) _ _ _ _ _
    split
    next status e' heq =>
      rw [heq] at hrefused
      exact hrefused
    rename_i e' heq
    rw [heq] at hrefused
    exact hrefused.trans (handleWith_steps
      (steps_invariant owned_step h hrefused) request payload now)
  · split
    · split
      next entry listener hfound =>
        obtain ⟨hlistener, htest⟩ := findListener_eq_some hfound
        simp only [Bool.and_eq_true, beq_iff_eq] at htest
        exact closeListener_steps (e := { e with lastNow := now }) hlistener htest.2.symm
      · exact handleWith_steps h request payload now
    · exact handleWith_steps h request payload now

end Own

@[simp] theorem table_cancelDns : e.cancelDns.table = { e.table with lookup := none } := by
  unfold table cancelDns
  simp

theorem setConnection_table (h : e.connections index = some connection) (connection' : Connection)
    (hsame : connection'.toGrant = connection.toGrant) :
    (e.setConnection index (some connection')).table = e.table := by
  rw [table_setConnection, map_some, hsame]
  exact setGrant_self (grants_of_connection h)

theorem setListener_table (h : e.listeners entry = some listener) (listener' : Listener)
    (hsame : listener'.toPost = listener.toPost) :
    (e.setListener entry (some listener')).table = e.table := by
  rw [table_setListener, map_some, hsame]
  exact setPost_self (posts_of_listener h)

theorem failDns_steps (index : Index) (status : Status) :
    Steps caller e.table (e.failDns index status).table := by
  have htable : (e.failDns index status).table = { e.table with lookup := none } := by
    unfold failDns
    dsimp only
    split
    next connection hconnection =>
      apply (setConnection_table hconnection { connection with terminal := some status }
        rfl).trans
      simp
    · simp
  rw [htable]
  exact .single forget

theorem redial_steps {pending pending' : NameConnect} (hlookup : e.nameConnect = some pending)
    (hconnection : e.connections pending.index = some connection)
    (hindex : pending'.index = pending.index) (hstarter : pending'.starter = pending.starter)
    (destinations : NetworkDestinations) (now : Instant) (answer : Option Dns.Answer) :
    Steps none e.table (redial stack destinations now pending' connection answer e).2.table := by
  unfold redial
  rw [hindex]
  split
  · exact failDns_steps _ _
  split
  · exact .refl
  rename_i address haddress
  dsimp only
  generalize haborted : ({ e.setSocket pending.index
      (e.smoltcp.abort (e.socketAt pending.index)) with
    resets := update _ _ _ } : Engine) = aborted
  have htable : aborted.table = e.table := by
    subst haborted
    exact table_setSocket (e := e) pending.index _
  have hfailed (status : Status) :
      Steps none e.table (aborted.failDns pending.index status).table := by
    rw [← htable]
    exact failDns_steps _ _
  split
  · exact hfailed _
  split
  · exact hfailed _
  generalize hopened : ({ aborted.setSocket pending.index _ with
    nextPort := _ } : Engine).recordOpen pending.index connection.holder = opened
  have hsame : opened.table = e.table := by
    subst hopened
    rw [table_recordOpen, ← htable]
    exact table_setSocket (e := aborted) pending.index _
  split
  · rw [← hsame]
    exact failDns_steps _ _
  refine .single ?_
  rw [table_setConnection]
  have hlength := (List.getElem_of_getElem? haddress).1
  have hstep := Step.redial pending
    { pending' with index := pending.index, next := pending'.next + 1 }
    connection.toGrant hlookup (grants_of_connection hconnection) rfl hstarter hlength rfl
  rw [← hsame] at hstep ⊢
  exact hstep

theorem advanceDns_steps (destinations : NetworkDestinations) (now : Instant) :
    Steps none e.table (advanceDns stack destinations now e).2.table := by
  unfold advanceDns
  dsimp only
  split
  · exact .refl
  rename_i pending hpending
  split
  · rw [table_cancelDns]
    exact .single (forget)
  rename_i connection hconnection
  split
  · exact failDns_steps (e := { e with lastNow := now }) _ _
  split
  · unfold advanceResolving
    split
    · exact .refl
    rename_i resolver hresolver
    have hsame (resolver' : Resolver) :
        { e with lastNow := now, resolver := some resolver' }.table = e.table := by
      unfold table
      rw [show e.resolver = some resolver from hresolver]
      rfl
    split
    next resolver' hpoll =>
      rw [hsame]
    rename_i result resolver' hpoll
    have hfailed (status : Status) : Steps none e.table
        ({ e with lastNow := now, resolver := some resolver'.cancel }.failDns
          pending.index status).table := by
      rw [← hsame resolver'.cancel]
      exact failDns_steps _ _
    split
    · exact hfailed _
    split
    · exact hfailed _
    split
    · exact hfailed _
    split
    · exact hfailed _
    split
    · exact hfailed _
    rw [← hsame resolver'.cancel]
    refine redial_steps (e := { e with lastNow := now, resolver := some resolver'.cancel })
      hpending hconnection ?_ ?_ _ _ _
    · rfl
    · rfl
  · unfold advanceConnecting
    dsimp only
    split
    · refine .single ?_
      change Step none e.table
        { (Engine.setSocket { e with lastNow := now } pending.index _).table with
          lookup := none }
      rw [table_setSocket]
      exact forget
    · split
      · exact .refl
      · exact redial_steps (e := { e with lastNow := now }) hpending hconnection rfl rfl _ _ _

theorem tick_steps (now : Instant) : Steps none e.table (e.tick stack now).table :=
  refreshListeners_steps
    (e := { e with lastNow := now, resets := fun index => (e.resets index).filter _ })

theorem permitRefusal_table (segment : Segment) : (e.permitRefusal segment).2.table = e.table := by
  unfold permitRefusal
  dsimp only
  split <;> rfl

theorem permitReset_table (segment : Segment) : (e.permitReset segment).2.table = e.table := by
  unfold permitReset
  split
  · rfl
  split
  · rfl
  split
  next index connection hfound =>
    split
    · obtain ⟨other, -, hother⟩ := exists_of_findSome?_eq_some hfound
      obtain ⟨found, hconnection, htest⟩ := bind_eq_some_iff.mp hother
      split at htest
      · obtain ⟨rfl, rfl⟩ := Prod.mk.inj (some.inj htest)
        exact setConnection_table hconnection _ rfl
      · cases htest
    · exact permitRefusal_table segment
  · exact permitRefusal_table segment

theorem permitEgress_table (frame : Frame) : (e.permitEgress stack frame).2.table = e.table := by
  unfold permitEgress
  split
  · rfl
  · rfl
  · split
    · rfl
    next resolver hresolver =>
      unfold table
      simp [hresolver]
  · unfold permitTcp
    split
    · exact permitReset_table _
    split
    · rfl
    split
    next entry listener hfound =>
      unfold permitBacklog
      dsimp only
      split
      · rfl
      split
      · rfl
      · split
        · exact table_abortSocket _
        · exact setListener_table (findListener_eq_some hfound).1 _ rfl
    · split
      · rfl
      rename_i connection hconnection
      unfold permitSegment
      dsimp only
      split
      · rfl
      split
      · rfl
      split
      · rfl
      split
      · rw [table_abortSocket]
        exact setConnection_table hconnection _ rfl
      · exact setConnection_table hconnection _ rfl

theorem resetAll_steps (now : Instant) : Steps none e.table (e.resetAll now).2.table := by
  unfold resetAll
  dsimp only
  have hreset (indices : List Index) (state : Reclaimed × Engine) :
      (indices.foldl resetSocket state).2.table = state.2.table := by
    induction indices generalizing state with
    | nil => rfl
    | cons index indices ih =>
      rw [foldl_cons, ih]
      unfold resetSocket
      dsimp only
      split
      · exact table_abortSocket index
      · rfl
  have htable := hreset (finRange socketCount)
    (⟨({ e with lastNow := now } : Engine).allocated, 0, 0⟩, { e with lastNow := now })
  generalize (finRange socketCount).foldl resetSocket _ = state at htable ⊢
  refine .single ?_
  change Step none e.table
    { state.2.cancelDns.table with grants := fun _ => none, posts := fun _ => none }
  rw [table_cancelDns, htable]
  exact wipe rfl

variable (slots : Index → Bool)

@[simp] theorem table_markPeers (index : Index) : (e.markPeers slots index).table = e.table := by
  have hgrants : (fun other => ((e.markPeers slots index).connections other).map
      toGrant) = fun other => (e.connections other).map toGrant := by
    funext other
    unfold markPeers
    dsimp only
    rcases e.connections other with _ | -
    · rfl
    · split <;> rfl
  unfold table
  rw [hgrants]
  rfl

theorem releaseSlot_table (state : Reclaimed × Engine) (index : Index) :
    (releaseSlot slots state index).2.table =
      if slots index then state.2.table.setGrant index none else state.2.table := by
  unfold releaseSlot
  rcases slots index with _ | _ <;> simp

theorem dropSlots_steps (indices : List Index) (state : Reclaimed × Engine)
    (h : ∀ index, slots index = true → state.2.table.Unawaited index ∧
      ∀ grant, state.2.table.grants index = some grant → grant.holder = terms.holder) :
    Steps (some terms) state.2.table (indices.foldl (releaseSlot slots) state).2.table := by
  induction indices generalizing state with
  | nil => exact .refl
  | cons index indices ih =>
    have hslot := releaseSlot_table slots state index
    by_cases howned : slots index = true
    · rw [if_pos howned] at hslot
      have hfirst : Steps (some terms) state.2.table (releaseSlot slots state index).2.table := by
        rw [hslot]
        rcases hgrant : state.2.table.grants index with _ | grant
        · rw [setGrant_self hgrant]
        · exact .single (drop index grant hgrant
            (congrArg some ((h index howned).2 grant hgrant).symm) (h index howned).1)
      refine hfirst.trans (ih _ fun other hother => ?_)
      rw [hslot]
      refine ⟨(h other hother).1, fun grant hgrant => ?_⟩
      rcases update_eq_some.mp hgrant with ⟨-, hnone⟩ | ⟨-, hkept⟩
      · cases hnone
      · exact (h other hother).2 grant hkept
    · rw [if_neg howned] at hslot
      rw [← hslot]
      apply ih _
      rw [hslot]
      exact h

def withdrawn (holder : Holder) (t : Table) (entry : Index) : Table :=
  t.setPost entry ((t.posts entry).filter fun post => post.holder != holder)

theorem withdrawn_steps (entries : List Index) :
    Steps (some terms) t (entries.foldl (withdrawn terms.holder) t) := by
  induction entries generalizing t with
  | nil => exact .refl
  | cons entry entries ih =>
    refine Relation.ReflTransGen.trans ?_ ih
    unfold withdrawn
    rcases hpost : t.posts entry with _ | post
    · unfold setPost
      rw [filter_none, ← hpost, update_eq_self]
    by_cases howner : post.holder = terms.holder
    · rw [filter_some, if_neg (by simp [howner])]
      exact .single (withdraw entry post hpost (congrArg some howner.symm))
    · rw [filter_some, if_pos (by simpa using howner), setPost_self hpost]

theorem withdrawn_eq (holder : Holder) (entries : List Index) : entries.foldl (withdrawn holder) t =
      { t with
        posts := fun entry =>
          if entry ∈ entries then (t.posts entry).filter fun post => post.holder != holder
          else t.posts entry } := by
  induction entries generalizing t with
  | nil => simp
  | cons entry entries ih =>
    rw [foldl_cons, ih]
    unfold withdrawn setPost
    congr 1
    funext other
    by_cases hother : other = entry
    · subst hother
      rcases t.posts other with _ | post
      · simp
      · by_cases howner : post.holder = holder <;> simp [filter_some, howner]
    · simp [hother]

theorem holder_of_slots (h : e.table.Owned) (hslot : e.slots holder index = true) {grant : Grant}
    (hgrant : e.table.grants index = some grant) : grant.holder = holder := by
  obtain ⟨connection, hconnection, rfl⟩ := map_eq_some_iff.mp hgrant
  simp only [slots, Bool.or_eq_true, List.any_eq_true, mem_finRange, true_and] at hslot
  rcases hslot with hown | ⟨entry, hentry⟩
  · rw [hconnection] at hown
    simpa using hown
  obtain ⟨listener, hlistener, htest⟩ := (Option.any_eq_true _ _).mp hentry
  simp only [Bool.and_eq_true, beq_iff_eq] at htest
  have hnone := h.apart index entry _ (posts_of_listener hlistener) htest.2
  rw [hgrant] at hnone
  cases hnone

theorem releaseHolder_steps (h : e.table.Owned) :
    Steps (some terms) e.table (e.releaseHolder terms.holder).2.table := by
  unfold releaseHolder
  dsimp only
  have hcancelled : Steps (some terms) e.table
      (if (e.nameConnect.any fun pending => (e.connections pending.index).any fun connection =>
        connection.holder == terms.holder) = true then e.cancelDns else e).table := by
    split
    · rw [table_cancelDns]
      exact .single forget
    · exact .refl
  have hquiet : ∀ index, (if (e.nameConnect.any fun pending =>
      (e.connections pending.index).any fun connection =>
        connection.holder == terms.holder) = true then e.cancelDns else e).slots terms.holder
        index = true →
      (if (e.nameConnect.any fun pending => (e.connections pending.index).any fun connection =>
        connection.holder == terms.holder) = true then e.cancelDns else e).table.Unawaited
        index := by
    split
    · intro index _
      exact unawaited_of_none rfl
    rename_i hcancels
    rintro index hslot pending hpending rfl
    obtain ⟨-, -, grant, hgrant, -⟩ := h.awaited pending hpending
    have howner := holder_of_slots h hslot hgrant
    obtain ⟨connection, hconnection, rfl⟩ := map_eq_some_iff.mp hgrant
    apply hcancels
    rw [show e.nameConnect = some pending from hpending]
    simp [hconnection, howner]
  generalize (if (e.nameConnect.any fun pending =>
    (e.connections pending.index).any fun connection =>
      connection.holder == terms.holder) = true then e.cancelDns else e) = start
    at hcancelled hquiet ⊢
  have howned : start.table.Owned := steps_invariant owned_step h hcancelled
  have hdropped :=
    dropSlots_steps (start.slots terms.holder) (finRange socketCount)
      (⟨start.handles terms.holder, 0, 0⟩, start) fun index hslot =>
        ⟨hquiet index hslot, fun grant hgrant => holder_of_slots howned hslot hgrant⟩
  apply (hcancelled.trans hdropped).trans
  generalize (finRange socketCount).foldl _ _ = state
  have hwithdrawn : Steps (some terms) state.2.table _ := withdrawn_steps (finRange socketCount)
  rw [withdrawn_eq] at hwithdrawn
  convert hwithdrawn using 1
  unfold table
  simp only [mem_finRange, if_true]
  congr 1
  funext entry
  rcases state.2.listeners entry with _ | -
  · rfl
  · simp only [filter_some, map_some]
    split <;> simp_all

end Engine

end SlimeOs.Tcp
