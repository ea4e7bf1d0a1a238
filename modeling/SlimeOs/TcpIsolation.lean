import SlimeOs.TcpIdentities

/-!
A holder reaches only what is its own. What a call on behalf of one holder can do to the table is
listed step by step; the connections of other holders stay as they are, and so do their listeners,
up to the socket they listen on and to entries that were closed and have no connection left.
-/

namespace SlimeOs.Tcp

open FallibleCall Function List Network Option Engine
open Table (Step Steps)

namespace Table

/-- What is left of the other holders' entries. -/
structure Spared (holder : Holder) (t t' : Table) : Prop where
  grants : ∀ index grant, grant.holder ≠ holder →
    (t'.grants index = some grant ↔ t.grants index = some grant)
  posts : ∀ entry post, t.posts entry = some post → post.holder ≠ holder →
    (∃ socket, t'.posts entry = some { post with socket := socket }) ∨
      (post.active = false ∧ t.children post.id = 0 ∧
        ∀ reused, t'.posts entry = some reused → reused.holder = holder)

theorem Spared.refl (holder : Holder) (t : Table) : Spared holder t t :=
  ⟨fun _ _ _ => Iff.rfl, fun _ post hpost _ => .inl ⟨post.socket, hpost⟩⟩

variable {t' t : Table} {terms : Caller}

theorem Spared.childless {holder : Holder} (h : Spared holder t t')
    (hnamed : t.Named) {entry : Index} {post : Post} (hpost : t.posts entry = some post)
    (howner : post.holder ≠ holder) (hchildless : t'.children post.id = 0) :
    t.children post.id = 0 := by
  unfold children at *
  rw [countP_eq_zero] at *
  intro index hindex hchild
  obtain ⟨grant, hgrant, hparent⟩ := (any_eq_true _ _).mp hchild
  have hfamily := hnamed.parent index entry grant post hgrant hpost (by simpa using hparent)
  have hkept := (h.grants index grant (by rw [hfamily.1]; exact howner)).mpr hgrant
  exact hchildless index hindex (by rw [hkept]; exact hparent)

/-- An entry of another holder is written only to move its socket or to sweep it, and an entry that
is vacant or the caller's does not become another holder's. -/
theorem Spared.writePost {holder : Holder} (h : Spared holder t t') (hnamed : t.Named)
    {entry : Index} {new : Option Post}
    (hwrite : ∀ post, t'.posts entry = some post → post.holder ≠ holder →
      (∃ socket, new = some { post with socket := socket }) ∨
        (new = none ∧ post.active = false ∧ t'.children post.id = 0))
    (hown : (∀ post, t'.posts entry = some post → post.holder = holder) →
      ∀ post, new = some post → post.holder = holder)
    (other : Index) (post : Post) (hpost : t.posts other = some post)
    (howner : post.holder ≠ holder) :
    (∃ socket, update t'.posts entry new other = some { post with socket := socket }) ∨
      (post.active = false ∧ t.children post.id = 0 ∧
        ∀ reused, update t'.posts entry new other = some reused → reused.holder = holder) := by
  by_cases hother : other = entry
  · subst hother
    rw [update_self]
    rcases h.posts other post hpost howner with ⟨socket, hkept⟩ | ⟨hinactive, hchildless, hreused⟩
    · rcases hwrite _ hkept howner with hmoved | ⟨hnew, hinactive, hchildless⟩
      · exact .inl hmoved
      · exact .inr ⟨hinactive, h.childless hnamed hpost howner hchildless, by simp [hnew]⟩
    · exact .inr ⟨hinactive, hchildless, hown hreused⟩
  · rw [update_of_ne hother]
    exact h.posts other post hpost howner

theorem Spared.writeGrant {holder : Holder} (h : Spared holder t t') {index : Index}
    {new : Option Grant}
    (hold : ∀ grant, t'.grants index = some grant → grant.holder = holder)
    (hnew : ∀ grant, new = some grant → grant.holder = holder)
    (other : Index) (grant : Grant) (howner : grant.holder ≠ holder) :
    update t'.grants index new other = some grant ↔ t.grants other = some grant := by
  rw [update_eq_some, ← h.grants other grant howner]
  constructor
  · rintro (⟨rfl, hsome⟩ | ⟨-, hsome⟩)
    · exact absurd (hnew grant hsome) howner
    · exact hsome
  intro hsome
  refine .inr ⟨?_, hsome⟩
  rintro rfl
  exact howner (hold grant hsome)

theorem spared_step {t'' : Table} (hnamed : t.Named) (howned : t'.Owned)
    (h : Spared terms.holder t t') (hstep : Step (some terms) t' t'') :
    Spared terms.holder t t'' := by
  cases hstep with
  | take | rebuild | begin | forget | enable => exact ⟨h.grants, h.posts⟩
  | arm entry index post hpost hidle =>
    refine ⟨h.grants, h.writePost hnamed (fun other hother howner => .inl ⟨some index, ?_⟩) ?_⟩
    · rw [mem_unique hpost hother]
    · rintro hown _ ⟨⟩
      exact hown post hpost
  | disarm entry post hpost =>
    refine ⟨h.grants, h.writePost hnamed (fun other hother howner => .inl ⟨none, ?_⟩) ?_⟩
    · rw [mem_unique hpost hother]
    · rintro hown _ ⟨⟩
      exact hown post hpost
  | sweep entry post hpost hinactive hchildless =>
    refine ⟨h.grants, h.writePost hnamed (fun other hother howner => .inr ?_) nofun⟩
    rw [← mem_unique hpost hother]
    exact ⟨rfl, hinactive, hchildless⟩
  | declare entry post hvacant hserial hholder =>
    refine ⟨h.grants, h.writePost hnamed (fun other hother howner => ?_) ?_⟩
    · rw [hvacant] at hother
      cases hother
    · rintro - _ ⟨⟩
      exact (some.inj hholder).symm
  | withdraw entry post hpost hholder =>
    refine ⟨h.grants, h.writePost hnamed (fun other hother howner => ?_) nofun⟩
    rw [← mem_unique hpost hother] at howner
    exact absurd (some.inj hholder).symm howner
  | retire entry post hpost hholder =>
    refine ⟨h.grants, h.writePost hnamed (fun other hother howner => ?_) ?_⟩
    · rw [← mem_unique hpost hother] at howner
      exact absurd (some.inj hholder).symm howner
    · rintro - _ ⟨⟩
      exact (some.inj hholder).symm
  | «open» index grant terms' row hcaller hfree hserial hid hholder =>
    obtain rfl := some.inj hcaller
    refine ⟨h.writeGrant ?_ ?_, h.posts⟩
    · rw [show t'.grants index = none from hfree.1]
      exact nofun
    · rintro new ⟨⟩
      exact hholder
  | adopt entry index post grant hpost hsocket hholder howner =>
    have hcaller := some.inj hholder
    refine ⟨h.writeGrant ?_ ?_, h.writePost hnamed (fun other hother hforeign => ?_) ?_⟩
    · rw [howned.apart index entry post hpost hsocket]
      exact nofun
    · rintro new ⟨⟩
      exact howner.trans hcaller.symm
    · rw [← mem_unique hpost hother] at hforeign
      exact absurd hcaller.symm hforeign
    · rintro - _ ⟨⟩
      exact hcaller.symm
  | progress index grant phase shutdown hgrant hholder =>
    refine ⟨h.writeGrant ?_ ?_, h.posts⟩
    · intro old hold
      rw [← mem_unique hgrant hold]
      exact (some.inj hholder).symm
    · rintro new ⟨⟩
      exact (some.inj hholder).symm
  | drop index grant hgrant hholder =>
    refine ⟨h.writeGrant ?_ nofun, h.posts⟩
    intro old hold
    rw [← mem_unique hgrant hold]
    exact (some.inj hholder).symm
  | redial pending pending' grant hlookup hgrant hindex hstarter hnext hservice => cases hservice
  | wipe hservice => cases hservice

theorem spared_steps (howned : t.Owned) (hnamed : t.Named)
    (hsteps : Steps (some terms) t t') : Spared terms.holder t t' := by
  induction hsteps with
  | refl => exact .refl terms.holder t
  | tail hfirst hlast ih =>
    exact spared_step hnamed (steps_invariant owned_step howned hfirst) ih hlast

end Table

def Op.holder? : Op → Option Holder
  | .handle _ _ holder _ _ _ => some holder
  | .handleLocal _ _ _ holder _ _ _ => some holder
  | .listen _ holder _ _ _ => some holder
  | .accept _ holder _ _ => some holder
  | .pollPending holder _ _ => some holder
  | _ => none

/-- What a call for one holder leaves of the others': the whole of `Grant`, which is a connection
but for the progress of its socket, and a listener up to the socket it listens on. The entry of a
listener that its holder has closed and that has no connection left may be swept, and is then
empty or the caller's. -/
structure Untouched (holder : Holder) (e e' : Engine) : Prop where
  connections : ∀ index connection, e.connections index = some connection →
    connection.holder ≠ holder →
    ∃ kept, e'.connections index = some kept ∧ kept.toGrant = connection.toGrant
  listeners : ∀ entry listener, e.listeners entry = some listener → listener.holder ≠ holder →
    (∃ kept, e'.listeners entry = some kept ∧ Engine.SameListener listener kept) ∨
      (listener.active = false ∧ e.children listener.id = 0 ∧
        ∀ reused, e'.listeners entry = some reused → reused.holder = holder)

theorem Op.by_of_holder {op : Op} {holder : Holder} (h : op.holder? = some holder) :
    ∃ terms, op.By (some terms) ∧ terms.holder = holder := by
  obtain ⟨caller, hby⟩ := op.exists_by
  cases op with
  | handle | handleLocal =>
    obtain ⟨terms, rfl, hholder, hrest⟩ := hby
    exact ⟨terms, ⟨terms, rfl, hholder, hrest⟩, hholder.trans (some.inj h)⟩
  | listen | accept | pollPending =>
    obtain ⟨terms, rfl, hholder⟩ := hby
    exact ⟨terms, ⟨terms, rfl, hholder⟩, hholder.trans (some.inj h)⟩
  | advanceDns | tick | releaseHolder | resetAll | permitEgress | enableDns | network => cases h

variable {e : Engine}

theorem untouched_step (howned : e.table.Owned) (hnamed : e.table.Named) {op : Op}
    {holder : Holder} (hop : op.holder? = some holder) : Untouched holder e (step e op) := by
  obtain ⟨terms, hby, rfl⟩ := Op.by_of_holder hop
  have hspared := Table.spared_steps howned hnamed (step_steps hby howned)
  refine ⟨?_, ?_⟩
  · intro index connection hconnection howner
    have hkept := (hspared.grants index connection.toGrant howner).mpr
      (grants_of_connection hconnection)
    obtain ⟨kept, hkept, hsame⟩ := map_eq_some_iff.mp hkept
    exact ⟨kept, hkept, hsame⟩
  · intro entry listener hlistener howner
    rcases hspared.posts entry listener.toPost (posts_of_listener hlistener) howner with
      ⟨socket, hkept⟩ | ⟨hinactive, hchildless, hreused⟩
    · obtain ⟨kept, hkept, hsame⟩ := map_eq_some_iff.mp hkept
      exact .inl ⟨kept, hkept, socket, hsame⟩
    · rw [children_table] at hchildless
      exact .inr ⟨hinactive, hchildless, fun reused h => hreused _ (posts_of_listener h)⟩

def Engine.Belongs (e : Engine) (holder : Holder) (id : Nat) : Prop :=
  (∃ index connection, e.connections index = some connection ∧ connection.id = id ∧
    connection.holder = holder) ∨
  ∃ entry listener, e.listeners entry = some listener ∧ listener.id = id ∧
    listener.holder = holder

/-- Presenting the id is denied. A request that is not well formed is malformed whatever it
presents, and accepting is not among the requests of `handle`. -/
structure Denies (e : Engine) (holder : Holder) (id : Nat) : Prop where
  polled : ∀ now, (Engine.pollPending holder id now e).1 = .ok (some (.ofStatus .denied))
  accepted : ∀ stack now, (Engine.accept stack holder id now e).1 = .ok (fail .denied)
  handled : ∀ stack destinations request payload now, request.capability = id →
    (Engine.handle stack destinations holder request payload now e).1 =
      .ok (fail (if validNetworkRequest request = false then .malformed
        else if request.op = opAccept then .unsupported else .denied))
  handledLocal : ∀ stack destinations applications request payload now, request.capability = id →
    (Engine.handleLocal stack destinations applications holder request payload now e).1 =
      .ok (fail (if validNetworkRequest request = false then .malformed else .denied))

theorem Engine.Belongs.unique (h : e.table.Named) {holder holder' : Holder} {id : Nat}
    (hid : e.Belongs holder id) (hid' : e.Belongs holder' id) : holder = holder' := by
  rcases hid with ⟨i, connection, hconnection, hsame, rfl⟩ | ⟨k, listener, hlistener, hsame, rfl⟩
  · rcases hid' with ⟨j, connection', hconnection', hsame', rfl⟩ |
      ⟨k, listener, hlistener, hsame', rfl⟩
    · obtain rfl := h.grant_unique i j _ _ (grants_of_connection hconnection)
        (grants_of_connection hconnection') (hsame.trans hsame'.symm)
      rw [mem_unique hconnection hconnection']
    · exact absurd (hsame.trans hsame'.symm) (h.apart i k _ _
        (grants_of_connection hconnection) (posts_of_listener hlistener))
  · rcases hid' with ⟨j, connection', hconnection', hsame', rfl⟩ |
      ⟨k', listener', hlistener', hsame', rfl⟩
    · exact absurd (hsame'.trans hsame.symm) (h.apart j k _ _
        (grants_of_connection hconnection') (posts_of_listener hlistener))
    · obtain rfl := h.post_unique k k' _ _ (posts_of_listener hlistener)
        (posts_of_listener hlistener') (hsame.trans hsame'.symm)
      rw [mem_unique hlistener hlistener']

theorem Engine.Belongs.ne_zero (h : e.table.Named) {holder : Holder} {id : Nat}
    (hid : e.Belongs holder id) : id ≠ 0 := by
  rcases hid with ⟨i, connection, hconnection, rfl, -⟩ | ⟨k, listener, hlistener, rfl, -⟩
  · have hbound := h.grant_bound i _ (grants_of_connection hconnection)
    omega
  · have hbound := h.post_bound k _ (posts_of_listener hlistener)
    omega

section Denied

variable {e : Engine} {holder : Holder} {id : Nat}

section

variable (h : ¬ e.Belongs holder id)
include h

theorem find_eq_none : e.find holder id = none := by
  rcases hfound : e.find holder id with _ | ⟨index, connection⟩
  · rfl
  · exact absurd (.inl ⟨index, connection, find_eq_some hfound⟩) h

theorem findListener_eq_none {test : Listener → Bool}
    (htest : ∀ listener, test listener = true → listener.id = id ∧ listener.holder = holder) :
    e.findListener test = none := by
  rcases hfound : e.findListener test with _ | ⟨entry, listener⟩
  · rfl
  · obtain ⟨hlistener, hpassed⟩ := findListener_eq_some hfound
    exact absurd (.inr ⟨entry, listener, hlistener, htest listener hpassed⟩) h

theorem pollPending_denied (now : Instant) :
    (pollPending holder id now e).1 = .ok (some (.ofStatus .denied)) := by
  unfold pollPending
  dsimp only
  rw [find_eq_none (e := { e with lastNow := now }) h]

theorem accept_denied (stack : Stack) (now : Instant) :
    (accept stack holder id now e).1 = .ok (fail .denied) := by
  unfold accept
  dsimp only
  rw [findListener_eq_none (e := { e with lastNow := now }) h]
  intro listener htest
  simp only [Bool.and_eq_true, beq_iff_eq] at htest
  exact htest.1

variable {request : WireNetworkRequest}

theorem handleWith_denied (hpresents : request.capability = id) (hid : id ≠ 0) (stack : Stack)
    (destinations : NetworkDestinations) (payload : List UInt8) (now : Instant)
    (options : SocketOptions) :
    (e.handleWith stack destinations holder request payload now options).1 =
      fail (if validNetworkRequest request = false then .malformed
        else if request.op = opAccept then .unsupported else .denied) := by
  unfold handleWith
  by_cases hvalid : validNetworkRequest request = true
  · have hop := op_of_validNetworkRequest hvalid (by rw [hpresents]; exact hid)
    have hconnect : request.op ≠ opConnect := by
      rcases hop with h | h | h | h | h <;> rw [h] <;> decide
    rw [if_neg (by simp [hvalid]), if_neg hconnect]
    by_cases haccept : request.op = opAccept
    · rw [if_pos (by rw [haccept]; decide), if_neg (by simp [hvalid]), if_pos haccept]
    · rw [if_neg (by tauto), if_neg (by simp [hvalid]), if_neg haccept, hpresents,
        find_eq_none (e := { e with lastNow := now }) h]
  · rw [if_pos (by simpa using hvalid), if_pos (by simpa using hvalid)]

theorem handleLocal_denied (hpresents : request.capability = id) (hid : id ≠ 0) (stack : Stack)
    (destinations : NetworkDestinations) (applications : NetworkApplications)
    (payload : List UInt8) (now : Instant) :
    (handleLocal stack destinations applications holder request payload now e).1 =
      .ok (fail (if validNetworkRequest request = false then .malformed else .denied)) := by
  have hnow : ¬ ({ e with lastNow := now } : Engine).Belongs holder id := h
  unfold handleLocal
  by_cases hvalid : validNetworkRequest request = true
  · have hop := op_of_validNetworkRequest hvalid (by rw [hpresents]; exact hid)
    have hlisten : request.op ≠ opListen := by
      rcases hop with h | h | h | h | h <;> rw [h] <;> decide
    have hconnect : request.op ≠ opConnect := by
      rcases hop with h | h | h | h | h <;> rw [h] <;> decide
    rw [if_neg (by simp [hvalid]), if_neg (by simp [hvalid])]
    split
    · rfl
    rw [if_neg hlisten]
    split
    · rw [hpresents]
      exact accept_denied hnow stack now
    rename_i haccept
    rw [if_neg (by simp [hconnect])]
    have hwith (policy : Application) :
        ({ e with lastNow := now }.handleWith stack destinations holder request payload now
          policy.options).1 = fail .denied := by
      rw [handleWith_denied hnow hpresents hid, if_neg (by simp [hvalid]), if_neg haccept]
    split
    · rw [findListener_eq_none hnow]
      · exact congrArg Except.ok (hwith _)
      · intro listener htest
        simp only [Bool.and_eq_true, beq_iff_eq] at htest
        exact ⟨htest.1.2.trans hpresents, htest.2⟩
    · exact congrArg Except.ok (hwith _)
  · rw [if_pos (by simpa using hvalid), if_pos (by simpa using hvalid)]

theorem denies_of_foreign (hid : id ≠ 0) : Denies e holder id :=
  ⟨pollPending_denied h, accept_denied h,
    fun stack destinations _ payload now hpresents =>
      congrArg Except.ok
        (handleWith_denied h hpresents hid stack destinations payload now defaultOptions),
    fun stack destinations applications _ payload now hpresents =>
      handleLocal_denied h hpresents hid stack destinations applications payload now⟩

end

end Denied

/-- What releasing a holder does: its connections and listeners go, and another holder's
connection at most learns that the other end of its socket was reset. -/
structure Released (holder : Holder) (e e' : Engine) : Prop where
  connections_gone : ∀ index connection, e'.connections index = some connection →
    connection.holder ≠ holder
  listeners_gone : ∀ entry listener, e'.listeners entry = some listener →
    listener.holder ≠ holder
  connections_kept : ∀ index connection, e.connections index = some connection →
    connection.holder ≠ holder →
    e'.connections index = some connection ∨
      (e'.connections index = some { connection with terminal := some .reset } ∧
        ∃ aborted, e.slots holder aborted = true ∧ e.mirrored aborted index = true)
  listeners_kept : ∀ entry listener, e.listeners entry = some listener →
    listener.holder ≠ holder → e'.listeners entry = some listener
  sockets_kept : ∀ index, e.slots holder index = false →
    e'.pool index = e.pool index ∧ e'.resets index = e.resets index
  lookup_kept : ∀ pending connection, e.nameConnect = some pending →
    e.connections pending.index = some connection → connection.holder ≠ holder →
    e'.nameConnect = some pending

namespace Engine

variable {e start : Engine} {state : Reclaimed × Engine} {slots : Index → Bool}

/-- Aborting a socket touches that socket and its reset; its endpoints stay. -/
structure Aborted (e e' : Engine) (index : Index) : Prop where
  connections : e'.connections = e.connections
  listeners : e'.listeners = e.listeners
  nameConnect : e'.nameConnect = e.nameConnect
  others : ∀ other, other ≠ index →
    e'.pool other = e.pool other ∧ e'.resets other = e.resets other
  endpoints : ∀ other, (e'.socketAt other).localEndpoint = (e.socketAt other).localEndpoint ∧
    (e'.socketAt other).remoteEndpoint = (e.socketAt other).remoteEndpoint

theorem abortSocket_spec (index : Index) : Aborted e (e.abortSocket index) index := by
  have hsocket (e₁ : Engine) (hpool : e₁.pool = e.pool) (other : Index) :
      ((e₁.setSocket index (e.smoltcp.abort (e.socketAt index))).socketAt other).localEndpoint =
          (e.socketAt other).localEndpoint ∧
        ((e₁.setSocket index (e.smoltcp.abort (e.socketAt index))).socketAt other).remoteEndpoint =
          (e.socketAt other).remoteEndpoint := by
    unfold setSocket socketAt
    rw [hpool]
    by_cases hother : other = index
    · subst hother
      simpa using e.smoltcp.abort_endpoints _
    · simp [update_of_ne hother]
  unfold abortSocket
  split
  · refine ⟨rfl, rfl, rfl, fun other hother => ?_, hsocket _ rfl⟩
    simp [setSocket, update_of_ne hother]
  · refine ⟨rfl, rfl, rfl, fun other hother => ?_, hsocket _ rfl⟩
    simp [setSocket, update_of_ne hother]

/-- How far a release has come. -/
structure Releasing (slots : Index → Bool) (start e : Engine) (done : List Index) : Prop where
  listeners : e.listeners = start.listeners
  nameConnect : e.nameConnect = start.nameConnect
  endpoints : ∀ index, (e.socketAt index).localEndpoint = (start.socketAt index).localEndpoint ∧
    (e.socketAt index).remoteEndpoint = (start.socketAt index).remoteEndpoint
  own : ∀ index ∈ done, slots index = true → e.connections index = none
  sockets : ∀ index, slots index = false →
    e.pool index = start.pool index ∧ e.resets index = start.resets index
  other : ∀ index, slots index = false →
    e.connections index = start.connections index ∨
      ∃ connection, start.connections index = some connection ∧
        e.connections index = some { connection with terminal := some .reset } ∧
        ∃ aborted, slots aborted = true ∧ start.mirrored aborted index = true

theorem Releasing.slot
    {done : List Index} (h : Releasing slots start state.2 done) (index : Index) :
    Releasing slots start (releaseSlot slots state index).2 (index :: done) := by
  unfold releaseSlot
  split
  next hslot =>
    refine ⟨h.listeners, h.nameConnect, h.endpoints, ?_, h.sockets, h.other⟩
    intro other hother hown
    rcases mem_cons.mp hother with rfl | hother
    · simp [hown] at hslot
    · exact h.own other hother hown
  next hslot =>
    have hown : slots index = true := by simpa using hslot
    have haborted := abortSocket_spec (e := state.2.markPeers slots index) index
    refine ⟨haborted.listeners.trans h.listeners, haborted.nameConnect.trans h.nameConnect, ?_, ?_,
      ?_, ?_⟩
    · intro other
      exact ⟨(haborted.endpoints other).1.trans (h.endpoints other).1,
        (haborted.endpoints other).2.trans (h.endpoints other).2⟩
    · intro other hother hslots
      by_cases hsame : other = index
      · rw [hsame]
        exact update_self ..
      have hdone := (mem_cons.mp hother).resolve_left hsame
      change update ((state.2.markPeers slots index).abortSocket index).connections index
        none other = none
      rw [update_of_ne hsame, haborted.connections]
      simp [markPeers, h.own other hdone hslots]
    · intro other hslots
      have hne : other ≠ index := fun heq => by simp [heq, hown] at hslots
      have hkept := haborted.others other hne
      exact ⟨hkept.1.trans (h.sockets other hslots).1, hkept.2.trans (h.sockets other hslots).2⟩
    · intro other hslots
      have hne : other ≠ index := fun heq => by simp [heq, hown] at hslots
      have hconnections : (((state.2.markPeers slots index).abortSocket index).setConnection index
          none).connections other = (state.2.markPeers slots index).connections other := by
        change update ((state.2.markPeers slots index).abortSocket index).connections index
          none other = _
        rw [update_of_ne hne, haborted.connections]
      rw [hconnections]
      unfold markPeers
      by_cases hmirrored : state.2.mirrored index other = true
      · have hstart : start.mirrored index other = true := by
          unfold mirrored Socket.endpoints at hmirrored ⊢
          rwa [(h.endpoints index).1, (h.endpoints index).2, (h.endpoints other).1,
            (h.endpoints other).2] at hmirrored
        simp only [hne, hslots, hmirrored, ne_eq, not_false_eq_true, Bool.not_false, and_self,
          if_true]
        rcases h.other other hslots with hsame | ⟨connection, hold, hmarked, -⟩
        · rcases hconnection : start.connections other with _ | connection
          · exact .inl (by simp [hsame, hconnection])
          · exact .inr ⟨connection, rfl, by simp [hsame, hconnection], index, hown, hstart⟩
        · exact .inr ⟨connection, hold, by simp [hmarked], index, hown, hstart⟩
      · simp only [hmirrored, Bool.false_eq_true, and_false, if_false, Option.map_id']
        exact h.other other hslots

theorem releasing_fold (indices done : List Index) (h : Releasing slots start state.2 done) :
    Releasing slots start (indices.foldl (releaseSlot slots) state).2
      (indices.reverse ++ done) := by
  induction indices generalizing state done with
  | nil => exact h
  | cons index indices ih =>
    rw [reverse_cons, append_assoc]
    exact ih (index :: done) (h.slot index)

theorem releaseHolder_released (howned : e.table.Owned) (holder : Holder) :
    Released holder e (e.releaseHolder holder).2 := by
  unfold releaseHolder
  dsimp only
  generalize hcancels : (e.nameConnect.any fun pending =>
    (e.connections pending.index).any fun connection => connection.holder == holder) = cancels
  generalize hstart : (if cancels = true then e.cancelDns else e) = start
  have hsame : start.connections = e.connections ∧ start.listeners = e.listeners ∧
      start.pool = e.pool ∧ start.resets = e.resets := by
    subst hstart
    split <;> exact ⟨rfl, rfl, rfl, rfl⟩
  obtain ⟨hconnections, hlisteners, hpool, hresets⟩ := hsame
  have hslots : start.slots holder = e.slots holder := by
    funext index
    unfold slots
    rw [hconnections, hlisteners]
  have hbegin : Releasing (start.slots holder) start
      ((⟨start.handles holder, 0, 0⟩, start) : Reclaimed × Engine).2 [] :=
    ⟨rfl, rfl, fun _ => ⟨rfl, rfl⟩, nofun, fun _ _ => ⟨rfl, rfl⟩, fun _ _ => .inl rfl⟩
  have hdone := releasing_fold (finRange socketCount) [] hbegin
  generalize (finRange socketCount).foldl (releaseSlot (start.slots holder)) _ = state
    at hdone ⊢
  rw [hslots] at hdone
  have hown : ∀ index, e.slots holder index = true → state.2.connections index = none :=
    fun index hslot => hdone.own index (by simp) hslot
  -- A connection of another holder does not sit on a slot of this one.
  have hforeign : ∀ index connection, e.connections index = some connection →
      connection.holder ≠ holder → e.slots holder index = false := by
    intro index connection hconnection howner
    by_contra hslot
    exact howner (holder_of_slots howned (by simpa using hslot) (grants_of_connection hconnection))
  have hmirror (index other : Index) : start.mirrored index other = e.mirrored index other := by
    unfold mirrored socketAt
    rw [hpool]
  refine ⟨?_, ?_, ?_, ?_, ?_, ?_⟩
  · intro index connection hconnection howner
    rcases hslot : e.slots holder index with _ | _
    · have hbefore : ∃ before, e.connections index = some before ∧ before.holder = holder := by
        rcases hdone.other index hslot with hkept | ⟨before, hbefore, hmarked, -⟩
        · exact ⟨connection, by rw [← hconnections, ← hkept]; exact hconnection, howner⟩
        · refine ⟨before, by rw [← hconnections]; exact hbefore, ?_⟩
          have hmarked' := mem_unique hconnection hmarked
          rw [← howner, hmarked']
      obtain ⟨before, hbefore, hholder⟩ := hbefore
      simp [slots, hbefore, hholder] at hslot
    · have hnone := hown index hslot
      rw [show state.2.connections index = some connection from hconnection] at hnone
      cases hnone
  · intro entry listener hlistener howner
    obtain ⟨-, htest⟩ := filter_eq_some_iff.mp hlistener
    simp [howner] at htest
  · intro index connection hconnection howner
    have hslot := hforeign index connection hconnection howner
    rcases hdone.other index hslot with hkept | ⟨before, hbefore, hmarked, aborted, haborted, hend⟩
    · exact .inl (by rw [hkept, hconnections, hconnection])
    · rw [hconnections, hconnection] at hbefore
      obtain rfl := some.inj hbefore
      exact .inr ⟨hmarked, aborted, haborted, by rw [← hmirror]; exact hend⟩
  · intro entry listener hlistener howner
    change (state.2.listeners entry).filter _ = some listener
    rw [hdone.listeners, hlisteners, hlistener, filter_some, if_pos (by simpa using howner)]
  · intro index hslot
    have hkept := hdone.sockets index hslot
    exact ⟨hkept.1.trans (congrFun hpool index), hkept.2.trans (congrFun hresets index)⟩
  · intro pending connection hpending hconnection howner
    have hkeeps : cancels = false := by
      rw [← hcancels, hpending]
      simp [hconnection, howner]
    rw [hdone.nameConnect, ← hstart, hkeeps]
    exact hpending

end Engine

/-- The listener of `serverRow` is armed. -/
def listening : List Op := [.listen quietStack serverHolder serverRow listenRequest 0]

def firstId : Nat := engineSpace 1 1 ||| 1

def acceptRequest : WireNetworkRequest :=
  { listenRequest with
    op := opAccept
    port := 0
    capability := firstId
    addressKind := addressNone
    endpoint := ByteLayout.zeros 24 }

/-- A row for peers outside. -/
def externalRow : Application :=
  { serverRow with backend := .external, admittedPeerIpv4 := loopbackAddress }

def externalId : Nat := engineSpace 1 0 ||| 1

/-- A peer has connected and sent a byte. -/
def dialledSocket : Socket :=
  ⟨.established, some ⟨loopbackAddress, 8080⟩, some ⟨loopbackAddress, 50000⟩, 1, 0, none⟩

def closeRequest (id : Nat) : WireNetworkRequest :=
  { acceptRequest with op := opClose, transport := transportNone, capability := id }

/-- The server accepts a connection, closes its listener and then the connection. -/
def retiring : List Op :=
  [.listen quietStack serverHolder externalRow listenRequest 0,
    .network fun index => if index = 0 then dialledSocket else plainSmoltcp.new,
    .accept quietStack serverHolder externalId 0,
    .handleLocal quietStack ⟨[], Nat.zero_le _⟩ [externalRow] serverHolder
      (closeRequest externalId) [] 0,
    .handle quietStack ⟨[], Nat.zero_le _⟩ serverHolder (closeRequest (externalId + 1)) [] 0]

def foreignListen : Op :=
  .listen quietStack clientHolder
    { externalRow with holderIdentity := clientHolder, localPort := 8081 }
    { listenRequest with port := 8081 } 0

end SlimeOs.Tcp
