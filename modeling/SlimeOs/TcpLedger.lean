import SlimeOs.TcpEngine

/-!
Who owns what in the TCP engine.

`Table` keeps of the engine what says who owns a socket, under which id and at whose charge, and
`Step` lists everything that can happen to it, each with the condition under which it happens:
a step on behalf of a caller, or of the service itself. What is true of the engine along every
run is proved once for each step.
-/

namespace SlimeOs.Tcp

open Function Network Option

/-- A holder's call: the destinations it is judged by, and its declared options. -/
structure Caller where
  holder : Holder
  destinations : NetworkDestinations
  options : SocketOptions
  valid : options.Valid

structure Table where
  grants : Index → Option Grant
  posts : Index → Option Post
  shapes : Index → Nat × Nat
  buffers : Index → Span × Span
  rxCapacity : Nat
  txCapacity : Nat
  nameSpace : Nat
  serial : Nat
  resolving : Bool
  lookup : Option NameConnect
  uses : List Use

/-- The ranges `socket_over` borrows. -/
def rangesOver (rxCapacity txCapacity : Nat) (index : Index) (shape : Nat × Nat) : Span × Span :=
  (⟨index.val * rxCapacity, shape.1⟩, ⟨index.val * txCapacity, shape.2⟩)

def sizes (options : SocketOptions) : Nat × Nat := (options.rxBufferBytes, options.txBufferBytes)

/-- The engine's check that `count` sockets of `each` bytes are within a limit, two budgets and a
byte budget. -/
structure Affords (limit timers depth bytes each count : Nat) : Prop where
  limit_le : count ≤ limit
  timers_le : count ≤ timers
  depth_le : count ≤ depth
  bytes_le : wrap32 (count * each) ≤ bytes

def Post.Affords (post : Post) (count : Nat) : Prop :=
  Tcp.Affords post.acceptedLimit post.timerBudget post.queueDepth post.byteBudget
    post.options.socketBytes count

/-- The row lets the holder have `count` sockets of these options. -/
def RowAffords (row : Destination) (options : SocketOptions) (count : Nat) : Prop :=
  Affords row.socketLimit row.timerBudget row.queueDepth row.byteBudget options.socketBytes count

/-- A socket was taken while nobody owned it, no reset was pending and it was closed. -/
def Use.Clean (use : Use) : Prop :=
  use.owned = false ∧ use.resetPending = false ∧ use.state = .closed

namespace Table

def Free (t : Table) (index : Index) : Prop :=
  t.grants index = none ∧ ∀ entry post, t.posts entry = some post → post.socket ≠ some index

def children (t : Table) (listener : Nat) : Nat :=
  (List.finRange socketCount).countP fun index =>
    (t.grants index).any fun grant => grant.listener == some listener

def charged (t : Table) (destination : Nat) : Nat :=
  (List.finRange socketCount).countP fun index =>
    (t.grants index).any fun grant => grant.destination == destination

/-- No lookup is under way for this connection. -/
def Unawaited (t : Table) (index : Index) : Prop :=
  ∀ pending, t.lookup = some pending → pending.index ≠ index

def setGrant (t : Table) (index : Index) (grant : Option Grant) : Table :=
  { t with grants := update t.grants index grant }

def setPost (t : Table) (entry : Index) (post : Option Post) : Table :=
  { t with posts := update t.posts entry post }

def issue (t : Table) : Table := { t with serial := t.serial + 1 }

def nextId (t : Table) : Nat := t.nameSpace ||| (t.serial + 1)

inductive Step (caller : Option Caller) : Table → Table → Prop
  | take {t : Table} (use : Use) (hclean : use.Clean) :
      Step caller t { t with uses := t.uses ++ [use] }
  | rebuild {t : Table} (index : Index) (shape : Nat × Nat) (hfree : t.Free index)
      (hrx : shape.1 ≤ t.rxCapacity) (htx : shape.2 ≤ t.txCapacity) :
      Step caller t
        { t with
          shapes := update t.shapes index shape
          buffers := update t.buffers index
            (rangesOver t.rxCapacity t.txCapacity index shape) }
  | arm {t : Table} (entry index : Index) (post : Post) (hpost : t.posts entry = some post)
      (hidle : post.socket = none) (hfree : t.Free index)
      (hshape : t.shapes index = sizes post.options)
      (hroom : post.Affords (t.children post.id + 1)) :
      Step caller t (t.setPost entry (some { post with socket := some index }))
  | disarm {t : Table} (entry : Index) (post : Post) (hpost : t.posts entry = some post) :
      Step caller t (t.setPost entry (some { post with socket := none }))
  | sweep {t : Table} (entry : Index) (post : Post) (hpost : t.posts entry = some post)
      (hinactive : post.active = false) (hchildless : t.children post.id = 0) :
      Step caller t (t.setPost entry none)
  | declare {t : Table} (entry : Index) (post : Post) (hvacant : t.posts entry = none)
      (hserial : t.serial + 1 < 2 ^ 32) (hholder : caller.map Caller.holder = some post.holder)
      (hid : post.id = t.nextId) (hidle : post.socket = none) (hvalid : post.options.Valid) :
      Step caller t (t.issue.setPost entry (some post))
  | withdraw {t : Table} (entry : Index) (post : Post) (hpost : t.posts entry = some post)
      (hholder : caller.map Caller.holder = some post.holder) :
      Step caller t (t.setPost entry none)
  | retire {t : Table} (entry : Index) (post : Post) (hpost : t.posts entry = some post)
      (hholder : caller.map Caller.holder = some post.holder) :
      Step caller t (t.setPost entry (some { post with active := false, socket := none }))
  | open {t : Table} (index : Index) (grant : Grant) (terms : Caller) (row : Destination)
      (hcaller : caller = some terms) (hfree : t.Free index) (hserial : t.serial + 1 < 2 ^ 32)
      (hid : grant.id = t.nextId) (hholder : grant.holder = terms.holder)
      (hlistener : grant.listener = none) (hoptions : grant.options = terms.options)
      (hshape : t.shapes index = sizes grant.options)
      (hrow : terms.destinations.destination grant.destination = some row)
      (howner : row.holderIdentity = terms.holder)
      (hroom : RowAffords row grant.options (t.charged grant.destination + 1)) :
      Step caller t (t.issue.setGrant index (some grant))
  | adopt {t : Table} (entry index : Index) (post : Post) (grant : Grant)
      (hpost : t.posts entry = some post) (hsocket : post.socket = some index)
      (hholder : caller.map Caller.holder = some post.holder) (howner : grant.holder = post.holder)
      (hserial : t.serial + 1 < 2 ^ 32) (hid : grant.id = t.nextId)
      (hlistener : grant.listener = some post.id) (hoptions : grant.options = post.options)
      (hdestination : grant.destination = 2 ^ 64 - 1) :
      Step caller t
        ((t.issue.setGrant index (some grant)).setPost entry (some { post with socket := none }))
  | progress {t : Table} (index : Index) (grant : Grant) (phase : Phase) (shutdown : Bool)
      (hgrant : t.grants index = some grant)
      (hholder : caller.map Caller.holder = some grant.holder) (hquiet : t.Unawaited index) :
      Step caller t (t.setGrant index (some { grant with phase := phase, shutdown := shutdown }))
  | drop {t : Table} (index : Index) (grant : Grant) (hgrant : t.grants index = some grant)
      (hholder : caller.map Caller.holder = some grant.holder) (hquiet : t.Unawaited index) :
      Step caller t (t.setGrant index none)
  | begin {t : Table} (pending : NameConnect) (grant : Grant)
      (hgrant : t.grants pending.index = some grant) (hphase : grant.phase = .resolving)
      (hstarter : grant.id = pending.starter) (hnext : pending.next = 0)
      (hresolver : t.resolving = true) : Step caller t { t with lookup := some pending }
  | redial {t : Table} (pending pending' : NameConnect) (grant : Grant)
      (hlookup : t.lookup = some pending) (hgrant : t.grants pending.index = some grant)
      (hindex : pending'.index = pending.index) (hstarter : pending'.starter = pending.starter)
      (hnext : pending'.next ≤ pending'.addresses.length) (hservice : caller = none) :
      Step caller t
        { t.setGrant pending.index (some { grant with phase := .connecting }) with
          lookup := some pending' }
  | forget {t : Table} : Step caller t { t with lookup := none }
  | enable {t : Table} : Step caller t { t with resolving := true }
  | wipe {t : Table} (hservice : caller = none) :
      Step caller t { t with grants := fun _ => none, posts := fun _ => none, lookup := none }

abbrev Steps (caller : Option Caller) : Table → Table → Prop := Relation.ReflTransGen (Step caller)

variable {t : Table} {caller : Option Caller} {i index : Index} {α : Type} {a : Option α}
  {f : Index → Option α} {P : Index → α → Prop}

theorem steps_invariant {Inv : Table → Prop} {t' : Table}
    (hstep : ∀ {t t'}, Inv t → Step caller t t' → Inv t') (h : Inv t) (hsteps : Steps caller t t') :
    Inv t' := by
  induction hsteps with
  | refl => exact h
  | tail _ hlast ih => exact hstep ih hlast

theorem update_eq_some {j : Index} {b : α} :
    update f i a j = some b ↔ (j = i ∧ a = some b) ∨ (j ≠ i ∧ f j = some b) := by
  rw [update_apply, ite_eq_iff]

theorem forall_update (hnew : ∀ b, a = some b → P i b)
    (hold : ∀ j b, j ≠ i → f j = some b → P j b) : ∀ j b, update f i a j = some b → P j b := by
  intro j b h
  rcases update_eq_some.mp h with ⟨rfl, hsome⟩ | ⟨hne, hkept⟩
  · exact hnew b hsome
  · exact hold j b hne hkept

theorem forall_update_some {a : α} (hnew : P i a) (hold : ∀ j b, j ≠ i → f j = some b → P j b) :
    ∀ j b, update f i (some a) j = some b → P j b := by
  refine forall_update ?_ hold
  rintro b ⟨⟩
  exact hnew

structure Owned (t : Table) : Prop where
  apart : ∀ index entry post, t.posts entry = some post → post.socket = some index →
    t.grants index = none
  single : ∀ index entry entry' post post', t.posts entry = some post →
    t.posts entry' = some post' → post.socket = some index → post'.socket = some index →
    entry = entry'
  clean : ∀ use ∈ t.uses, use.Clean
  built : ∀ index, t.buffers index = rangesOver t.rxCapacity t.txCapacity index (t.shapes index)
  fits : ∀ index, (t.shapes index).1 ≤ t.rxCapacity ∧ (t.shapes index).2 ≤ t.txCapacity
  awaited : ∀ pending, t.lookup = some pending →
    t.resolving = true ∧ pending.next ≤ pending.addresses.length ∧
      ∃ grant, t.grants pending.index = some grant ∧ grant.id = pending.starter ∧
        (grant.phase = .connecting ∨ grant.phase = .resolving ∧ pending.next = 0)

theorem Owned.setPost (h : t.Owned) (entry : Index) (post : Option Post)
    (hsocket : ∀ new index, post = some new → new.socket = some index →
      t.Free index ∨ ∃ old, t.posts entry = some old ∧ old.socket = some index) :
    (t.setPost entry post).Owned := by
  refine ⟨?_, ?_, h.clean, h.built, h.fits, h.awaited⟩
  · intro index other new hnew hnamed
    rcases update_eq_some.mp hnew with ⟨rfl, hpost⟩ | ⟨-, hold⟩
    · rcases hsocket new index hpost hnamed with hfree | ⟨old, hold, hsame⟩
      · exact hfree.1
      · exact h.apart index other old hold hsame
    · exact h.apart index other new hold hnamed
  · intro index first second new new' hnew hnew' hnamed hnamed'
    rcases update_eq_some.mp hnew with ⟨rfl, hpost⟩ | ⟨-, hold⟩
    · rcases update_eq_some.mp hnew' with ⟨rfl, -⟩ | ⟨-, hother⟩
      · rfl
      · rcases hsocket new index hpost hnamed with hfree | ⟨old, hold, hsame⟩
        · exact absurd hnamed' (hfree.2 second new' hother)
        · exact h.single index first second old new' hold hother hsame hnamed'
    · rcases update_eq_some.mp hnew' with ⟨rfl, hpost⟩ | ⟨-, hother⟩
      · rcases hsocket new' index hpost hnamed' with hfree | ⟨old, hsaved, hsame⟩
        · exact absurd hnamed (hfree.2 first new hold)
        · exact h.single index first second new old hold hsaved hnamed hsame
      · exact h.single index first second new new' hold hother hnamed hnamed'

/-- A connection entry may change while no listener names its socket and no lookup waits for it. -/
theorem Owned.setGrant (h : t.Owned) (index : Index) (grant : Option Grant)
    (hlisteners : grant ≠ none → ∀ entry post, t.posts entry = some post → post.socket ≠ some index)
    (hquiet : t.Unawaited index) : (t.setGrant index grant).Owned := by
  refine ⟨?_, h.single, h.clean, h.built, h.fits, ?_⟩
  · intro other entry post hpost hnamed
    change update t.grants index grant other = none
    rw [update_apply]
    split
    next hother =>
      subst hother
      by_contra hgrant
      exact hlisteners hgrant entry post hpost hnamed
    · exact h.apart other entry post hpost hnamed
  · intro pending hpending
    obtain ⟨hresolver, hnext, kept, hkept, hrest⟩ := h.awaited pending hpending
    refine ⟨hresolver, hnext, kept, ?_, hrest⟩
    exact update_eq_some.mpr (.inr ⟨hquiet pending hpending, hkept⟩)

theorem Owned.unawaited_of_none (h : t.Owned)
    (hgrant : t.grants index = none) : t.Unawaited index := by
  rintro pending hpending rfl
  obtain ⟨-, -, grant, hsome, -⟩ := h.awaited pending hpending
  rw [hgrant] at hsome
  cases hsome

theorem Owned.unlistened (h : t.Owned) {grant : Grant}
    (hgrant : t.grants index = some grant) (entry : Index) (post : Post)
    (hpost : t.posts entry = some post) : post.socket ≠ some index := by
  intro hsocket
  rw [h.apart index entry post hpost hsocket] at hgrant
  cases hgrant

theorem Owned.issue (h : t.Owned) : t.issue.Owned :=
  ⟨h.apart, h.single, h.clean, h.built, h.fits, h.awaited⟩

theorem owned_step {t' : Table} (h : t.Owned) (hstep : Step caller t t') : t'.Owned := by
  cases hstep with
  | take use hclean =>
    refine ⟨h.apart, h.single, ?_, h.built, h.fits, h.awaited⟩
    intro other hother
    rcases List.mem_append.mp hother with hold | hnew
    · exact h.clean other hold
    · rw [List.mem_singleton.mp hnew]
      exact hclean
  | rebuild index shape hfree hrx htx =>
    refine ⟨h.apart, h.single, h.clean, ?_, ?_, h.awaited⟩
    · intro other
      by_cases hother : other = index
      · subst hother
        simp
      · simpa [update_of_ne hother] using h.built other
    · intro other
      by_cases hother : other = index
      · subst hother
        simpa using ⟨hrx, htx⟩
      · simpa [update_of_ne hother] using h.fits other
  | arm entry index post hpost hidle hfree hshape hroom =>
    apply h.setPost entry _
    rintro new named ⟨⟩ hnamed
    obtain rfl := some.inj hnamed
    exact .inl hfree
  | disarm entry post hpost =>
    apply h.setPost entry _
    rintro new named ⟨⟩ hnamed
    cases hnamed
  | sweep entry post hpost hinactive hchildless => exact h.setPost entry none nofun
  | declare entry post hvacant hserial hholder hid hidle hvalid =>
    apply h.issue.setPost entry _
    rintro new named ⟨⟩ hnamed
    rw [hidle] at hnamed
    cases hnamed
  | withdraw entry post hpost hholder => exact h.setPost entry none nofun
  | retire entry post hpost hholder =>
    apply h.setPost entry _
    rintro new named ⟨⟩ hnamed
    cases hnamed
  | «open» index grant terms row hcaller hfree =>
    exact h.issue.setGrant index _ (fun _ => hfree.2) (h.unawaited_of_none hfree.1)
  | adopt entry index post grant hpost hsocket =>
    -- The listener lets go of the socket before the connection takes it.
    have hreleased : (t.setPost entry (some { post with socket := none })).Owned := by
      apply h.setPost entry _
      rintro new named ⟨⟩ hnamed
      cases hnamed
    have hvacant := h.apart index entry post hpost hsocket
    refine hreleased.issue.setGrant index (some grant) ?_ (h.unawaited_of_none hvacant)
    intro _ other new hnew hnamed
    rcases update_eq_some.mp hnew with ⟨-, hpost'⟩ | ⟨hne, hold⟩
    · obtain rfl := some.inj hpost'
      cases hnamed
    · exact hne (h.single index other entry new post hold hpost hnamed hsocket)
  | progress index grant phase shutdown hgrant hholder hquiet =>
    exact h.setGrant index _ (fun _ => h.unlistened hgrant) hquiet
  | drop index grant hgrant hholder hquiet =>
    exact h.setGrant index none (fun hne => absurd rfl hne) hquiet
  | begin pending grant hgrant hphase hstarter hnext hresolver =>
    refine ⟨h.apart, h.single, h.clean, h.built, h.fits, ?_⟩
    rintro other ⟨⟩
    exact ⟨hresolver, by omega, grant, hgrant, hstarter, .inr ⟨hphase, hnext⟩⟩
  | redial pending pending' grant hlookup hgrant hindex hstarter hnext hservice =>
    obtain ⟨hresolver, -, kept, hkept, hid, -⟩ := h.awaited pending hlookup
    obtain rfl := mem_unique hgrant hkept
    refine ⟨?_, h.single, h.clean, h.built, h.fits, ?_⟩
    · intro index entry post hpost hnamed
      change update t.grants _ _ index = none
      rw [update_of_ne, h.apart index entry post hpost hnamed]
      rintro rfl
      exact h.unlistened hgrant entry post hpost hnamed
    · rintro other ⟨⟩
      refine ⟨hresolver, hnext, { grant with phase := .connecting }, ?_, hid.trans hstarter.symm,
        .inl rfl⟩
      rw [hindex]
      exact update_self ..
  | forget => exact ⟨h.apart, h.single, h.clean, h.built, h.fits, nofun⟩
  | enable =>
    refine ⟨h.apart, h.single, h.clean, h.built, h.fits, fun pending hpending => ?_⟩
    exact ⟨rfl, (h.awaited pending hpending).2⟩
  | wipe hservice => exact ⟨nofun, nofun, h.clean, h.built, h.fits, nofun⟩

end Table

end SlimeOs.Tcp
