import SlimeOs.TcpIdentities

/-!
The budgets of the TCP engine. A connection is charged to the destination it was dialled for, or
counted among the children of the listener it was accepted from; a listener that is armed counts
its socket as the child to come. Both charges are recomputed when a socket is taken, and no other
step adds to them.

A holder's declared options are the same on each of its requests (`Op.Declared`), so all sockets
charged to one row have one size.
-/

namespace SlimeOs.Tcp

open FallibleCall Function List Network Option Engine
open Table (Step Steps)

def weight (shape : Nat × Nat) : Nat := shape.1 + shape.2

/-- `count` sockets of `each` bytes are within a limit, two budgets and a byte budget. -/
structure Within (limit timers depth bytes each count : Nat) : Prop where
  limit_le : count ≤ limit
  timers_le : count ≤ timers
  depth_le : count ≤ depth
  bytes_le : count * each ≤ bytes

variable {limit timers depth bytes each count storage backend epoch : Nat} {e : Engine}
  {entry index : Index} {row : Destination} {smoltcp : Smoltcp} {listener : Listener}

theorem Within.of_le (h : Within limit timers depth bytes each count) {fewer : Nat}
    (hle : fewer ≤ count) : Within limit timers depth bytes each fewer :=
  ⟨hle.trans h.limit_le, hle.trans h.timers_le, hle.trans h.depth_le,
    (Nat.mul_le_mul_right each hle).trans h.bytes_le⟩

theorem within_zero : Within limit timers depth bytes each 0 :=
  ⟨Nat.zero_le _, Nat.zero_le _, Nat.zero_le _, by simp⟩

/-- The engine's check does not wrap for the sizes a row may declare. -/
theorem within_of_affords {options : SocketOptions} (hvalid : options.Valid)
    (h : Affords limit timers depth bytes options.socketBytes count)
    (hcount : count ≤ socketCount + 1) :
    Within limit timers depth bytes (weight (sizes options)) count := by
  have hweight : weight (sizes options) ≤ 2 * maxBufferBytes := by
    obtain ⟨hrx, htx⟩ := hvalid
    simp only [validBufferBytes, Bool.and_eq_true, decide_eq_true_eq] at hrx htx
    unfold weight sizes
    omega
  have heach : options.socketBytes = weight (sizes options) := by
    unfold SocketOptions.socketBytes wrap32
    rw [Nat.mod_eq_of_lt]
    · rfl
    · exact Nat.lt_of_le_of_lt hweight (by decide)
  have hproduct : count * weight (sizes options) < 2 ^ 32 := by
    have hle := Nat.mul_le_mul hcount hweight
    exact Nat.lt_of_le_of_lt hle (by decide)
  refine ⟨h.limit_le, h.timers_le, h.depth_le, ?_⟩
  have hbytes := h.bytes_le
  unfold wrap32 at hbytes
  rw [heach, Nat.mod_eq_of_lt hproduct] at hbytes
  exact hbytes

theorem countP_update {α : Type} (f : Index → Option α) (index : Index) (new : Option α)
    (p : α → Bool) :
    ((List.finRange socketCount).countP fun i => (update f index new i).any p) +
        ((f index).any p).toNat =
      ((List.finRange socketCount).countP fun i => (f i).any p) + (new.any p).toNat := by
  have hmap := (nodup_finRange socketCount).map_update f index new
  rw [if_pos (mem_finRange index)] at hmap
  have hlt : idxOf index (finRange socketCount) < ((finRange socketCount).map f).length := by simp
  have hset := countP_set (p := Option.any p) (a := new) hlt
  have hle := boole_getElem_le_countP (p := Option.any p) hlt
  rw [← hmap, countP_map, countP_map] at hset
  rw [countP_map] at hle
  have hbool (b : Bool) : b.toNat = if b = true then 1 else 0 := by cases b <;> rfl
  rw [getElem_map, getElem_idxOf] at hset hle
  rw [hbool, hbool]
  change countP (fun i => (update f index new i).any p) _ = _ at hset
  unfold Function.comp at hset hle
  omega

namespace Table

theorem charged_setGrant (t : Table) (index : Index) (new : Option Grant) (row : Nat) :
    (t.setGrant index new).charged row +
        ((t.grants index).any fun grant => grant.destination == row).toNat =
      t.charged row + (new.any fun grant => grant.destination == row).toNat :=
  countP_update t.grants index new _

theorem children_setGrant (t : Table) (index : Index) (new : Option Grant) (parent : Nat) :
    (t.setGrant index new).children parent +
        ((t.grants index).any fun grant => grant.listener == some parent).toNat =
      t.children parent + (new.any fun grant => grant.listener == some parent).toNat :=
  countP_update t.grants index new _

/-- A row of the destinations with the sockets charged to it. -/
def RowWithin (row : Destination) (options : SocketOptions) (count : Nat) : Prop :=
  Within row.socketLimit row.timerBudget row.queueDepth row.byteBudget (weight (sizes options))
    count

def PostWithin (post : Post) (count : Nat) : Prop :=
  Within post.acceptedLimit post.timerBudget post.queueDepth post.byteBudget
    (weight (sizes post.options)) count

abbrev Declarations := Holder → { options : SocketOptions // options.Valid }

structure Funded (destinations : NetworkDestinations) (declared : Declarations) (t : Table) :
    Prop where
  shaped : ∀ index grant, t.grants index = some grant → t.shapes index = sizes grant.options
  armed : ∀ entry post index, t.posts entry = some post → post.socket = some index →
    t.shapes index = sizes post.options
  valid : ∀ entry post, t.posts entry = some post → post.options.Valid
  dialled : ∀ index grant, t.grants index = some grant → grant.listener = none →
    grant.options = (declared grant.holder).val ∧
      ∃ row, destinations.destination grant.destination = some row ∧
        row.holderIdentity = grant.holder
  accepted : ∀ index grant, t.grants index = some grant → grant.listener ≠ none →
    grant.destination = 2 ^ 64 - 1
  rows : ∀ index row, destinations.destination index = some row →
    RowWithin row (declared row.holderIdentity).val (t.charged index)
  listeners : ∀ entry post, t.posts entry = some post →
    PostWithin post (t.children post.id + post.socket.isSome.toNat)

variable {destinations : NetworkDestinations} {declared : Declarations} {t : Table}
  {caller : Option Caller}

/-- The caller is judged by these destinations and declares these options. -/
def Honest (destinations : NetworkDestinations) (declared : Declarations) (caller : Option Caller) :
    Prop :=
  ∀ terms, caller = some terms →
    terms.destinations = destinations ∧ terms.options = (declared terms.holder).val

section

variable (h : t.Funded destinations declared)
include h

theorem Funded.setPost (entry : Index) (post : Option Post)
    (hpost : ∀ new, post = some new → ∃ old active, t.posts entry = some old ∧
      new = { old with socket := none, active := active }) :
    (t.setPost entry post).Funded destinations declared := by
  refine ⟨h.shaped, ?_, forall_update ?_ fun j b _ => h.valid j b, h.dialled, h.accepted, h.rows,
    forall_update ?_ fun j b _ => h.listeners j b⟩
  · intro other new index hnew hnamed
    refine forall_update ?_ (fun j b _ hb => h.armed j b index hb) other new hnew hnamed
    intro new hsome hnamed
    obtain ⟨old, active, -, rfl⟩ := hpost new hsome
    cases hnamed
  · intro new hsome
    obtain ⟨old, active, hold, rfl⟩ := hpost new hsome
    exact h.valid entry old hold
  · intro new hsome
    obtain ⟨old, active, hold, rfl⟩ := hpost new hsome
    exact Within.of_le (h.listeners entry old hold) (Nat.le_add_right ..)

theorem Funded.setGrant (index : Index) (grant : Option Grant)
    (hgrant : ∀ new, grant = some new → ∃ old phase shutdown, t.grants index = some old ∧
      new = { old with phase := phase, shutdown := shutdown }) :
    (t.setGrant index grant).Funded destinations declared := by
  -- Neither count grows.
  have hcharged (row : Nat) : (t.setGrant index grant).charged row ≤ t.charged row := by
    have hcount := t.charged_setGrant index grant row
    rcases hnew : grant with _ | new
    · rw [hnew] at hcount
      simp only [any_none, Bool.toNat_false, Nat.add_zero] at hcount
      omega
    obtain ⟨old, phase, shutdown, hold, rfl⟩ := hgrant new hnew
    rw [hnew, hold] at hcount
    simp only [any_some] at hcount
    omega
  have hchildren (parent : Nat) : (t.setGrant index grant).children parent ≤ t.children parent := by
    have hcount := t.children_setGrant index grant parent
    rcases hnew : grant with _ | new
    · rw [hnew] at hcount
      simp only [any_none, Bool.toNat_false, Nat.add_zero] at hcount
      omega
    obtain ⟨old, phase, shutdown, hold, rfl⟩ := hgrant new hnew
    rw [hnew, hold] at hcount
    simp only [any_some] at hcount
    omega
  have hback : ∀ other new, (t.setGrant index grant).grants other = some new →
      ∃ old phase shutdown, t.grants other = some old ∧
        new = { old with phase := phase, shutdown := shutdown } := by
    intro other new hnew
    rcases update_eq_some.mp hnew with ⟨rfl, hsome⟩ | ⟨-, hold⟩
    · exact hgrant new hsome
    · exact ⟨new, new.phase, new.shutdown, hold, rfl⟩
  refine ⟨?_, h.armed, h.valid, ?_, ?_, ?_, ?_⟩
  · intro other new hnew
    obtain ⟨old, phase, shutdown, hold, rfl⟩ := hback other new hnew
    exact h.shaped other old hold
  · intro other new hnew hlistener
    obtain ⟨old, phase, shutdown, hold, rfl⟩ := hback other new hnew
    exact h.dialled other old hold hlistener
  · intro other new hnew hlistener
    obtain ⟨old, phase, shutdown, hold, rfl⟩ := hback other new hnew
    exact h.accepted other old hold hlistener
  · intro row destination hrow
    exact (h.rows row destination hrow).of_le (hcharged row)
  · intro entry post hpost
    exact (h.listeners entry post hpost).of_le (Nat.add_le_add_right (hchildren post.id) _)

theorem Funded.arm {post : Post}
    (hpost : t.posts entry = some post) (hshape : t.shapes index = sizes post.options)
    (hroom : post.Affords (t.children post.id + 1)) :
    (t.setPost entry (some { post with socket := some index })).Funded destinations declared := by
  refine ⟨h.shaped, ?_, forall_update_some (h.valid entry post hpost) fun j b _ => h.valid j b,
    h.dialled, h.accepted, h.rows, forall_update_some ?_ fun j b _ => h.listeners j b⟩
  · intro other new named hnew hnamed
    rcases update_eq_some.mp hnew with ⟨rfl, hsome⟩ | ⟨-, hold⟩
    · obtain rfl := some.inj hsome
      obtain rfl := some.inj hnamed
      exact hshape
    · exact h.armed other new named hold hnamed
  · exact within_of_affords (h.valid entry post hpost) hroom
      (Nat.succ_le_succ (countP_le_length.trans (by simp)))

end

theorem Named.children_nextId (h : t.Named) (hserial : t.serial + 1 < 2 ^ 32) :
    t.children t.nextId = 0 := by
  unfold children
  rw [countP_eq_zero]
  intro index _ hany
  obtain ⟨grant, hgrant, hlistener⟩ := (any_eq_true _ _).mp hany
  have hbound := h.parent_bound index grant _ hgrant (by simpa using hlistener)
  rw [h.nextId_eq hserial] at hbound
  omega

theorem Funded.declare (h : t.Funded destinations declared) (hnamed : t.Named) (entry : Index)
    (post : Post) (hserial : t.serial + 1 < 2 ^ 32) (hid : post.id = t.nextId)
    (hidle : post.socket = none) (hvalid : post.options.Valid) :
    (t.issue.setPost entry (some post)).Funded destinations declared := by
  refine ⟨h.shaped, ?_, forall_update_some hvalid fun j b _ => h.valid j b, h.dialled, h.accepted,
    h.rows, forall_update_some ?_ fun j b _ => h.listeners j b⟩
  · intro other new index hnew hsocket
    rcases update_eq_some.mp hnew with ⟨rfl, hsome⟩ | ⟨-, hold⟩
    · obtain rfl := some.inj hsome
      rw [hidle] at hsocket
      cases hsocket
    · exact h.armed other new index hold hsocket
  · have hnone : t.children post.id + post.socket.isSome.toNat = 0 := by
      rw [hid, hidle, hnamed.children_nextId hserial]
      rfl
    change PostWithin post (t.children post.id + post.socket.isSome.toNat)
    rw [hnone]
    exact within_zero

theorem Funded.open (h : t.Funded destinations declared) {grant : Grant}
    (hfree : t.grants index = none) (hlistener : grant.listener = none)
    (hoptions : grant.options = (declared grant.holder).val)
    (hshape : t.shapes index = sizes grant.options)
    (hrow : destinations.destination grant.destination = some row)
    (howner : row.holderIdentity = grant.holder)
    (hroom : RowAffords row grant.options (t.charged grant.destination + 1)) :
    (t.setGrant index (some grant)).Funded destinations declared := by
  have hchildren (parent : Nat) : (t.setGrant index (some grant)).children parent =
      t.children parent := by
    have hcount := t.children_setGrant index (some grant) parent
    rw [hfree] at hcount
    simpa [hlistener] using hcount
  refine ⟨forall_update_some hshape fun j b _ => h.shaped j b, h.armed, h.valid,
    forall_update_some (fun _ => ⟨hoptions, row, hrow, howner⟩) fun j b _ => h.dialled j b,
    forall_update_some (absurd hlistener) fun j b _ => h.accepted j b, ?_, ?_⟩
  · intro other destination hother
    have hcount := t.charged_setGrant index (some grant) other
    rw [hfree] at hcount
    simp only [any_none, Bool.toNat_false, add_zero, any_some] at hcount
    rw [hcount]
    by_cases hsame : grant.destination = other
    · subst hsame
      obtain rfl := mem_unique hrow hother
      rw [howner, ← hoptions]
      simp only [BEq.rfl, Bool.toNat_true]
      refine within_of_affords ?_ hroom (Nat.succ_le_succ (countP_le_length.trans (by simp)))
      rw [hoptions]
      exact (declared grant.holder).property
    · rw [beq_eq_false_iff_ne.mpr hsame]
      exact h.rows other destination hother
  · intro entry post hpost
    rw [hchildren]
    exact h.listeners entry post hpost

theorem destination_unbound (destinations : NetworkDestinations) :
    destinations.destination (2 ^ 64 - 1) = none := by
  have hbound := destinations.bound
  unfold maxDestinations at hbound
  exact getElem?_eq_none (by omega)

theorem Funded.adopt (h : t.Funded destinations declared) (howned : t.Owned) (hnamed : t.Named)
    {post : Post} {grant : Grant} (hpost : t.posts entry = some post)
    (hsocket : post.socket = some index) (hlistener : grant.listener = some post.id)
    (hoptions : grant.options = post.options) (hdestination : grant.destination = 2 ^ 64 - 1) :
    ((t.setGrant index (some grant)).setPost entry (some { post with socket := none })).Funded
      destinations declared := by
  have hvacant := howned.apart index entry post hpost hsocket
  have hchildren (parent : Nat) : (t.setGrant index (some grant)).children parent =
      t.children parent + (post.id == parent).toNat := by
    have hcount := t.children_setGrant index (some grant) parent
    rw [hvacant] at hcount
    simpa [hlistener] using hcount
  refine ⟨forall_update_some ?_ fun j b _ => h.shaped j b, ?_,
    forall_update_some (h.valid entry post hpost) fun j b _ => h.valid j b,
    forall_update_some ?_ fun j b _ => h.dialled j b,
    forall_update_some (fun _ => hdestination) fun j b _ => h.accepted j b, ?_, ?_⟩
  · rw [hoptions]
    exact h.armed entry post index hpost hsocket
  · intro other new named hnew hnamed
    rcases update_eq_some.mp hnew with ⟨rfl, hsome⟩ | ⟨-, hold⟩
    · obtain rfl := some.inj hsome
      cases hnamed
    · exact h.armed other new named hold hnamed
  · intro hdialled
    rw [hlistener] at hdialled
    cases hdialled
  · intro row destination hrow
    have hcount := t.charged_setGrant index (some grant) row
    have hne : grant.destination ≠ row := by
      rintro rfl
      rw [hdestination, destination_unbound] at hrow
      cases hrow
    rw [hvacant] at hcount
    simp only [any_none, Bool.toNat_false, add_zero, any_some,
      beq_eq_false_iff_ne.mpr hne] at hcount
    change RowWithin destination _ ((t.setGrant index (some grant)).charged row)
    rw [hcount]
    exact h.rows row destination hrow
  · intro other new hnew
    change PostWithin new ((t.setGrant index (some grant)).children new.id + _)
    rw [hchildren]
    rcases update_eq_some.mp hnew with ⟨rfl, hsome⟩ | ⟨hne, hold⟩
    · obtain rfl := some.inj hsome
      have hwithin := h.listeners other post hpost
      rw [hsocket] at hwithin
      simp only [BEq.rfl, Bool.toNat_true, isSome_none, Bool.toNat_false, add_zero]
      exact hwithin
    · have hids : post.id ≠ new.id := fun heq =>
        hne (hnamed.post_unique entry other post new hpost hold heq).symm
      simpa [beq_eq_false_iff_ne.mpr hids] using h.listeners other new hold

theorem Funded.issue (h : t.Funded destinations declared) : t.issue.Funded destinations declared :=
  ⟨h.shaped, h.armed, h.valid, h.dialled, h.accepted, h.rows, h.listeners⟩

theorem funded_step {t' : Table} (howned : t.Owned) (hnamed : t.Named)
    (h : t.Funded destinations declared) (hcaller : Honest destinations declared caller)
    (hstep : Step caller t t') : t'.Funded destinations declared := by
  cases hstep with
  | rebuild index shape hfree =>
    -- Nobody owns the socket that is rebuilt.
    refine ⟨?_, ?_, h.valid, h.dialled, h.accepted, h.rows, h.listeners⟩
    · intro other grant hgrant
      have hne : other ≠ index := by
        rintro rfl
        rw [hfree.1] at hgrant
        cases hgrant
      simpa [update_of_ne hne] using h.shaped other grant hgrant
    · intro entry post other hpost hsocket
      have hne : other ≠ index := by
        rintro rfl
        exact hfree.2 entry post hpost hsocket
      simpa [update_of_ne hne] using h.armed entry post other hpost hsocket
  | arm entry index post hpost hidle hfree hshape hroom => exact h.arm hpost hshape hroom
  | disarm entry post hpost =>
    apply h.setPost entry _
    rintro new ⟨⟩
    exact ⟨post, post.active, hpost, rfl⟩
  | sweep entry post hpost => exact h.setPost entry none nofun
  | declare entry post hvacant hserial hholder hid hidle hvalid =>
    exact h.declare hnamed entry post hserial hid hidle hvalid
  | withdraw entry post hpost => exact h.setPost entry none nofun
  | retire entry post hpost =>
    apply h.setPost entry _
    rintro new ⟨⟩
    exact ⟨post, false, hpost, rfl⟩
  | «open» index grant terms row hterms hfree hserial hid hholder hlistener hoptions hshape hrow
      howner hroom =>
      obtain ⟨rfl, hdeclared⟩ := hcaller terms hterms
      refine h.issue.open hfree.1 hlistener ?_ hshape hrow (howner.trans hholder.symm) hroom
      rw [hoptions, hdeclared, hholder]
  | adopt entry index post grant hpost hsocket hholder howner hserial hid hlistener hoptions
      hdestination =>
      exact (h.adopt howned hnamed hpost hsocket hlistener hoptions hdestination).issue
  | progress index grant phase shutdown hgrant =>
    apply h.setGrant index _
    rintro new ⟨⟩
    exact ⟨grant, phase, shutdown, hgrant, rfl⟩
  | drop index grant hgrant => exact h.setGrant index none nofun
  | redial pending pending' grant hlookup hgrant =>
    have hmoved := h.setGrant pending.index (some { grant with phase := .connecting }) (by
      rintro new ⟨⟩
      exact ⟨grant, .connecting, grant.shutdown, hgrant, rfl⟩)
    exact ⟨hmoved.shaped, hmoved.armed, hmoved.valid, hmoved.dialled, hmoved.accepted,
      hmoved.rows, hmoved.listeners⟩
  | wipe =>
    refine ⟨nofun, nofun, nofun, nofun, nofun, ?_, nofun⟩
    intro row destination hrow
    exact within_zero
  | take | begin | forget | enable =>
    exact ⟨h.shaped, h.armed, h.valid, h.dialled, h.accepted, h.rows, h.listeners⟩

theorem funded_steps {t' : Table} (howned : t.Owned) (hnamed : t.Named)
    (h : t.Funded destinations declared) (hcaller : Honest destinations declared caller)
    (hsteps : Steps caller t t') : t'.Funded destinations declared := by
  have hkept : t'.Owned ∧ t'.Named ∧ t'.Funded destinations declared := by
    induction hsteps with
    | refl => exact ⟨howned, hnamed, h⟩
    | tail _ hstep ih =>
      obtain ⟨howned, hnamed, hfunded⟩ := ih
      exact ⟨owned_step howned hstep, named_step hnamed hstep,
        funded_step howned hnamed hfunded hcaller hstep⟩
  exact hkept.2.2

end Table

open Table (Declarations Honest Funded RowWithin PostWithin)

/-- Requests are judged by one table of destinations, and each holder's options are the declared
ones on each of its requests. -/
def Op.Declared (destinations : NetworkDestinations) (declared : Declarations) : Op → Prop
  | .handle _ judged holder _ _ _ =>
    judged = destinations ∧ (declared holder).val = defaultOptions
  | .handleLocal _ judged applications holder _ _ _ =>
    judged = destinations ∧
      ∀ policy, byHolder applications holder = some policy →
        policy.options = (declared holder).val
  | _ => True

variable {destinations : NetworkDestinations} {declared : Declarations}

theorem Op.Declared.honest {op : Op} (h : op.Declared destinations declared) :
    ∃ caller, op.By caller ∧ Honest destinations declared caller := by
  have hhonest (holder : Holder) : Honest destinations declared
      (some ⟨holder, destinations, (declared holder).val, (declared holder).property⟩) := by
    rintro - ⟨⟩
    exact ⟨rfl, rfl⟩
  cases op with
  | handle stack judged holder =>
    obtain ⟨rfl, hoptions⟩ := h
    exact ⟨_, ⟨_, rfl, rfl, rfl, hoptions⟩, hhonest holder⟩
  | handleLocal stack judged applications holder =>
    obtain ⟨rfl, hoptions⟩ := h
    exact ⟨_, ⟨_, rfl, rfl, rfl, hoptions⟩, hhonest holder⟩
  | listen stack holder => exact ⟨_, ⟨_, rfl, rfl⟩, hhonest holder⟩
  | accept stack holder => exact ⟨_, ⟨_, rfl, rfl⟩, hhonest holder⟩
  | pollPending holder => exact ⟨_, ⟨_, rfl, rfl⟩, hhonest holder⟩
  | releaseHolder holder => exact ⟨_, ⟨_, rfl, rfl⟩, hhonest holder⟩
  | advanceDns | tick | resetAll | permitEgress | enableDns | network => exact ⟨none, rfl, nofun⟩

theorem funded_new {rx tx : Nat} (h : new smoltcp storage rx tx epoch backend = .ok e) :
    e.table.Funded destinations declared := by
  unfold new at h
  split at h
  · cases h
  obtain rfl := Except.ok.inj h
  refine ⟨nofun, nofun, nofun, nofun, nofun, ?_, nofun⟩
  intro row destination hrow
  exact within_zero

theorem funded_run {rx tx : Nat} (hnew : new smoltcp storage rx tx epoch backend = .ok e)
    {ops : List Op} (hops : ∀ op ∈ ops, op.Declared destinations declared) :
    (run step e ops).table.Named ∧ (run step e ops).table.Funded destinations declared := by
  have hkept : (run step e ops).table.Owned ∧ (run step e ops).table.Named ∧
      (run step e ops).table.Funded destinations declared := by
    refine run_invariant_of step
      (fun e => e.table.Owned ∧ e.table.Named ∧ e.table.Funded destinations declared) _ ?_ e ops
      ⟨owned_new hnew, (named_new hnew).1, funded_new hnew⟩ hops
    rintro s op ⟨howned, hnamed, hfunded⟩ hop
    obtain ⟨caller, hby, hhonest⟩ := hop.honest
    exact ⟨owned_step howned op, (named_step howned hnamed op).1,
      Table.funded_steps howned hnamed hfunded hhonest (step_steps hby howned)⟩
  exact hkept.2

def Engine.reservedBytes (e : Engine) (test : Connection → Bool) : Nat :=
  ((List.finRange socketCount).map fun index =>
    if (e.connections index).any test then e.socketBytes index else 0).sum

def Engine.armedBytes (e : Engine) (listener : Listener) : Nat :=
  listener.socket.elim 0 e.socketBytes

structure WithinBudgets (destinations : NetworkDestinations) (e : Engine) : Prop where
  rows : ∀ index row, destinations.destination index = some row →
    e.charged index ≤ row.socketLimit ∧ e.charged index ≤ row.queueDepth ∧
      e.charged index ≤ row.timerBudget ∧
      e.reservedBytes (fun connection => connection.destination == index) ≤ row.byteBudget
  listeners : ∀ entry listener, e.listeners entry = some listener →
    e.children listener.id + listener.socket.isSome.toNat ≤ listener.acceptedLimit ∧
      e.children listener.id + listener.socket.isSome.toNat ≤ listener.timerBudget ∧
      e.children listener.id + listener.socket.isSome.toNat ≤ listener.queueDepth ∧
      e.reservedBytes (fun connection => connection.listener == some listener.id) +
        e.armedBytes listener ≤ listener.byteBudget

theorem reservedBytes_eq {test : Connection → Bool}
    (h : ∀ index connection, e.connections index = some connection → test connection = true →
      e.socketBytes index = each) :
    e.reservedBytes test =
      ((List.finRange socketCount).countP fun index => (e.connections index).any test) * each := by
  unfold reservedBytes
  generalize finRange socketCount = indices
  induction indices with
  | nil => simp
  | cons index indices ih =>
    rw [map_cons, sum_cons, countP_cons, ih, add_mul, add_comm]
    by_cases hany : (e.connections index).any test = true
    · obtain ⟨connection, hconnection, htest⟩ := (any_eq_true _ _).mp hany
      rw [if_pos hany, if_pos hany, h index connection hconnection htest, one_mul]
    · rw [if_neg hany, if_neg hany, Nat.zero_mul]

theorem reservedBytes_charged (h : e.table.Funded destinations declared) {index : Nat}
    (hrow : destinations.destination index = some row) :
    e.reservedBytes (fun connection => connection.destination == index) =
      e.charged index * weight (sizes (declared row.holderIdentity).val) := by
  apply reservedBytes_eq
  intro slot connection hconnection htest
  have hgrant := grants_of_connection hconnection
  have hdestination : connection.destination = index := by simpa using htest
  -- An accepted connection is charged to no row.
  have hdialled : connection.listener = none := by
    by_contra haccepted
    have hunbound := h.accepted slot _ hgrant haccepted
    rw [← hdestination, show connection.destination = 2 ^ 64 - 1 from hunbound,
      Table.destination_unbound] at hrow
    cases hrow
  obtain ⟨hoptions, row', hrow', howner⟩ := h.dialled slot _ hgrant hdialled
  obtain rfl : row = row' := by
    rw [show connection.toGrant.destination = index from hdestination, hrow] at hrow'
    exact some.inj hrow'
  change weight (e.table.shapes slot) = _
  rw [h.shaped slot _ hgrant, hoptions, howner]

theorem reservedBytes_children (hnamed : e.table.Named) (h : e.table.Funded destinations declared)
    (hlistener : e.listeners entry = some listener) :
    e.reservedBytes (fun connection => connection.listener == some listener.id) =
      e.children listener.id * weight (sizes listener.options) := by
  apply reservedBytes_eq
  intro slot connection hconnection htest
  have hgrant := grants_of_connection hconnection
  have hpost := posts_of_listener hlistener
  obtain ⟨-, hoptions⟩ := hnamed.parent slot entry _ _ hgrant hpost (by simpa using htest)
  change weight (e.table.shapes slot) = _
  rw [h.shaped slot _ hgrant, hoptions]

theorem armedBytes_eq (h : e.table.Funded destinations declared)
    (hlistener : e.listeners entry = some listener) :
    e.armedBytes listener = listener.socket.isSome.toNat * weight (sizes listener.options) := by
  unfold armedBytes
  rcases hsocket : listener.socket with _ | slot
  · simp
  have hshape := h.armed entry _ slot (posts_of_listener hlistener) hsocket
  change weight (e.table.shapes slot) = _
  rw [hshape]
  simp

/-- Along every run whose holders declare the same options on each request, every destination row
and every listener is within its budgets. -/
theorem budgets_never_exceeded {storage rx tx epoch backend : Nat} {e : Engine}
    (hnew : Engine.new smoltcp storage rx tx epoch backend = .ok e) {ops : List Op}
    (hops : ∀ op ∈ ops, op.Declared destinations declared) :
    WithinBudgets destinations (run step e ops) := by
  obtain ⟨hnamed, hfunded⟩ := funded_run hnew hops
  constructor
  · intro index row hrow
    have hwithin := hfunded.rows index row hrow
    rw [Engine.charged_table] at hwithin
    refine ⟨hwithin.limit_le, hwithin.depth_le, hwithin.timers_le, ?_⟩
    rw [reservedBytes_charged hfunded hrow]
    exact hwithin.bytes_le
  · intro entry listener hlistener
    have hwithin := hfunded.listeners entry _ (Engine.posts_of_listener hlistener)
    rw [Engine.children_table] at hwithin
    refine ⟨hwithin.limit_le, hwithin.timers_le, hwithin.depth_le, ?_⟩
    rw [reservedBytes_children hnamed hfunded hlistener, armedBytes_eq hfunded hlistener,
      ← add_mul]
    exact hwithin.bytes_le

def dialledRow : Destination where
  holderIdentity := clientHolder
  transport := .tcp
  address := .ipv4 loopbackAddress
  port := 8080
  rights := rightConnect
  queueDepth := 1
  byteBudget := 4096
  timerBudget := 1
  retryLimit := 1
  socketLimit := 1
  dnsRecordLimit := 0

def dialledTable : NetworkDestinations := ⟨[dialledRow], by decide⟩

def dialling : List Op :=
  [.listen quietStack serverHolder serverRow listenRequest 0,
    .handle quietStack dialledTable clientHolder { listenRequest with op := opConnect } [] 0,
    .handle quietStack dialledTable clientHolder { listenRequest with op := opConnect } [] 0]

theorem budgets_never_exceeded_when_dialling :
    ∃ e, Engine.new plainSmoltcp 4 8192 8192 1 1 = .ok e ∧ (run step e dialling).charged 0 = 1 ∧
      (run step e dialling).reservedBytes (fun connection => connection.destination == 0) = 4096 ∧
      WithinBudgets dialledTable (run step e dialling) := by
  refine ⟨_, rfl, by decide +kernel, by decide +kernel, ?_⟩
  refine @budgets_never_exceeded _ dialledTable (fun _ => ⟨defaultOptions, defaultOptions_valid⟩)
    4 8192 8192 1 1 _ rfl dialling ?_
  intro op hop
  simp only [dialling, mem_cons, not_mem_nil, or_false] at hop
  rcases hop with rfl | rfl | rfl
  · trivial
  · exact ⟨rfl, rfl⟩
  · exact ⟨rfl, rfl⟩

end SlimeOs.Tcp
