import SlimeOs.PrivateMemoryPlan

/-!
The private-memory ledger: admission and the calls that move resources between
its pools. Each call is written as the source performs it, its checks and its
field writes in the source's order, so that what a failed call leaves behind is
a question the model can answer.
-/

namespace SlimeOs.PrivateMemoryLedger

open CheckedWord FallibleCall FallibleCall.Outcome PrivateMemoryPlan PrivateMemoryPolicy
  PrivateMemoryResources

def pagesPerLeafTable : UInt64 := 512

structure Member where
  epoch : UInt64
  live : Bool
  quarantined : Bool
  pages : UInt64
  heldPayloadPages : UInt64
  guaranteePages : UInt64
  guaranteed : Resources
  elastic : Resources
deriving DecidableEq

def Member.default : Member :=
  { epoch := 0
    live := false
    quarantined := false
    pages := 0
    heldPayloadPages := 0
    guaranteePages := 0
    guaranteed := Resources.zero
    elastic := Resources.zero }

structure Incarnation where
  subject : Nat
  epoch : UInt64
deriving DecidableEq

structure Binding where
  token : Incarnation
  maximumPages : UInt64
deriving DecidableEq

structure Pending where
  member : Incarnation
  pages : UInt64
  guaranteePages : UInt64
  guaranteed : Resources
  elastic : Resources
deriving DecidableEq

structure Ledger where
  policy : Policy
  free : Resources
  rootOwned : Resources
  systemOwned : Resources
  operationalSpent : Resources
  rootPending : Option Resources
  poolPages : UInt64
  guaranteeTotal : Vector Resources maxEntitlements
  guaranteeFree : Vector Resources maxEntitlements
  members : Vector Member maxSubjects
  pending : Option Pending
deriving DecidableEq

abbrev LedgerCall := Call Ledger Error

namespace Ledger

/-- One guarantee of the admission loop, which carries what is left of the
available tuple and the totals admitted so far. -/
def admitGuarantee (policy : Policy) (carried : Resources × Vector Resources maxEntitlements)
    (entry : Resources × Nat) :
    Outcome Error (Resources × Vector Resources maxEntitlements) := do
  let resources := entry.1
  let entitlement ← unwrap (policy.entitlement entry.2)
  let bytes ← okOr (checkedMul entitlement.guaranteePages pageBytes) .overflow
  rejectIf
    (decide (resources.bytes < bytes) || decide (resources.slots < entitlement.guaranteePages) ||
      decide (resources.descriptors < entitlement.guaranteePages) ||
      (entitlement.guaranteePages != 0 && resources.extents == 0) ||
      decide (resources.tables < entitlement.guaranteePages) ||
      (entitlement.guaranteePages == 0 && resources != Resources.zero))
    .guarantee
  let free ← carried.1.subtract resources
  if h : entry.2 < maxEntitlements then
    pure (free, carried.2.set entry.2 resources)
  else
    .error .panicked

/-- The source's `admit`. -/
def admission (policy : Policy) (instances : List Instance) (available : Resources)
    (guarantees : List Resources) : Outcome Error Ledger := do
  mapErr (policy.validateInstances instances) Error.denied
  rejectIf (guarantees.length != policy.entitlementCount) .guarantee
  let free ← available.subtract policy.reserve
  let poolPages := wordMin (free.bytes / pageBytes) maxPages
  let (free, total) ← guarantees.zipIdx.foldlM (admitGuarantee policy)
    (free, Vector.replicate maxEntitlements Resources.zero)
  pure
    { policy := policy
      free := free
      rootOwned := Resources.zero
      systemOwned := Resources.zero
      operationalSpent := Resources.zero
      rootPending := none
      poolPages := poolPages
      guaranteeTotal := total
      guaranteeFree := total
      members := Vector.replicate maxSubjects Member.default
      pending := none }

def member (s : Ledger) (token : Incarnation) : Outcome Error Member :=
  okOr
    (s.members[token.subject]?.filter fun member => member.live && member.epoch == token.epoch)
    .incarnation

def entitlement (s : Ledger) (token : Incarnation) : Outcome Error Nat := do
  let subject ← unwrap (s.policy.subject token.subject)
  unwrap (s.policy.entitlementIndex subject.entitlement)

/-- Cleanup retries do not clear quarantine. -/
def ensureGrowable (s : Ledger) (token : Incarnation) : Outcome Error Unit := do
  let member ← s.member token
  rejectIf member.quarantined .cleanup

def pages (s : Ledger) (token : Incarnation) : Outcome Error UInt64 := do
  let member ← s.member token
  pure member.pages

def guaranteedHeld (s : Ledger) (token : Incarnation) : Outcome Error Resources := do
  let member ← s.member token
  pure member.guaranteed

def entitlementOf (s : Ledger) (token : Incarnation) : Outcome Error Nat := do
  let _ ← s.member token
  s.entitlement token

def pageLimit (s : Ledger) (token : Incarnation) : Outcome Error UInt64 := do
  let subject ← unwrap (s.policy.subject token.subject)
  pure (if subject.maximumMode == fixed then subject.maximumPages else s.poolPages)

/-- Common refunds repay spent operational reserve before they become free:
the new free pool and the new operational debt. -/
def refundCommon (s : Ledger) (resources : Resources) :
    Outcome Error (Resources × Resources) := do
  let repaid := resources.minimum s.operationalSpent
  let rest ← resources.subtract repaid
  let free ← s.free.checkedAdd rest
  let operationalSpent ← s.operationalSpent.subtract repaid
  pure (free, operationalSpent)

def remainingOperationalReserve (s : Ledger) : Outcome Error Resources :=
  match s.policy.reserve.subtract s.operationalSpent with
  | .ok remaining => .ok remaining
  | .error _ => .error .panicked

def holdCommon (held resources : Resources) : Outcome Error Resources :=
  match held.checkedAdd resources with
  | .ok held => .ok held
  | .error _ => .error .panicked

def commonHeld (s : Ledger) : Outcome Error Resources :=
  (s.members.toList.map (fun member => member.elastic) ++
    s.pending.toList.map (fun pending => pending.elastic)).foldlM holdCommon Resources.zero

/-- Whether the subject at `position` belongs to the entitlement. -/
def inCohort (s : Ledger) (entitlement : Entitlement) (position : Nat) : Bool :=
  match s.policy.subject position with
  | some subject => subject.entitlement == entitlement.identity
  | none => false

def redeemableGuarantee (s : Ledger) (token : Incarnation) : Outcome Error UInt64 := do
  let _ ← s.member token
  let index ← s.entitlement token
  let entitlement ← okOr (s.policy.entitlement index) .denied
  let redeemed := (((List.range s.policy.subjectCount).filter (s.inCohort entitlement)).map
    fun position => (s.members[position]?.getD Member.default).guaranteePages).foldl (· + ·) 0
  pure (saturatingSub entitlement.guaranteePages redeemed)

def modifyMember (position : Nat) (f : Member → Member) : LedgerCall Unit := fun s =>
  if h : position < maxSubjects then
    (.ok (), { s with members := s.members.set position (f s.members[position]) })
  else
    (.error .panicked, s)

def setGuaranteeFree (index : Nat) (resources : Resources) : LedgerCall Unit := fun s =>
  if h : index < maxEntitlements then
    (.ok (), { s with guaranteeFree := s.guaranteeFree.set index resources })
  else
    (.error .panicked, s)

def retainUnbegun (token : Incarnation) (resources : Resources) : LedgerCall Unit := do
  let s ← Call.read
  Call.rejectIf s.pending.isSome .transaction
  let old ← Call.lift (s.member token)
  Call.rejectIf old.quarantined .cleanup
  let free ← Call.lift (s.free.subtract resources)
  let elastic ← Call.lift (old.elastic.checkedAdd resources)
  Call.modify fun s => { s with free := free }
  modifyMember token.subject fun member => { member with elastic := elastic }
  modifyMember token.subject fun member => { member with quarantined := true }

def reconcileOwnership (root system : Resources) : LedgerCall Unit := do
  let s ← Call.read
  Call.rejectIf (s.rootPending.isSome || s.pending.isSome) .transaction
  let _ ← Call.lift (root.subtract s.rootOwned)
  let reserve := s.policy.reserve
  let withRoot ← Call.lift (s.free.checkedAdd s.rootOwned)
  let withSystem ← Call.lift (withRoot.checkedAdd s.systemOwned)
  let unspent ← Call.lift (reserve.subtract s.operationalSpent)
  let total ← Call.lift (withSystem.checkedAdd unspent)
  let afterRoot ← Call.lift (total.subtract root)
  let left ← Call.lift (afterRoot.subtract system)
  let remaining := reserve.minimum left
  let free ← Call.lift (left.subtract remaining)
  let operationalSpent ← Call.lift (reserve.subtract remaining)
  Call.modify fun s => { s with free := free }
  Call.modify fun s => { s with operationalSpent := operationalSpent }
  Call.modify fun s => { s with rootOwned := root }
  Call.modify fun s => { s with systemOwned := system }

def reconcileSystem (resources : Resources) : LedgerCall Unit := do
  let s ← Call.read
  reconcileOwnership s.rootOwned resources

def reserveRoot (resources : Resources) : LedgerCall Unit := do
  let s ← Call.read
  Call.rejectIf s.rootPending.isSome .transaction
  let free ← Call.lift (s.free.subtract resources)
  let _ ← Call.lift (s.rootOwned.checkedAdd resources)
  Call.modify fun s => { s with free := free }
  Call.modify fun s => { s with rootPending := some resources }

def settleRoot (used : Resources) : LedgerCall Unit := do
  let s ← Call.read
  let reserved ← Call.lift (okOr s.rootPending .transaction)
  let unused ← Call.lift (reserved.subtract used)
  let rootOwned ← Call.lift (s.rootOwned.checkedAdd used)
  let (free, operationalSpent) ← Call.lift (s.refundCommon unused)
  Call.modify fun s => { s with rootOwned := rootOwned }
  Call.modify fun s => { s with free := free }
  Call.modify fun s => { s with operationalSpent := operationalSpent }
  Call.modify fun s => { s with rootPending := none }

def bindWithMaximum (identity : Identity) : LedgerCall Binding := do
  let s ← Call.read
  let index ← Call.lift (okOr (s.policy.subjectIndex identity) .denied)
  let subject ← Call.lift (okOr (s.policy.subject index) .denied)
  let maximumPages := if subject.maximumMode == fixed then subject.maximumPages
    else s.poolPages
  let member ← Call.lift (unwrap s.members[index]?)
  Call.rejectIf member.live .incarnation
  let epoch ← Call.lift (okOr (checkedAdd member.epoch 1) .overflow)
  modifyMember index fun member => { member with epoch := epoch }
  modifyMember index fun member => { member with live := true }
  pure ⟨⟨index, epoch⟩, maximumPages⟩

def bind (subject : Identity) : LedgerCall Incarnation := do
  let binding ← bindWithMaximum subject
  pure binding.token

def quarantine (token : Incarnation) : LedgerCall Unit := do
  let s ← Call.read
  let _ ← Call.lift (s.member token)
  modifyMember token.subject fun member => { member with quarantined := true }

/-- One position of the loop in `begin`: the pages held and the guarantee pages
redeemed by the members of the entitlement. -/
def addCohortMember (s : Ledger) (entitlement : Entitlement) (carried : UInt64 × UInt64)
    (position : Nat) : Outcome Error (UInt64 × UInt64) := do
  let subject ← unwrap (s.policy.subject position)
  if subject.entitlement = entitlement.identity then
    let member ← unwrap s.members[position]?
    let held ← okOr (checkedAdd carried.1 member.pages) .overflow
    let total ← okOr (checkedAdd held member.heldPayloadPages) .overflow
    let redeemed ← okOr (checkedAdd carried.2 member.guaranteePages) .overflow
    pure (total, redeemed)
  else
    pure carried

/-- What a transaction draws from its entitlement: the certified amount, or
without a witness the per-page share that is still free. -/
def redeem (s : Ledger) (index : Nat) (entitlement : Entitlement) (redeemed pages : UInt64)
    (plan : Plan) : Outcome Error (UInt64 × Resources) := do
  let redeemable := saturatingSub entitlement.guaranteePages redeemed
  if plan.guaranteed = Resources.zero then
    let pages := wordMin pages redeemable
    let total ← unwrap s.guaranteeTotal[index]?
    let free ← unwrap s.guaranteeFree[index]?
    pure (pages, (plan.resources.minimum
      (total.pageShare pages entitlement.guaranteePages)).minimum free)
  else
    rejectIf
      (decide (pages < plan.guaranteePages) || decide (redeemable < plan.guaranteePages))
      .guarantee
    pure (plan.guaranteePages, plan.guaranteed)

def begin (token : Incarnation) (pages : UInt64) (plan : Plan) : LedgerCall Unit := do
  let s ← Call.read
  Call.rejectIf s.pending.isSome .transaction
  let member ← Call.lift (s.member token)
  Call.rejectIf member.quarantined .cleanup
  let index ← Call.lift (s.entitlement token)
  let entitlement ← Call.lift (unwrap (s.policy.entitlement index))
  let held ← Call.lift (okOr (checkedAdd member.pages member.heldPayloadPages) .overflow)
  let requested ← Call.lift (okOr (checkedAdd held pages) .overflow)
  let subjectLimit ← Call.lift (s.pageLimit token)
  let entitlementLimit := if entitlement.maximumMode == fixed then entitlement.maximumPages
    else s.poolPages
  let (total, redeemed) ← Call.lift
    ((List.range s.policy.subjectCount).foldlM (s.addCohortMember entitlement) (pages, 0))
  Call.rejectIf (decide (subjectLimit < requested) || decide (entitlementLimit < total)) .maximum
  let payload ← Call.lift (okOr (checkedMul pages pageBytes) .overflow)
  Call.rejectIf (plan.resources.bytes < payload) .placement
  Call.rejectIf (pages == 0 && plan.resources != Resources.zero) .placement
  let (guaranteePages, guaranteed) ← Call.lift (s.redeem index entitlement redeemed pages plan)
  let elastic ← Call.lift (plan.resources.subtract guaranteed)
  let free ← Call.lift (s.free.subtract elastic)
  let oldGuaranteeFree ← Call.lift (unwrap s.guaranteeFree[index]?)
  let guaranteeFree ← Call.lift (oldGuaranteeFree.subtract guaranteed)
  let _ ← Call.lift (member.guaranteed.checkedAdd guaranteed)
  let _ ← Call.lift (member.elastic.checkedAdd elastic)
  Call.modify fun s => { s with free := free }
  setGuaranteeFree index guaranteeFree
  Call.modify fun s => { s with
    pending := some ⟨token, pages, guaranteePages, guaranteed, elastic⟩ }

def pendingOf (s : Ledger) (token : Incarnation) : Outcome Error Pending :=
  okOr (s.pending.filter fun pending => pending.member == token) .transaction

def commit (token : Incarnation) : LedgerCall Unit := do
  let s ← Call.read
  let pending ← Call.lift (s.pendingOf token)
  let old ← Call.lift (s.member token)
  Call.rejectIf old.quarantined .cleanup
  let guaranteed ← Call.lift (old.guaranteed.checkedAdd pending.guaranteed)
  let elastic ← Call.lift (old.elastic.checkedAdd pending.elastic)
  let pages ← Call.lift (okOr (checkedAdd old.pages pending.pages) .overflow)
  let guaranteePages ← Call.lift
    (okOr (checkedAdd old.guaranteePages pending.guaranteePages) .overflow)
  modifyMember token.subject fun member => { member with guaranteed := guaranteed }
  modifyMember token.subject fun member => { member with elastic := elastic }
  modifyMember token.subject fun member => { member with pages := pages }
  modifyMember token.subject fun member => { member with guaranteePages := guaranteePages }
  Call.modify fun s => { s with pending := none }

/-- What an abort keeps charged. A clean rollback may keep only elastic-funded
leaf tables, within the spans of the member's window; a failed cleanup keeps
the whole transaction. -/
def keptByAbort (s : Ledger) (token : Incarnation) (old : Member) (pending : Pending)
    (retained : Resources) (cleanupSucceeded : Bool) :
    Outcome Error (Resources × Resources) :=
  if cleanupSucceeded then do
    rejectIf (retained.extents != 0) .cleanup
    let tableBytes ← okOr (checkedMul retained.tables pageBytes) .overflow
    rejectIf
      (retained.bytes != tableBytes || decide (retained.tables < retained.slots) ||
        decide (retained.tables < retained.descriptors))
      .cleanup
    let limit ← s.pageLimit token
    let tableBound := divCeil limit pagesPerLeafTable
    let committed ← okOr (checkedAdd old.guaranteed.tables old.elastic.tables) .overflow
    let retainedTables ← okOr (checkedAdd committed retained.tables) .overflow
    rejectIf (tableBound < retainedTables) .cleanup
    let _ ← mapErr (pending.elastic.subtract retained) Error.cleanup
    pure (Resources.zero, retained)
  else
    pure (pending.guaranteed, pending.elastic)

def abort (token : Incarnation) (retained : Resources) (cleanupSucceeded : Bool) :
    LedgerCall Unit := do
  let s ← Call.read
  let pending ← Call.lift (s.pendingOf token)
  let old ← Call.lift (s.member token)
  let (keptGuarantee, keptElastic) ←
    Call.lift (s.keptByAbort token old pending retained cleanupSucceeded)
  let index ← Call.lift (s.entitlement token)
  let oldGuaranteeFree ← Call.lift (unwrap s.guaranteeFree[index]?)
  let returnedGuarantee ← Call.lift (pending.guaranteed.subtract keptGuarantee)
  let guaranteeFree ← Call.lift (oldGuaranteeFree.checkedAdd returnedGuarantee)
  let returnedElastic ← Call.lift (pending.elastic.subtract keptElastic)
  let (free, operationalSpent) ← Call.lift (s.refundCommon returnedElastic)
  let guaranteed ← Call.lift (old.guaranteed.checkedAdd keptGuarantee)
  let elastic ← Call.lift (old.elastic.checkedAdd keptElastic)
  let heldPayloadPages ← Call.lift (okOr
    (checkedAdd old.heldPayloadPages (if cleanupSucceeded then 0 else pending.pages)) .overflow)
  let guaranteePages ← Call.lift (okOr
    (checkedAdd old.guaranteePages (if cleanupSucceeded then 0 else pending.guaranteePages))
    .overflow)
  setGuaranteeFree index guaranteeFree
  Call.modify fun s => { s with free := free }
  Call.modify fun s => { s with operationalSpent := operationalSpent }
  modifyMember token.subject fun member => { member with guaranteed := guaranteed }
  modifyMember token.subject fun member => { member with elastic := elastic }
  modifyMember token.subject fun member =>
    { member with quarantined := old.quarantined || !cleanupSucceeded }
  modifyMember token.subject fun member => { member with heldPayloadPages := heldPayloadPages }
  modifyMember token.subject fun member => { member with guaranteePages := guaranteePages }
  Call.modify fun s => { s with pending := none }

def retire (token : Incarnation) (revoked : Bool) : LedgerCall Unit := do
  let s ← Call.read
  let old ← Call.lift (s.member token)
  Call.rejectIf (s.pending.any fun pending => pending.member == token) .transaction
  if revoked then
    let index ← Call.lift (s.entitlement token)
    let oldGuaranteeFree ← Call.lift (unwrap s.guaranteeFree[index]?)
    let guaranteed ← Call.lift (oldGuaranteeFree.checkedAdd old.guaranteed)
    let total ← Call.lift (unwrap s.guaranteeTotal[index]?)
    let _ ← Call.lift (total.subtract guaranteed)
    let (free, operationalSpent) ← Call.lift (s.refundCommon old.elastic)
    setGuaranteeFree index guaranteed
    Call.modify fun s => { s with free := free }
    Call.modify fun s => { s with operationalSpent := operationalSpent }
    modifyMember token.subject fun _ => { Member.default with epoch := old.epoch }
  else
    modifyMember token.subject fun member => { member with quarantined := true }
    Call.rejectIf true .cleanup

end Ledger

/-- The calls that may change a ledger. -/
inductive Operation where
  | bind (subject : Identity)
  | bindWithMaximum (identity : Identity)
  | begin (token : Incarnation) (pages : UInt64) (plan : Plan)
  | commit (token : Incarnation)
  | abort (token : Incarnation) (retained : Resources) (cleanupSucceeded : Bool)
  | retire (token : Incarnation) (revoked : Bool)
  | quarantine (token : Incarnation)
  | retainUnbegun (token : Incarnation) (resources : Resources)
  | reserveRoot (resources : Resources)
  | settleRoot (used : Resources)
  | reconcileSystem (resources : Resources)
  | reconcileOwnership (root system : Resources)
deriving DecidableEq

def Operation.token : Operation → Option Incarnation
  | .begin token _ _ | .commit token | .abort token _ _ | .retire token _ | .quarantine token
  | .retainUnbegun token _ => some token
  | .bind _ | .bindWithMaximum _ | .reserveRoot _ | .settleRoot _ | .reconcileSystem _
  | .reconcileOwnership _ _ => none

/-- Perform one call. Only the two binding calls answer with a token. -/
def Operation.perform : Operation → LedgerCall (Option Incarnation)
  | .bind subject => do
    let token ← Ledger.bind subject
    pure (some token)
  | .bindWithMaximum identity => do
    let binding ← Ledger.bindWithMaximum identity
    pure (some binding.token)
  | .begin token pages plan => do
    Ledger.begin token pages plan
    pure none
  | .commit token => do
    Ledger.commit token
    pure none
  | .abort token retained cleanupSucceeded => do
    Ledger.abort token retained cleanupSucceeded
    pure none
  | .retire token revoked => do
    Ledger.retire token revoked
    pure none
  | .quarantine token => do
    Ledger.quarantine token
    pure none
  | .retainUnbegun token resources => do
    Ledger.retainUnbegun token resources
    pure none
  | .reserveRoot resources => do
    Ledger.reserveRoot resources
    pure none
  | .settleRoot used => do
    Ledger.settleRoot used
    pure none
  | .reconcileSystem resources => do
    Ledger.reconcileSystem resources
    pure none
  | .reconcileOwnership root system => do
    Ledger.reconcileOwnership root system
    pure none

def Ledger.step (s : Ledger) (operation : Operation) : Ledger := (operation.perform s).2

def Ledger.after (s : Ledger) (operations : List Operation) : Ledger :=
  run Ledger.step s operations

end SlimeOs.PrivateMemoryLedger
