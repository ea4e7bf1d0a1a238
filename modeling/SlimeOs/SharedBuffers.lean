import SlimeOs.CheckedWord
import SlimeOs.FallibleCall
import SlimeOs.SlotTable

/-!
The table of shared buffers in the root task, over a mapping adapter.

The adapter keeps the set of live mappings. Each of its calls may fail, and then
has no effect; which of them fail is given by a list of answers. It notes what
was mapped whenever a teardown action was attempted. Sizes and counts are natural
numbers, and arithmetic that can overflow is checked against the word it is done
in.
-/

namespace SlimeOs.SharedBuffers

open CheckedWord FallibleCall FallibleCall.Outcome SlotTable

def pageSize : Nat := 4096
def maxBufferPages : Nat := 64
def maxTotalPages : Nat := 256
def maxSharedBuffers : Nat := 32
def maxMappings : Nat := 64
def maxMappingPages : Nat := maxMappings * maxBufferPages
def maxLoans : Nat := 64
def maxFrameAnchors : Nat := maxTotalPages
def maxTeardownActions : Nat := maxMappingPages + maxFrameAnchors * 2
def maxChargeHolders : Nat := maxSharedBuffers + maxMappings
def userAddressCeiling : Nat := 2 ^ 38

-- Irreducible, as the marks of a plan are below, so that no loop is unrolled.
@[irreducible]
def maxOrphans : Nat := maxMappingPages

abbrev HolderId := UInt64
abbrev GenerationEpoch := UInt64
abbrev BufferId := UInt64
abbrev LoanId := UInt64
abbrev FrameCap := Nat
abbrev VSpaceCap := Nat

def addWithin (width a b : Nat) : Option Nat := if a + b < 2 ^ width then some (a + b) else none

def subChecked (a b : Nat) : Option Nat := if b ≤ a then some (a - b) else none

structure HolderQuota where
  bytePages : Nat
  bufferCount : Nat
  mappingCount : Nat
  loanCount : Nat
deriving DecidableEq

def HolderQuota.deny : HolderQuota := ⟨0, 0, 0, 0⟩

@[ext]
structure HolderOccupancy where
  pages : Nat
  buffers : Nat
  mappings : Nat
  loans : Nat
deriving DecidableEq

def HolderOccupancy.empty : HolderOccupancy := ⟨0, 0, 0, 0⟩

structure BufferRights where
  map : Bool
  write : Bool
  loan : Bool
deriving DecidableEq

namespace BufferRights

def mapOnly : BufferRights := ⟨true, false, false⟩
def all : BufferRights := ⟨true, true, true⟩

def contains (rights required : BufferRights) : Bool :=
  (rights.map || !required.map) && (rights.write || !required.write) &&
    (rights.loan || !required.loan)

def intersect (first second : BufferRights) : BufferRights :=
  ⟨first.map && second.map, first.write && second.write, first.loan && second.loan⟩

end BufferRights

structure BufferHandle where
  id : BufferId
  epoch : GenerationEpoch
  rights : BufferRights
deriving DecidableEq

structure LoanHandle where
  id : LoanId
  buffer : BufferId
  epoch : GenerationEpoch
  receiver : HolderId
  writable : Bool
deriving DecidableEq

/-- Root-owned frames: no more than one buffer holds, and none of them twice. -/
structure FrameAnchors where
  caps : List FrameCap
  length_le : caps.length ≤ maxBufferPages
  nodup : caps.Nodup
deriving DecidableEq

inductive MappingRights where
  | readOnly
  | readWrite
deriving DecidableEq

def MappingRights.writable : MappingRights → Bool
  | .readOnly => false
  | .readWrite => true

structure MappingRecord where
  holder : HolderId
  buffer : BufferId
  epoch : GenerationEpoch
  vspace : VSpaceCap
  base : Nat
  offsetPages : Nat
  pageCount : Nat
  rights : MappingRights
  loan : Option LoanId
deriving DecidableEq

inductive AdapterAction where
  | unmap (frame : FrameCap) (vspace : VSpaceCap) (vaddr : Nat)
  | revoke (frame : FrameCap)
  | releaseFrame (frame : FrameCap)
deriving DecidableEq

inductive AdapterError where
  | mapConflict
  | outOfMemory
  | invalidCapability
  | failedLookup
  | revokeFailed
  | unmapFailed
  | releaseFailed
  | other
deriving DecidableEq

inductive SharedBufferError where
  | badSize
  | badFrameAnchors
  | objectsExhausted
  | bytesExhausted
  | mappingsExhausted
  | loansExhausted
  | chargesExhausted
  | actionListExhausted
  | quotaExceeded
  | notFound
  | wrongOwner
  | wrongReceiver
  | badRange
  | rightsDenied
  | writeDenied
  | notSealed
  | epochMismatch
  | identityExhausted
  | duplicateFrameAnchor
  | orphansExhausted
  | adapter (error : AdapterError)
  | rollback (cause rollback : AdapterError)
  | orphaned (cause rollback : AdapterError) (orphans unrecorded : Nat)
deriving DecidableEq

structure Region where
  id : BufferId
  epoch : GenerationEpoch
  owner : HolderId
  anchors : FrameAnchors
  rights : BufferRights
  createdWritable : Bool
  sealed : Bool
  released : Bool
deriving DecidableEq

/-- A page whose unmap failed, and which is still live. -/
structure Orphan where
  frame : FrameCap
  vspace : VSpaceCap
  vaddr : Nat
deriving DecidableEq

structure QuotaEntry where
  holder : HolderId
  quota : HolderQuota
deriving DecidableEq

structure Loan where
  id : LoanId
  epoch : GenerationEpoch
  buffer : BufferId
  lender : HolderId
  receiver : HolderId
  offsetPages : Nat
  pageCount : Nat
  writable : Bool
deriving DecidableEq

structure Charge where
  holder : HolderId
  pages : Nat
  buffers : Nat
  mappings : Nat
  loans : Nat
deriving DecidableEq

def Charge.isEmpty (charge : Charge) : Bool :=
  charge.pages == 0 && charge.buffers == 0 && charge.mappings == 0 && charge.loans == 0

/-- A prepared allocation. Only a preflight makes one, so it has pages and a next
identity. -/
structure CreatePlan where
  epoch : GenerationEpoch
  owner : HolderId
  anchors : FrameAnchors
  writable : Bool
  slot : Nat
  id : BufferId
  nextId : BufferId
  pages_pos : 0 < anchors.caps.length
  next : checkedAdd id 1 = some nextId

structure MappingPlan where
  slot : Nat
  record : MappingRecord
  anchors : FrameAnchors

structure TeardownPlan where
  removeMappings : Vector Bool maxMappings
  removeLoans : Vector Bool maxLoans
  removeRegions : Vector Bool maxSharedBuffers

def TeardownPlan.new : TeardownPlan :=
  ⟨Vector.replicate _ false, Vector.replicate _ false, Vector.replicate _ false⟩

structure SharedBufferTable where
  epoch : GenerationEpoch
  regions : Slots Region maxSharedBuffers
  mappings : Slots MappingRecord maxMappings
  loans : Slots Loan maxLoans
  charges : Slots Charge maxChargeHolders
  quotas : Slots QuotaEntry maxChargeHolders
  orphans : Slots Orphan maxOrphans
  totalPages : Nat
  nextBufferId : BufferId
  nextLoanId : LoanId

/-- The live mappings, the number of calls so far, and each teardown action attempted
together with what was live at the time. -/
structure Adapter where
  live : List Orphan
  clock : Nat
  attempts : List (AdapterAction × List Orphan)

structure World where
  table : SharedBufferTable
  adapter : Adapter

abbrev BufferCall := Call World SharedBufferError

abbrev TableCall := Call SharedBufferTable SharedBufferError

def onTable {α : Type} (call : TableCall α) : BufferCall α := fun world =>
  ((call world.table).1, { world with table := (call world.table).2 })

section Anchors

def FrameAnchors.len (anchors : FrameAnchors) : Nat := anchors.caps.length

def FrameAnchors.get (anchors : FrameAnchors) (index : Nat) : Option FrameCap :=
  anchors.caps[index]?

end Anchors

namespace SharedBufferTable

def new (epoch : GenerationEpoch) : SharedBufferTable :=
  { epoch := epoch
    regions := Vector.replicate _ none
    mappings := Vector.replicate _ none
    loans := Vector.replicate _ none
    charges := Vector.replicate _ none
    quotas := Vector.replicate _ none
    orphans := Vector.replicate _ none
    totalPages := 0
    nextBufferId := 1
    nextLoanId := 1 }

def orphanCount (table : SharedBufferTable) : Nat := (entries table.orphans).length

def quota (table : SharedBufferTable) (holder : HolderId) : HolderQuota :=
  ((find (fun entry => entry.holder == holder) table.quotas).map QuotaEntry.quota).getD
    HolderQuota.deny

def charge (table : SharedBufferTable) (holder : HolderId) : Option Charge :=
  find (fun charge => charge.holder == holder) table.charges

def chargeSlot (table : SharedBufferTable) (holder : HolderId) : Option Nat :=
  findSlot (fun charge => charge.holder == holder) table.charges

def holderOccupancy (table : SharedBufferTable) (holder : HolderId) : HolderOccupancy :=
  ((table.charge holder).map fun charge =>
    ⟨charge.pages, charge.buffers, charge.mappings, charge.loans⟩).getD HolderOccupancy.empty

def checkEpoch (table : SharedBufferTable) (epoch : GenerationEpoch) :
    Outcome SharedBufferError Unit :=
  rejectIf (epoch != table.epoch) .epochMismatch

def liveRegionSlot (table : SharedBufferTable) (id : BufferId) : Outcome SharedBufferError Nat :=
  okOr (findSlot (fun region => region.id == id && !region.released) table.regions)
    .notFound

def liveRegionAny (table : SharedBufferTable) (id : BufferId) : Outcome SharedBufferError Region :=
  okOr (find (fun region => region.id == id && region.epoch == table.epoch) table.regions)
    .notFound

def liveRegion (table : SharedBufferTable) (id : BufferId) : Outcome SharedBufferError Region := do
  let region ← table.liveRegionAny id
  rejectIf region.released .notFound
  pure region

def liveLoan (table : SharedBufferTable) (id : LoanId) : Outcome SharedBufferError Loan :=
  okOr (find (fun loan => loan.id == id && loan.epoch == table.epoch) table.loans)
    .notFound

def hasRegionLoans (table : SharedBufferTable) (id : BufferId) : Bool :=
  (entries table.loans).any fun loan => loan.buffer == id

def preflightChargeSlot (table : SharedBufferTable) (holder : HolderId) :
    Outcome SharedBufferError Unit :=
  rejectIf (!((table.chargeSlot holder).isSome || (freeSlot table.charges).isSome))
    .chargesExhausted

def preflightBufferCharge (table : SharedBufferTable) (owner : HolderId) (pages : Nat) :
    Outcome SharedBufferError Unit := do
  let quota := table.quota owner
  rejectIf (decide (2 ^ 32 ≤ pages)) .badSize
  rejectIf
    ((addWithin 32 (table.holderOccupancy owner).pages pages).all
        (fun value => decide (quota.bytePages < value)) ||
      (addWithin 32 (table.holderOccupancy owner).buffers 1).all
        fun value => decide (quota.bufferCount < value))
    .quotaExceeded
  rejectIf
    ((addWithin 64 table.totalPages pages).all fun value => decide (maxTotalPages < value))
    .bytesExhausted

def preflightCreatePages (table : SharedBufferTable) (owner : HolderId) (pages : Nat) :
    Outcome SharedBufferError Unit := do
  rejectIf (pages == 0 || decide (maxBufferPages < pages)) .badSize
  table.preflightBufferCharge owner pages
  rejectIf (freeSlot table.regions).isNone .objectsExhausted
  table.preflightChargeSlot owner
  let _ ← okOr (checkedAdd table.nextBufferId 1) .identityExhausted
  pure ()

def anchorIsLive (table : SharedBufferTable) (cap : FrameCap) : Bool :=
  (entries table.regions).any fun region => region.anchors.caps.contains cap

def preflightAnchorUniqueness (table : SharedBufferTable) (anchors : FrameAnchors) :
    Outcome SharedBufferError Unit :=
  rejectIf (anchors.caps.any table.anchorIsLive) .duplicateFrameAnchor

def authorize (table : SharedBufferTable) (holder : HolderId) (handle : BufferHandle)
    (required : BufferRights) : Outcome SharedBufferError Region := do
  table.checkEpoch handle.epoch
  let region ← table.liveRegion handle.id
  rejectIf (region.owner != holder) .wrongOwner
  rejectIf (region.epoch != handle.epoch) .epochMismatch
  rejectIf (!(region.rights.intersect handle.rights).contains required) .rightsDenied
  pure region

def authorizeLoan (table : SharedBufferTable) (receiver : HolderId) (handle : LoanHandle) :
    Outcome SharedBufferError Loan := do
  table.checkEpoch handle.epoch
  rejectIf (handle.receiver != receiver) .wrongReceiver
  let loan ← table.liveLoan handle.id
  rejectIf (loan.epoch != handle.epoch || loan.buffer != handle.buffer) .notFound
  rejectIf (loan.receiver != receiver) .wrongReceiver
  pure loan

end SharedBufferTable

def validatePageRange (offset length totalPages : Nat) :
    Outcome SharedBufferError (Nat × Nat) := do
  rejectIf (length == 0 || offset % pageSize != 0 || length % pageSize != 0) .badRange
  rejectIf (decide (2 ^ 64 ≤ totalPages * pageSize)) .badRange
  let stop ← okOr (addWithin 64 offset length) .badRange
  rejectIf (decide (totalPages * pageSize < stop)) .badRange
  pure (offset / pageSize, length / pageSize)

def validateMappingRange (region : Region) (base offset length : Nat) :
    Outcome SharedBufferError (Nat × Nat) := do
  rejectIf (base % pageSize != 0) .badRange
  let stop ← okOr (addWithin 64 base length) .badRange
  rejectIf (decide (userAddressCeiling ≤ base) || decide (userAddressCeiling < stop))
    .badRange
  validatePageRange offset length region.anchors.len

/-- The frames a receiver reaches through a loan, and whether it may write them. -/
structure LoanFrames where
  anchors : FrameAnchors
  offsetPages : Nat
  pageCount : Nat
  writable : Bool

def SharedBufferTable.loanFrames (table : SharedBufferTable) (receiver : HolderId)
    (handle : LoanHandle) : Outcome SharedBufferError LoanFrames := do
  let loan ← table.authorizeLoan receiver handle
  let region ← table.liveRegionAny loan.buffer
  pure ⟨region.anchors, loan.offsetPages, loan.pageCount, loan.writable⟩

section Quotas

def declareQuota (holder : HolderId) (quota : HolderQuota) : TableCall Unit := do
  let table ← Call.read
  let slot ← Call.lift (okOr
    ((findSlot (fun entry => entry.holder == holder) table.quotas).or (freeSlot table.quotas))
    .chargesExhausted)
  Call.modify fun table =>
    { table with quotas := table.quotas.setIfInBounds slot (some ⟨holder, quota⟩) }

def releaseQuota (holder : HolderId) : TableCall Bool := do
  let table ← Call.read
  match findSlot (fun entry => entry.holder == holder) table.quotas with
  | none => pure false
  | some slot => do
    Call.modify fun table => { table with quotas := table.quotas.setIfInBounds slot none }
    pure true

end Quotas

section Charges

/-- The counters of a charge with others added, unless one of them overflows. -/
def Charge.plus (charge : Charge) (amount : HolderOccupancy) : Option Charge := do
  let pages ← addWithin 32 charge.pages amount.pages
  let buffers ← addWithin 32 charge.buffers amount.buffers
  let mappings ← addWithin 32 charge.mappings amount.mappings
  let loans ← addWithin 32 charge.loans amount.loans
  pure ⟨charge.holder, pages, buffers, mappings, loans⟩

def chargePositive (holder : HolderId) (amount : HolderOccupancy) : TableCall Unit := do
  let table ← Call.read
  let slot ← Call.lift (okOr ((table.chargeSlot holder).or (freeSlot table.charges))
    .chargesExhausted)
  let held ← Call.lift (unwrap table.charges[slot]?)
  let charge ← Call.lift (unwrap ((held.getD ⟨holder, 0, 0, 0, 0⟩).plus amount))
  Call.modify fun table => { table with charges := table.charges.setIfInBounds slot (some charge) }

/-- The counters go down one after the other, each write before the next check. -/
def uncharge (holder : HolderId) (amount : HolderOccupancy) : TableCall Unit := do
  let table ← Call.read
  let slot ← Call.lift (okOr (table.chargeSlot holder) .notFound)
  let held ← Call.lift (unwrap table.charges[slot]?)
  let charge ← Call.lift (okOr held .notFound)
  let write := fun charge : Charge => (Call.modify fun table =>
    { table with charges := table.charges.setIfInBounds slot (some charge) } : TableCall Unit)
  let pages ← Call.lift (okOr (subChecked charge.pages amount.pages) .quotaExceeded)
  write { charge with pages := pages }
  let buffers ← Call.lift (okOr (subChecked charge.buffers amount.buffers) .quotaExceeded)
  write { charge with pages := pages, buffers := buffers }
  let mappings ← Call.lift
    (okOr (subChecked charge.mappings amount.mappings) .quotaExceeded)
  write { charge with pages := pages, buffers := buffers, mappings := mappings }
  let loans ← Call.lift (okOr (subChecked charge.loans amount.loans) .quotaExceeded)
  let settled : Charge := ⟨charge.holder, pages, buffers, mappings, loans⟩
  write settled
  if settled.isEmpty then
    Call.modify fun table => { table with charges := table.charges.setIfInBounds slot none }
  else pure ()

end Charges

section Create

def SharedBufferTable.preflightCreate (table : SharedBufferTable) (owner : HolderId)
    (anchors : FrameAnchors) (writable : Bool) : Outcome SharedBufferError CreatePlan :=
  if hpages : 0 < anchors.caps.length then do
    table.preflightCreatePages owner anchors.len
    table.preflightAnchorUniqueness anchors
    let slot ← okOr (freeSlot table.regions) .objectsExhausted
    table.preflightChargeSlot owner
    match hnext : checkedAdd table.nextBufferId 1 with
    | none => .error (.returned .identityExhausted)
    | some nextId =>
      pure
        { epoch := table.epoch
          owner := owner
          anchors := anchors
          writable := writable
          slot := slot
          id := table.nextBufferId
          nextId := nextId
          pages_pos := hpages
          next := hnext }
  else .error (.returned .badSize)

def commitCreate (plan : CreatePlan) : TableCall BufferHandle := do
  let table ← Call.read
  Call.rejectIf (plan.epoch != table.epoch) .epochMismatch
  Call.rejectIf (table.nextBufferId != plan.id || table.regions[plan.slot]?.all Option.isSome)
    .notFound
  let pages := plan.anchors.len
  Call.lift (table.preflightAnchorUniqueness plan.anchors)
  Call.lift (table.preflightBufferCharge plan.owner pages)
  Call.lift (table.preflightChargeSlot plan.owner)
  let rights := if plan.writable then BufferRights.all else BufferRights.mapOnly
  Call.modify fun table =>
    { table with
      regions := table.regions.setIfInBounds plan.slot (some
        { id := plan.id
          epoch := plan.epoch
          owner := plan.owner
          anchors := plan.anchors
          rights := rights
          createdWritable := plan.writable
          sealed := false
          released := false })
      nextBufferId := plan.nextId
      totalPages := table.totalPages + pages }
  chargePositive plan.owner ⟨pages, 1, 0, 0⟩
  pure ⟨plan.id, plan.epoch, rights⟩

def create (owner : HolderId) (anchors : FrameAnchors) (writable : Bool) :
    TableCall BufferHandle := do
  let table ← Call.read
  let plan ← Call.lift (table.preflightCreate owner anchors writable)
  commitCreate plan

end Create

section Loans

/-- A writable loan needs an unsealed region, a read-only one a sealed region. -/
def Region.checkLoan (region : Region) (writable : Bool) : Outcome SharedBufferError Unit :=
  if writable then rejectIf (region.sealed || !region.createdWritable) .writeDenied
  else rejectIf (!region.sealed) .notSealed

def loan (lender receiver : HolderId) (handle : BufferHandle) (offset length : Nat)
    (writable : Bool) : TableCall LoanHandle := do
  let table ← Call.read
  let region ← Call.lift (table.authorize lender handle ⟨false, writable, true⟩)
  Call.lift (region.checkLoan writable)
  let (offsetPages, pageCount) ← Call.lift (validatePageRange offset length region.anchors.len)
  Call.rejectIf ((addWithin 32 (table.holderOccupancy lender).loans 1).all
    fun value => decide ((table.quota lender).loanCount < value)) .quotaExceeded
  let slot ← Call.lift (okOr (freeSlot table.loans) .loansExhausted)
  Call.lift (table.preflightChargeSlot lender)
  let id := table.nextLoanId
  let nextId ← Call.lift (okOr (checkedAdd table.nextLoanId 1) .identityExhausted)
  Call.rejectIf (decide (2 ^ 16 ≤ offsetPages)) .badRange
  Call.rejectIf (decide (2 ^ 16 ≤ pageCount)) .badRange
  Call.modify fun table =>
    { table with
      loans := table.loans.setIfInBounds slot (some
        { id := id
          epoch := table.epoch
          buffer := handle.id
          lender := lender
          receiver := receiver
          offsetPages := offsetPages
          pageCount := pageCount
          writable := writable })
      nextLoanId := nextId }
  chargePositive lender ⟨0, 0, 0, 1⟩
  pure ⟨id, handle.id, table.epoch, receiver, writable⟩

end Loans

def SharedBufferTable.preflightMapping (table : SharedBufferTable) (holder : HolderId)
    (region : Region) (vspace : VSpaceCap) (base offsetPages pageCount : Nat)
    (rights : MappingRights) (loan : Option LoanId) : Outcome SharedBufferError MappingPlan := do
  rejectIf ((addWithin 32 (table.holderOccupancy holder).mappings 1).all
    fun value => decide ((table.quota holder).mappingCount < value)) .quotaExceeded
  let slot ← okOr (freeSlot table.mappings) .mappingsExhausted
  let admitted ← okOr
    ((entries table.mappings).foldlM (fun total mapping => addWithin 64 total mapping.pageCount)
      table.orphanCount) .mappingsExhausted
  rejectIf
    ((addWithin 64 admitted pageCount).all fun total => decide (maxMappingPages < total))
    .mappingsExhausted
  table.preflightChargeSlot holder
  rejectIf (decide (2 ^ 16 ≤ offsetPages)) .badRange
  rejectIf (decide (2 ^ 16 ≤ pageCount)) .badRange
  pure
    { slot := slot
      record :=
        { holder := holder
          buffer := region.id
          epoch := region.epoch
          vspace := vspace
          base := base
          offsetPages := offsetPages
          pageCount := pageCount
          rights := rights
          loan := loan }
      anchors := region.anchors }

def recordOrphan (orphan : Orphan) : TableCall Unit := do
  let table ← Call.read
  if (entries table.orphans).contains orphan then pure ()
  else do
    let slot ← Call.lift (okOr (freeSlot table.orphans) .orphansExhausted)
    Call.modify fun table =>
      { table with orphans := table.orphans.setIfInBounds slot (some orphan) }

section Adapter

variable (answers : Nat → Option AdapterError)

/-- One call of the adapter: it fails with the answer of its turn, or it changes what is
live. -/
def adapterCall (change : List Orphan → List Orphan) : BufferCall (Option AdapterError) :=
  fun world =>
    (.ok (answers world.adapter.clock),
      { world with
        adapter :=
          { world.adapter with
            live := match answers world.adapter.clock with
              | some _ => world.adapter.live
              | none => change world.adapter.live
            clock := world.adapter.clock + 1 } })

def mapFrame (frame : FrameCap) (vspace : VSpaceCap) (vaddr : Nat) (_ : MappingRights) :
    BufferCall (Option AdapterError) :=
  adapterCall answers fun live => ⟨frame, vspace, vaddr⟩ :: live

def AdapterAction.after (live : List Orphan) : AdapterAction → List Orphan
  | .unmap frame vspace vaddr => live.filter fun held => held != ⟨frame, vspace, vaddr⟩
  | .revoke _ => live
  | .releaseFrame _ => live

def perform (action : AdapterAction) : BufferCall (Option AdapterError) := do
  Call.modify fun world =>
    { world with
      adapter :=
        { world.adapter with
          attempts := (action, world.adapter.live) :: world.adapter.attempts } }
  adapterCall answers action.after

/-- `perform(..)?`. -/
def performOrFail (action : AdapterAction) : BufferCall Unit := do
  let failed ← perform answers action
  match failed with
  | none => pure ()
  | some error => Call.lift (.error (.returned (.adapter error)))

structure Rollback where
  error : Option AdapterError
  orphaned : Nat
  unrecorded : Nat

def frameAt (anchors : FrameAnchors) (index : Nat) : BufferCall FrameCap :=
  Call.lift (okOr (anchors.get index) .badRange)

/-- Undo one page of a failed mapping. A page that stays mapped is kept as an orphan. -/
def rollbackPage (plan : MappingPlan) (state : Rollback) (page : Nat) : BufferCall Rollback := do
  let frame ← frameAt plan.anchors (plan.record.offsetPages + page)
  let vaddr := plan.record.base + page * pageSize
  let failed ← perform answers (.unmap frame plan.record.vspace vaddr)
  match failed with
  | none => pure state
  | some error => do
    let first := state.error.or (some error)
    let recorded ← Call.attempt (onTable (recordOrphan ⟨frame, plan.record.vspace, vaddr⟩))
    match recorded with
    | .ok () => pure ⟨first, state.orphaned + 1, state.unrecorded⟩
    | .error .orphansExhausted => pure ⟨first, state.orphaned, state.unrecorded + 1⟩
    | .error error => Call.lift (.error (.returned error))

def undoPages (plan : MappingPlan) (pages : Nat) (cause : AdapterError) : BufferCall Unit := do
  let state ← (List.range pages).reverse.foldlM (rollbackPage answers plan) ⟨none, 0, 0⟩
  match state.error with
  | some rollback =>
    Call.lift (.error (.returned (.orphaned cause rollback state.orphaned state.unrecorded)))
  | none => Call.lift (.error (.returned (.adapter cause)))

def mapPage (plan : MappingPlan) (_ : Unit) (page : Nat) : BufferCall Unit := do
  let frame ← frameAt plan.anchors (plan.record.offsetPages + page)
  let vaddr ← Call.lift (okOr (addWithin 64 plan.record.base (page * pageSize)) .badRange)
  let failed ← mapFrame answers frame plan.record.vspace vaddr plan.record.rights
  match failed with
  | none => pure ()
  | some cause => undoPages answers plan page cause

def executeMapping (plan : MappingPlan) : BufferCall Unit := do
  (List.range plan.record.pageCount).foldlM (mapPage answers plan) ()
  onTable (Call.modify fun table =>
    { table with mappings := table.mappings.setIfInBounds plan.slot (some plan.record) })
  onTable (chargePositive plan.record.holder ⟨0, 0, 1, 0⟩)

def map (holder : HolderId) (handle : BufferHandle) (vspace : VSpaceCap)
    (base offset length : Nat) (rights : MappingRights) : BufferCall Unit := do
  let world ← Call.read
  let region ← Call.lift (world.table.authorize holder handle ⟨true, rights.writable, false⟩)
  let (offsetPages, pageCount) ← Call.lift (validateMappingRange region base offset length)
  Call.rejectIf (rights.writable && (!region.createdWritable || region.sealed)) .writeDenied
  let plan ← Call.lift (world.table.preflightMapping holder region vspace base offsetPages
    pageCount rights none)
  executeMapping answers plan

/-- The protection is the loan's own. -/
def mapLoan (receiver : HolderId) (handle : LoanHandle) (vspace : VSpaceCap)
    (base relativeOffset length : Nat) : BufferCall Unit := do
  let world ← Call.read
  let loan ← Call.lift (world.table.authorizeLoan receiver handle)
  let (relativePages, _) ← Call.lift (validatePageRange relativeOffset length loan.pageCount)
  let absoluteOffsetPages ← Call.lift (okOr (addWithin 64 loan.offsetPages relativePages) .badRange)
  let region ← Call.lift (world.table.liveRegionAny loan.buffer)
  Call.rejectIf (decide (2 ^ 64 ≤ absoluteOffsetPages * pageSize)) .badRange
  let (_, pageCount) ← Call.lift
    (validateMappingRange region base (absoluteOffsetPages * pageSize) length)
  let plan ← Call.lift (world.table.preflightMapping receiver region vspace base
    absoluteOffsetPages pageCount (if loan.writable then .readWrite else .readOnly)
    (some loan.id))
  executeMapping answers plan

/-- `map_frame(..)?` and `perform(..)?` where the failure is reported with its cause. -/
def orRollback (cause : AdapterError) (call : BufferCall (Option AdapterError)) :
    BufferCall Unit := do
  let failed ← call
  match failed with
  | none => pure ()
  | some rollback => Call.lift (.error (.returned (.rollback cause rollback)))

def mapBack (anchors : FrameAnchors) (mapping : MappingRecord) (rights : MappingRights)
    (cause : AdapterError) (_ : Unit) (page : Nat) : BufferCall Unit := do
  let frame ← frameAt anchors (mapping.offsetPages + page)
  orRollback cause
    (mapFrame answers frame mapping.vspace (mapping.base + page * pageSize) rights)

def unmapBack (anchors : FrameAnchors) (mapping : MappingRecord) (cause : AdapterError)
    (_ : Unit) (page : Nat) : BufferCall Unit := do
  let frame ← frameAt anchors (mapping.offsetPages + page)
  orRollback cause
    (perform answers (.unmap frame mapping.vspace (mapping.base + page * pageSize)))

/-- A failed unmap of a remap puts the pages before it back. -/
def remapUnmap (anchors : FrameAnchors) (mapping : MappingRecord)
    (rollbackRights : MappingRights) (_ : Unit) (page : Nat) : BufferCall Unit := do
  let frame ← frameAt anchors (mapping.offsetPages + page)
  let failed ← perform answers
    (.unmap frame mapping.vspace (mapping.base + page * pageSize))
  match failed with
  | none => pure ()
  | some cause => do
    (List.range page).foldlM (mapBack answers anchors mapping rollbackRights cause) ()
    Call.lift (.error (.returned (.adapter cause)))

/-- A failed map of a remap takes the pages before it down and puts all of them back. -/
def remapMap (anchors : FrameAnchors) (mapping : MappingRecord)
    (targetRights rollbackRights : MappingRights) (_ : Unit) (page : Nat) : BufferCall Unit := do
  let frame ← frameAt anchors (mapping.offsetPages + page)
  let failed ← mapFrame answers frame mapping.vspace (mapping.base + page * pageSize) targetRights
  match failed with
  | none => pure ()
  | some cause => do
    (List.range page).foldlM (unmapBack answers anchors mapping cause) ()
    (List.range mapping.pageCount).foldlM
      (mapBack answers anchors mapping rollbackRights cause) ()
    Call.lift (.error (.returned (.adapter cause)))

def remapMapping (region : Region) (mapping : MappingRecord)
    (targetRights rollbackRights : MappingRights) : BufferCall Unit := do
  (List.range mapping.pageCount).foldlM
    (remapUnmap answers region.anchors mapping rollbackRights) ()
  (List.range mapping.pageCount).foldlM
    (remapMap answers region.anchors mapping targetRights rollbackRights) ()

def adapterCause : SharedBufferError → AdapterError
  | .adapter error => error
  | .rollback cause _ => cause
  | _ => .other

def rollbackSeal (region : Region) : List Nat → BufferCall (Option AdapterError)
  | [] => pure none
  | slot :: slots => do
    let world ← Call.read
    match world.table.mappings[slot]?.join with
    | none => pure (some .other)
    | some mapping => do
      let result ← Call.attempt (remapMapping answers region mapping .readWrite .readOnly)
      match result with
      | .ok () => rollbackSeal region slots
      | .error error => pure (some (adapterCause error))

/-- Remap the writable mappings one after the other. Those converted so far are kept for
the rollback, the latest first. -/
def sealMappings (region : Region) (converted : List Nat) : List Nat → BufferCall Unit
  | [] => pure ()
  | slot :: slots => do
    let world ← Call.read
    let mapping ← Call.lift (okOr world.table.mappings[slot]?.join .notFound)
    let result ← Call.attempt (remapMapping answers region mapping .readOnly mapping.rights)
    match result with
    | .ok () => sealMappings region (slot :: converted) slots
    | .error cause => do
      let failed ← rollbackSeal answers region converted
      match failed with
      | none => Call.lift (.error (.returned cause))
      | some rollback =>
        Call.lift (.error (.returned (.rollback (adapterCause cause) rollback)))

def narrowMapping (_ : Unit) (slot : Nat) : TableCall Unit := do
  let table ← Call.read
  let mapping ← Call.lift (okOr table.mappings[slot]?.join .notFound)
  Call.modify fun table =>
    { table with
      mappings := table.mappings.setIfInBounds slot (some { mapping with rights := .readOnly }) }

def SharedBufferTable.writableSlots (table : SharedBufferTable) (id : BufferId) : List Nat :=
  (List.range maxMappings).filter fun slot =>
    table.mappings[slot]?.join.any fun mapping =>
      mapping.buffer == id && mapping.rights == .readWrite

def sealBuffer (owner : HolderId) (handle : BufferHandle) : BufferCall Unit := do
  let world ← Call.read
  let region ← Call.lift (world.table.authorize owner handle ⟨false, true, false⟩)
  let regionSlot ← Call.lift (world.table.liveRegionSlot handle.id)
  if region.sealed then pure ()
  else do
    let slots := world.table.writableSlots handle.id
    sealMappings answers region [] slots
    onTable (slots.foldlM narrowMapping ())
    let world ← Call.read
    let held ← Call.lift (okOr world.table.regions[regionSlot]?.join .notFound)
    onTable (Call.modify fun table =>
      { table with
        regions := table.regions.setIfInBounds regionSlot (some { held with sealed := true }) })

end Adapter

section Teardown

@[irreducible]
def markWhere {α : Type} {n : Nat} (marks : Vector Bool n) (table : Slots α n) (p : α → Bool) :
    Vector Bool n :=
  Vector.ofFn fun i => marks.get i || (table.get i).any p

@[irreducible]
def anyUnmarked {α : Type} {n : Nat} (marks : Vector Bool n) (table : Slots α n) (p : α → Bool) :
    Bool :=
  (List.range n).any fun i => marks[i]? == some false && table[i]?.join.any p

@[irreducible]
def anyMarked {α : Type} {n : Nat} (marks : Vector Bool n) (table : Slots α n) (p : α → Bool) :
    Bool :=
  (List.range n).any fun i => marks[i]? == some true && table[i]?.join.any p

namespace SharedBufferTable

/-- A released region goes with its last loan, and a region takes its mappings along. -/
def completeRegionRemovals (table : SharedBufferTable) (plan : TeardownPlan) : TeardownPlan :=
  let removeRegions := markWhere plan.removeRegions table.regions fun region =>
    region.released && !anyUnmarked plan.removeLoans table.loans fun loan =>
      loan.buffer == region.id
  { plan with
    removeRegions := removeRegions
    removeMappings := markWhere plan.removeMappings table.mappings fun mapping =>
      anyMarked removeRegions table.regions fun region => mapping.buffer == region.id }

def planSettleLoans (table : SharedBufferTable) (predicate : Loan → Bool) : TeardownPlan :=
  let removeLoans := markWhere TeardownPlan.new.removeLoans table.loans predicate
  table.completeRegionRemovals
    { TeardownPlan.new with
      removeLoans := removeLoans
      removeMappings := markWhere TeardownPlan.new.removeMappings table.mappings fun mapping =>
        mapping.loan.any fun loanId =>
          anyMarked removeLoans table.loans fun loan => loan.id == loanId }

end SharedBufferTable

/-- `ActionList::push`. -/
def push (actions : List AdapterAction) (action : AdapterAction) :
    Outcome SharedBufferError (List AdapterAction) :=
  if actions.length == maxTeardownActions then .error (.returned .actionListExhausted)
  else .ok (actions ++ [action])

def pushPage (region : Region) (mapping : MappingRecord) (actions : List AdapterAction)
    (page : Nat) : Outcome SharedBufferError (List AdapterAction) := do
  let frame ← okOr (region.anchors.get (mapping.offsetPages + page)) .badRange
  push actions (.unmap frame mapping.vspace (mapping.base + page * pageSize))

def pushFrame (region : Region) (action : FrameCap → AdapterAction)
    (actions : List AdapterAction) (page : Nat) :
    Outcome SharedBufferError (List AdapterAction) := do
  let frame ← okOr (region.anchors.get page) .badFrameAnchors
  push actions (action frame)

namespace SharedBufferTable

def appendMappingActions (table : SharedBufferTable) (actions : List AdapterAction) (slot : Nat) :
    Outcome SharedBufferError (List AdapterAction) := do
  let mapping ← okOr table.mappings[slot]?.join .notFound
  let region ← table.liveRegionAny mapping.buffer
  (List.range mapping.pageCount).foldlM (pushPage region mapping) actions

def appendFrames (table : SharedBufferTable) (plan : TeardownPlan)
    (action : FrameCap → AdapterAction) (actions : List AdapterAction) (slot : Nat) :
    Outcome SharedBufferError (List AdapterAction) :=
  if plan.removeRegions[slot]? == some true then do
    let region ← okOr table.regions[slot]?.join .notFound
    (List.range region.anchors.len).foldlM (pushFrame region action) actions
  else pure actions

/-- Every revoke first, then every release. -/
def appendRegionReclamation (table : SharedBufferTable) (plan : TeardownPlan)
    (actions : List AdapterAction) : Outcome SharedBufferError (List AdapterAction) := do
  let revoked ← (List.range maxSharedBuffers).foldlM (table.appendFrames plan .revoke) actions
  (List.range maxSharedBuffers).foldlM (table.appendFrames plan .releaseFrame) revoked

def appendMarkedMapping (table : SharedBufferTable) (plan : TeardownPlan)
    (actions : List AdapterAction) (slot : Nat) : Outcome SharedBufferError (List AdapterAction) :=
  if plan.removeMappings[slot]? == some true then table.appendMappingActions actions slot
  else pure actions

def buildActions (table : SharedBufferTable) (plan : TeardownPlan) :
    Outcome SharedBufferError (List AdapterAction) := do
  let unmapped ← (List.range maxMappings).foldlM (table.appendMarkedMapping plan) []
  table.appendRegionReclamation plan unmapped

end SharedBufferTable

def takeMapping (plan : TeardownPlan) (_ : Unit) (slot : Nat) : TableCall Unit := do
  if plan.removeMappings[slot]? == some true then do
    let table ← Call.read
    Call.modify fun table => { table with mappings := table.mappings.setIfInBounds slot none }
    let mapping ← Call.lift (okOr table.mappings[slot]?.join .notFound)
    uncharge mapping.holder ⟨0, 0, 1, 0⟩
  else pure ()

def takeLoan (plan : TeardownPlan) (_ : Unit) (slot : Nat) : TableCall Unit := do
  if plan.removeLoans[slot]? == some true then do
    let table ← Call.read
    Call.modify fun table => { table with loans := table.loans.setIfInBounds slot none }
    let loan ← Call.lift (okOr table.loans[slot]?.join .notFound)
    uncharge loan.lender ⟨0, 0, 0, 1⟩
  else pure ()

def takeRegion (plan : TeardownPlan) (_ : Unit) (slot : Nat) : TableCall Unit := do
  if plan.removeRegions[slot]? == some true then do
    let table ← Call.read
    Call.modify fun table => { table with regions := table.regions.setIfInBounds slot none }
    let region ← Call.lift (okOr table.regions[slot]?.join .notFound)
    let pages ← Call.lift (okOr (subChecked table.totalPages region.anchors.len) .badSize)
    Call.modify fun table => { table with totalPages := pages }
    uncharge region.owner ⟨region.anchors.len, 1, 0, 0⟩
  else pure ()

def commitTeardown (plan : TeardownPlan) : TableCall Unit := do
  (List.range maxMappings).foldlM (takeMapping plan) ()
  (List.range maxLoans).foldlM (takeLoan plan) ()
  (List.range maxSharedBuffers).foldlM (takeRegion plan) ()

variable (answers : Nat → Option AdapterError)

def AdapterAction.retires (frame : FrameCap) : AdapterAction → Bool
  | .unmap _ _ _ => false
  | .revoke retired => retired == frame
  | .releaseFrame retired => retired == frame

/-- An orphan of a retiring frame is settled first. -/
def settleOrphan (actions : List AdapterAction) (_ : Unit) (slot : Nat) : BufferCall Unit := do
  let world ← Call.read
  match world.table.orphans[slot]?.join with
  | none => pure ()
  | some orphan =>
    if actions.any (AdapterAction.retires orphan.frame) then do
      performOrFail answers (.unmap orphan.frame orphan.vspace orphan.vaddr)
      onTable (Call.modify fun table =>
        { table with orphans := table.orphans.setIfInBounds slot none })
    else pure ()

def runActions (actions : List AdapterAction) : BufferCall Unit := do
  (List.range maxOrphans).foldlM (settleOrphan answers actions) ()
  actions.foldlM (fun _ action => performOrFail answers action) ()

def executeTeardown (actions : List AdapterAction) (plan : TeardownPlan) :
    BufferCall (List AdapterAction) := do
  runActions answers actions
  onTable (commitTeardown plan)
  pure actions

def settle (plan : TeardownPlan) : BufferCall (List AdapterAction) := do
  let world ← Call.read
  let actions ← Call.lift (world.table.buildActions plan)
  executeTeardown answers actions plan

/-- `.map(|_| ())`. -/
def discard {α : Type} (call : BufferCall α) : BufferCall Unit := do
  let _ ← call
  pure ()

@[irreducible]
def mark {n : Nat} (marks : Vector Bool n) (slot : Nat) : Vector Bool n :=
  marks.setIfInBounds slot true

/-- A loan's receiver does not own the region, so only its owner is checked here. -/
def SharedBufferTable.authorizeUnmap (table : SharedBufferTable) (holder : HolderId)
    (handle : BufferHandle) (throughLoan : Bool) : Outcome SharedBufferError Unit :=
  if throughLoan then .ok ()
  else do
    let _ ← table.authorize holder handle BufferRights.mapOnly
    pure ()

def unmapAuthorized (holder : HolderId) (handle : BufferHandle) (vspace : VSpaceCap) (base : Nat)
    (throughLoan : Bool) : BufferCall Unit := do
  let world ← Call.read
  Call.lift (world.table.authorizeUnmap holder handle throughLoan)
  let slot ← Call.lift (okOr (findSlot (fun mapping =>
    mapping.holder == holder && mapping.buffer == handle.id && mapping.epoch == handle.epoch &&
      mapping.vspace == vspace && mapping.base == base &&
      mapping.loan.isSome == throughLoan) world.table.mappings) .notFound)
  let actions ← Call.lift (world.table.appendMappingActions [] slot)
  discard (executeTeardown answers actions
    { TeardownPlan.new with removeMappings := mark TeardownPlan.new.removeMappings slot })

def unmap (holder : HolderId) (handle : BufferHandle) (vspace : VSpaceCap) (base : Nat) :
    BufferCall Unit :=
  unmapAuthorized answers holder handle vspace base false

def unmapLoan (receiver : HolderId) (handle : LoanHandle) (vspace : VSpaceCap) (base : Nat) :
    BufferCall Unit := do
  let world ← Call.read
  let loan ← Call.lift (world.table.authorizeLoan receiver handle)
  unmapAuthorized answers receiver ⟨loan.buffer, loan.epoch, BufferRights.mapOnly⟩ vspace base true

def returnLoan (receiver : HolderId) (handle : LoanHandle) : BufferCall Unit := do
  let world ← Call.read
  let loan ← Call.lift (world.table.authorizeLoan receiver handle)
  discard (settle answers (world.table.planSettleLoans fun candidate => candidate.id == loan.id))

def revokeLoan (lender : HolderId) (handle : LoanHandle) : BufferCall Unit := do
  let world ← Call.read
  Call.lift (world.table.checkEpoch handle.epoch)
  let loan ← Call.lift (world.table.liveLoan handle.id)
  Call.rejectIf (loan.buffer != handle.buffer) .notFound
  Call.rejectIf (loan.lender != lender) .wrongOwner
  discard (settle answers (world.table.planSettleLoans fun candidate => candidate.id == loan.id))

/-- The plan of a release: without loans the region goes too. -/
def SharedBufferTable.planRelease (table : SharedBufferTable) (region : Region) (slot : Nat)
    (hasLoans : Bool) : TeardownPlan :=
  { TeardownPlan.new with
    removeMappings := markWhere TeardownPlan.new.removeMappings table.mappings fun mapping =>
      mapping.buffer == region.id && (mapping.loan.isNone || !hasLoans)
    removeRegions := if hasLoans then TeardownPlan.new.removeRegions
      else mark TeardownPlan.new.removeRegions slot }

def release (owner : HolderId) (handle : BufferHandle) : BufferCall Unit := do
  let world ← Call.read
  let region ← Call.lift (world.table.authorize owner handle BufferRights.mapOnly)
  let slot ← Call.lift (world.table.liveRegionSlot handle.id)
  let hasLoans := world.table.hasRegionLoans region.id
  let _ ← settle answers (world.table.planRelease region slot hasLoans)
  if hasLoans then do
    let world ← Call.read
    let held ← Call.lift (okOr world.table.regions[slot]?.join .notFound)
    onTable (Call.modify fun table =>
      { table with
        regions := table.regions.setIfInBounds slot (some { held with released := true }) })
  else pure ()

def SharedBufferTable.planReclaim (table : SharedBufferTable) (holder : HolderId) : TeardownPlan :=
  let plan := table.planSettleLoans fun loan => loan.lender == holder || loan.receiver == holder
  table.completeRegionRemovals
    { plan with
      removeMappings := markWhere plan.removeMappings table.mappings fun mapping =>
        mapping.holder == holder
      removeRegions := markWhere plan.removeRegions table.regions fun region =>
        region.owner == holder }

def reclaimHolder (holder : HolderId) : BufferCall (List AdapterAction) := do
  let world ← Call.read
  settle answers (world.table.planReclaim holder)

def SharedBufferTable.planAll (table : SharedBufferTable) : TeardownPlan :=
  { removeMappings := markWhere TeardownPlan.new.removeMappings table.mappings fun _ => true
    removeLoans := markWhere TeardownPlan.new.removeLoans table.loans fun _ => true
    removeRegions := markWhere TeardownPlan.new.removeRegions table.regions fun _ => true }

def advanceEpoch (next : GenerationEpoch) : BufferCall (List AdapterAction) := do
  let world ← Call.read
  Call.rejectIf (decide (next ≤ world.table.epoch)) .epochMismatch
  let actions ← settle answers world.table.planAll
  onTable (Call.modify fun table => { table with epoch := next })
  pure actions

def retryOrphan (wanted : VSpaceCap → Bool) (_ : Unit) (slot : Nat) : BufferCall Unit := do
  let world ← Call.read
  match world.table.orphans[slot]?.join with
  | none => pure ()
  | some orphan =>
    if wanted orphan.vspace then do
      let failed ← perform answers (.unmap orphan.frame orphan.vspace orphan.vaddr)
      match failed with
      | some _ => pure ()
      | none => onTable (Call.modify fun table =>
        { table with orphans := table.orphans.setIfInBounds slot none })
    else pure ()

def retryVspaceOrphans (vspace : VSpaceCap) : BufferCall Nat := do
  (List.range maxOrphans).foldlM (retryOrphan answers fun candidate => candidate == vspace) ()
  let world ← Call.read
  pure ((entries world.table.orphans).countP fun orphan => orphan.vspace == vspace)

def retryOrphans : BufferCall Nat := do
  (List.range maxOrphans).foldlM (retryOrphan answers fun _ => true) ()
  let world ← Call.read
  pure world.table.orphanCount

end Teardown

inductive Operation where
  | declareQuota (holder : HolderId) (quota : HolderQuota)
  | releaseQuota (holder : HolderId)
  | create (owner : HolderId) (anchors : FrameAnchors) (writable : Bool)
  | commitCreate (plan : CreatePlan)
  | map (holder : HolderId) (handle : BufferHandle) (vspace : VSpaceCap)
      (base offset length : Nat) (rights : MappingRights)
  | mapLoan (receiver : HolderId) (handle : LoanHandle) (vspace : VSpaceCap)
      (base relativeOffset length : Nat)
  | unmap (holder : HolderId) (handle : BufferHandle) (vspace : VSpaceCap) (base : Nat)
  | unmapLoan (receiver : HolderId) (handle : LoanHandle) (vspace : VSpaceCap) (base : Nat)
  | sealBuffer (owner : HolderId) (handle : BufferHandle)
  | loan (lender receiver : HolderId) (handle : BufferHandle) (offset length : Nat)
      (writable : Bool)
  | returnLoan (receiver : HolderId) (handle : LoanHandle)
  | revokeLoan (lender : HolderId) (handle : LoanHandle)
  | release (owner : HolderId) (handle : BufferHandle)
  | reclaimHolder (holder : HolderId)
  | advanceEpoch (next : GenerationEpoch)
  | retryOrphans
  | retryVspaceOrphans (vspace : VSpaceCap)

section Runs

variable (answers : Nat → Option AdapterError)

def Operation.invoke : Operation → BufferCall Unit
  | .declareQuota holder quota => onTable (SharedBuffers.declareQuota holder quota)
  | .releaseQuota holder => discard (onTable (SharedBuffers.releaseQuota holder))
  | .create owner anchors writable =>
    discard (onTable (SharedBuffers.create owner anchors writable))
  | .commitCreate plan => discard (onTable (SharedBuffers.commitCreate plan))
  | .map holder handle vspace base offset length rights =>
    SharedBuffers.map answers holder handle vspace base offset length rights
  | .mapLoan receiver handle vspace base relativeOffset length =>
    SharedBuffers.mapLoan answers receiver handle vspace base relativeOffset length
  | .unmap holder handle vspace base => SharedBuffers.unmap answers holder handle vspace base
  | .unmapLoan receiver handle vspace base =>
    SharedBuffers.unmapLoan answers receiver handle vspace base
  | .sealBuffer owner handle => SharedBuffers.sealBuffer answers owner handle
  | .loan lender receiver handle offset length writable =>
    discard (onTable (SharedBuffers.loan lender receiver handle offset length writable))
  | .returnLoan receiver handle => SharedBuffers.returnLoan answers receiver handle
  | .revokeLoan lender handle => SharedBuffers.revokeLoan answers lender handle
  | .release owner handle => SharedBuffers.release answers owner handle
  | .reclaimHolder holder => discard (SharedBuffers.reclaimHolder answers holder)
  | .advanceEpoch next => discard (SharedBuffers.advanceEpoch answers next)
  | .retryOrphans => discard (SharedBuffers.retryOrphans answers)
  | .retryVspaceOrphans vspace => discard (SharedBuffers.retryVspaceOrphans answers vspace)

def World.start (epoch : GenerationEpoch) : World :=
  ⟨SharedBufferTable.new epoch, ⟨[], 0, []⟩⟩

def step (world : World) (operation : Operation) : World := (operation.invoke answers world).2

end Runs

end SlimeOs.SharedBuffers
