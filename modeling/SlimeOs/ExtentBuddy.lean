import SlimeOs.ExtentTable
import SlimeOs.RootSlots

/-!
Buddy splitting of returned extents. A free extent larger than a request is retyped into two
halves, and the split repeats until one half fits; two free halves are merged again by revoking
their parent. What the root needs for its own records may be taken from a free extent for good.

What the kernel answers and what ordinary memory can still place is given from outside, call by
call. So is what one more page of records or leaf of slots asks of the root's own memory; from
where that memory is replenished is not.
-/

namespace SlimeOs.ExtentBuddy

open FallibleCall FallibleCall.Outcome ObjectAllocator PrivateMemoryResources

def maxSplitReselections : Nat := 8

/-- The owner of an extent adopted for the root's own records. It is no arena. -/
def infrastructureOwner : TaskArenaId := ⟨2 ^ 16 - 2, 0⟩

/-- The entry with the least key, the first of them if there are several. -/
def firstMinBy {α : Type} (key : α → Nat) : List α → Option α
  | [] => none
  | a :: as =>
    match firstMinBy key as with
    | none => some a
    | some best => if key best < key a then some best else some a

/-- The sources the root's own records are made from, the one in use and those used up. -/
structure Infrastructure where
  source : Option UntypedRegion
  retiredSources : List (Option UntypedRegion)
  ownedBytes : Nat
  pinned : Bool
deriving DecidableEq

namespace Infrastructure

def remainingBytes (infrastructure : Infrastructure) : Nat :=
  infrastructure.source.elim 0 UntypedRegion.remaining

def needsSource (infrastructure : Infrastructure) (bytes : Nat) : Bool :=
  infrastructure.remainingBytes < bytes

def owns (infrastructure : Infrastructure) (cap : Nat) : Bool :=
  infrastructure.source.any (·.cap == cap) ||
    infrastructure.retiredSources.any fun old => old.any (·.cap == cap)

def adoptSource (infrastructure : Infrastructure) (maxKernelUntypeds : Nat)
    (source : UntypedRegion) : Outcome AllocError Infrastructure := do
  rejectIf
    (!infrastructure.pinned || source.remaining == 0 ||
      infrastructure.retiredSources.length == maxKernelUntypeds || infrastructure.owns source.cap)
    .noKernelUntyped
  rejectIf (2 ^ 64 ≤ infrastructure.ownedBytes + source.remaining) Funding.overflow
  pure
    { infrastructure with
      retiredSources := infrastructure.retiredSources ++ [infrastructure.source]
      ownedBytes := infrastructure.ownedBytes + source.remaining
      source := some source }

def adoptPinnedSource (infrastructure : Infrastructure) (maxKernelUntypeds : Nat)
    (source : UntypedRegion) : Outcome AllocError Infrastructure := do
  rejectIf (source.watermark == 0) .noKernelUntyped
  infrastructure.adoptSource maxKernelUntypeds source

def adoptExtentSource (infrastructure : Infrastructure) (maxKernelUntypeds : Nat)
    (source : UntypedRegion) : Outcome AllocError Infrastructure := do
  rejectIf (source.watermark != 0) .noKernelUntyped
  infrastructure.adoptSource maxKernelUntypeds source

/-- The objects of a page come out of the source in use. -/
def spend (infrastructure : Infrastructure) (bytes : Nat) : Infrastructure :=
  { infrastructure with
    source := infrastructure.source.map fun source =>
      { source with watermark := min source.capacity (source.watermark + bytes) } }

end Infrastructure

/-- What a page of records or a leaf of slots asks of the root's own memory: the bytes to have
at hand, one request after the other, what it spends of them, and whether it fails then. -/
structure PageDemand where
  replenish : List Nat
  spent : Nat
  failure : Option AllocError

/-- How the kernel and ordinary memory answer, by the number of the answer. -/
structure BackingKernel where
  retypeFailure : Nat → Option KernelError
  revokeFailure : Nat → Option KernelError
  deleteFailure : Nat → Option AllocError
  page : Nat → PageDemand
  leaf : Nat → PageDemand
  /-- The pages that the records of allocations lack, which are kept apart. -/
  descriptors : Nat → List PageDemand
  inventory : Nat → UInt64
  placement : Nat → Except AllocError Nat

structure Backing (maxKernelUntypeds : Nat) where
  extents : ExtentTable
  extentsReused : Nat
  slots : RootSlots.SlotPool maxKernelUntypeds
  slotsAllocated : Nat
  slotsReused : Nat
  infrastructureSlotNext : Nat
  reservedSlots : Nat
  operationalResources : Resources
  operationalLent : Bool
  untypeds : List UntypedRegion
  infrastructure : Infrastructure
  adaptiveFunding : Option Funding
  adaptiveReserve : Option UInt64
  /-- The serial of the arena at each index that has one. -/
  arenas : Nat → Option Nat
  nextArenaSerial : Nat
  /-- The ranges of ordinary memory that extents were retyped from, by address and size bits. -/
  roots : List (Nat × Nat)
  clock : Nat

variable {maxKernelUntypeds : Nat}

namespace Backing

def operationalFloor (backing : Backing maxKernelUntypeds) (count : UInt64) : Nat :=
  if backing.operationalLent then 0 else count.toNat

def freeSlots (backing : Backing maxKernelUntypeds) : Nat :=
  backing.slots.free - backing.reservedSlots -
    backing.operationalFloor backing.operationalResources.slots

def extentDescriptorsFree (backing : Backing maxKernelUntypeds) : Nat :=
  backing.extents.records.length - backing.extents.present -
    backing.operationalFloor backing.operationalResources.extents

def untypedBytesRemaining (backing : Backing maxKernelUntypeds) : Nat :=
  (backing.untypeds.map UntypedRegion.remaining).sum

def isSplitChild (backing : Backing maxKernelUntypeds) (index : Nat) : Bool :=
  backing.extents.records.any fun entry => entry.any fun extent =>
    extent.split && extent.children.any fun children =>
      children.1 == index || children.2 == index

/-- The free extents a test accepts, with their indices. -/
def freeExtents (backing : Backing maxKernelUntypeds) (accept : ExtentRecord → Bool) :
    List (Nat × ExtentRecord) :=
  (List.range backing.extents.records.length).filterMap fun index =>
    ((backing.extents.read index).filter fun extent =>
      extent.isCommonFree && accept extent).map fun extent => (index, extent)

def mergeableExtent (backing : Backing maxKernelUntypeds) : Option Nat :=
  (List.range backing.extents.records.length).find? fun index =>
    (backing.extents.read index).any fun extent =>
      extent.split && extent.children.all fun children =>
        (backing.extents.read children.1).any ExtentRecord.isCommonFree &&
          (backing.extents.read children.2).any ExtentRecord.isCommonFree

end Backing

abbrev BackingCall (maxKernelUntypeds : Nat) := Call (Backing maxKernelUntypeds) AllocError

section Answers

def nextAnswer : BackingCall maxKernelUntypeds Nat := fun backing =>
  (.ok backing.clock, { backing with clock := backing.clock + 1 })

/-- A kernel call whose failure is given from outside. -/
def invoke {ε : Type} (failure : Nat → Option ε) (wrap : ε → AllocError) :
    BackingCall maxKernelUntypeds Unit := do
  let now ← nextAnswer
  match failure now with
  | some error => Call.lift (.error (.returned (wrap error)))
  | none => pure ()

def setExtents (table : Outcome AllocError ExtentTable) : BackingCall maxKernelUntypeds Unit := do
  let table ← Call.lift table
  Call.modify fun backing => { backing with extents := table }

def setExtent (index : Nat) (entry : Option ExtentRecord) :
    BackingCall maxKernelUntypeds Unit := do
  let backing ← Call.read
  setExtents (backing.extents.set index entry)

def updateExtent (index : Nat) (change : ExtentRecord → ExtentRecord) :
    BackingCall maxKernelUntypeds Unit := do
  let backing ← Call.read
  setExtents (backing.extents.update index change)

def updatePresentExtent (index : Nat) (change : ExtentRecord → ExtentRecord) :
    BackingCall maxKernelUntypeds Unit :=
  Call.modify fun backing =>
    { backing with extents := backing.extents.updatePresent index change }

def extentAt (index : Nat) : BackingCall maxKernelUntypeds ExtentRecord := do
  let backing ← Call.read
  Call.lift (unwrap (backing.extents.read index))

def slotError : RootSlots.AllocError → AllocError
  | .noKernelUntyped => .noKernelUntyped
  | .slotsExhausted allocated => .slotsExhausted allocated

def onSlots {α : Type} (call : RootSlots.PoolCall maxKernelUntypeds α) :
    BackingCall maxKernelUntypeds α := fun backing =>
  match call backing.slots with
  | (.ok a, slots) => (.ok a, { backing with slots := slots })
  | (.error (.returned error), slots) =>
    (.error (.returned (slotError error)), { backing with slots := slots })
  | (.error .panicked, slots) => (.error .panicked, { backing with slots := slots })
  | (.error .diverged, slots) => (.error .diverged, { backing with slots := slots })

def releaseRootSlot (slot : Nat) : BackingCall maxKernelUntypeds Unit := do
  let _ ← onSlots (RootSlots.release slot)

end Answers

section Calls

variable (kernel : BackingKernel) (maxTaskExtents : Nat)

def inventoryNow : BackingCall maxKernelUntypeds UInt64 := do
  let now ← nextAnswer
  pure (kernel.inventory now)

def checkAgainstReserve (reserve : Option UInt64) (inventory bytes : UInt64) :
    Outcome AllocError Unit :=
  match reserve with
  | some floor => do
    let _ ← Funding.new inventory floor bytes 0
    pure ()
  | none => pure ()

def checkCommonFunding (bytes : Nat) : BackingCall maxKernelUntypeds Unit := do
  let inventory ← inventoryNow kernel
  let backing ← Call.read
  match backing.adaptiveFunding with
  | some funding => Call.lift (funding.checkPayload inventory (UInt64.ofNat bytes))
  | none =>
    Call.lift (checkAgainstReserve backing.adaptiveReserve inventory (UInt64.ofNat bytes))

def checkRootFunding (bytes : Nat) : BackingCall maxKernelUntypeds Unit := do
  let inventory ← inventoryNow kernel
  let backing ← Call.read
  match backing.adaptiveFunding with
  | some funding => Call.lift (funding.checkRoot inventory (UInt64.ofNat bytes))
  | none =>
    Call.lift (checkAgainstReserve backing.adaptiveReserve inventory (UInt64.ofNat bytes))

def consumeFunding (take : Funding → Outcome AllocError Funding) :
    BackingCall maxKernelUntypeds Unit := do
  let backing ← Call.read
  match backing.adaptiveFunding with
  | some funding => do
    let funding ← Call.lift (take funding)
    Call.modify fun backing => { backing with adaptiveFunding := some funding }
  | none => pure ()

def consumePayloadFunding (bytes : Nat) : BackingCall maxKernelUntypeds Unit :=
  consumeFunding fun funding => funding.takePayload (UInt64.ofNat bytes)

def consumeRootFunding (bytes : Nat) : BackingCall maxKernelUntypeds Unit :=
  consumeFunding fun funding => funding.takeRoot (UInt64.ofNat bytes)

/-- Take the smallest free extent that fits for the root's own records. A half of a split
extent costs as much as an extent one size up, since its buddy never merges again. -/
def adoptReturnedExtent (bytes : Nat) : BackingCall maxKernelUntypeds Unit := do
  let backing ← Call.read
  let candidates := backing.freeExtents fun extent => bytes ≤ 2 ^ extent.sizeBits
  let cost := fun (candidate : Nat × ExtentRecord) =>
    let child := if backing.isSplitChild candidate.1 then 1 else 0
    2 * (candidate.2.sizeBits + child) + child
  let (index, extent) ← Call.lift (okOr (firstMinBy cost candidates) .noKernelUntyped)
  checkRootFunding kernel (2 ^ extent.sizeBits)
  let infrastructure ← Call.lift (backing.infrastructure.adoptExtentSource maxKernelUntypeds
    ⟨extent.parent, extent.paddr, extent.sizeBits, 0⟩)
  Call.modify fun backing => { backing with infrastructure := infrastructure }
  consumeRootFunding (2 ^ extent.sizeBits)
  updateExtent index fun record => record.assign infrastructureOwner .infrastructure

/-- The refusal of the root's own memory stands in for every error but that of the funding. -/
def refuseReplenish (remaining : Nat) : AllocError → AllocError
  | .adaptiveFunding resource required available => .adaptiveFunding resource required available
  | _ => .untypedExhausted granuleBits remaining

/-- The used tail of ordinary memory with the least room that is enough. -/
def Backing.smallestTail (backing : Backing maxKernelUntypeds) (bytes : Nat) :
    Option (UntypedRegion × Nat) :=
  firstMinBy (fun tail => tail.1.remaining)
    (backing.untypeds.zipIdx.filter fun tail =>
      tail.1.watermark != 0 && bytes ≤ tail.1.remaining)

def replenishInfrastructure (bytes : Nat) : BackingCall maxKernelUntypeds Unit := do
  let backing ← Call.read
  if backing.infrastructure.needsSource bytes then
    match backing.smallestTail bytes with
    | none =>
      Call.wrapErr (refuseReplenish backing.untypedBytesRemaining)
        (adoptReturnedExtent kernel bytes)
    | some (source, index) => do
      checkRootFunding kernel source.remaining
      let infrastructure ← Call.lift
        (backing.infrastructure.adoptPinnedSource maxKernelUntypeds source)
      Call.modify fun backing => { backing with infrastructure := infrastructure }
      consumeRootFunding source.remaining
      Call.modify fun backing =>
        { backing with
          untypeds := backing.untypeds.set index { source with watermark := source.capacity } }
  else pure ()

def fund (demand : Nat → PageDemand) : BackingCall maxKernelUntypeds Unit := do
  let now ← nextAnswer
  let page := demand now
  page.replenish.foldlM (fun _ bytes => replenishInfrastructure kernel bytes) ()
  Call.modify fun backing =>
    { backing with infrastructure := backing.infrastructure.spend page.spent }
  match page.failure with
  | some error => Call.lift (.error (.returned error))
  | none => pure ()

def ensureExtentDescriptorsLoop (free : Nat) : Nat → BackingCall maxKernelUntypeds Unit
  | 0 => Call.lift (.error .diverged)
  | fuel + 1 => do
    let backing ← Call.read
    if backing.extentDescriptorsFree < free then
      Call.rejectIf (2 ^ 32 - 1 ≤ backing.extents.records.length + extentsPerPage)
        (.arenaTableFull backing.extents.records.length)
      fund kernel kernel.page
      Call.modify fun backing => { backing with extents := backing.extents.append }
      ensureExtentDescriptorsLoop free fuel
    else pure ()

/-- A page of entries for every record that is missing is more than enough of them. -/
def ensureExtentDescriptors (free : Nat) : BackingCall maxKernelUntypeds Unit := do
  let backing ← Call.read
  Call.rejectIf backing.extents.isOutOfStep (.arenaTableFull maxTaskExtents)
  ensureExtentDescriptorsLoop kernel free
    (backing.operationalFloor backing.operationalResources.extents + free + 1)

def ensureLeafWords : BackingCall maxKernelUntypeds Unit := do
  let backing ← Call.read
  if backing.slots.metadataFree < leafSlots / 64 then do
    fund kernel kernel.page
    onSlots (RootSlots.provision (leafSlots / 64))
  else pure ()

def admitLeaf : BackingCall maxKernelUntypeds Unit := do
  ensureLeafWords kernel
  fund kernel kernel.leaf
  let backing ← Call.read
  let base := backing.infrastructureSlotNext
  onSlots (RootSlots.admitRange ⟨UInt64.ofNat base, UInt64.ofNat (base + leafSlots)⟩)
  Call.modify fun backing => { backing with infrastructureSlotNext := base + leafSlots }

def ensureRootSlotsLoop (free : Nat) : Nat → BackingCall maxKernelUntypeds Unit
  | 0 => Call.lift (.error .diverged)
  | fuel + 1 => do
    let backing ← Call.read
    if backing.freeSlots < free then
      admitLeaf kernel
      ensureRootSlotsLoop free fuel
    else pure ()

def ensureRootSlots (free : Nat) : BackingCall maxKernelUntypeds Unit := do
  let backing ← Call.read
  ensureRootSlotsLoop kernel free
    (backing.reservedSlots + backing.operationalFloor backing.operationalResources.slots + free + 1)

def ensureContiguousRootSlots (count : Nat) : BackingCall maxKernelUntypeds Unit := do
  let backing ← Call.read
  Call.rejectIf (count == 0 || leafSlots < count) (.slotsExhausted backing.slotsAllocated)
  ensureRootSlots kernel count
  let backing ← Call.read
  if (backing.slots.contiguous count none false).isNone then
    ensureRootSlots kernel (backing.freeSlots + leafSlots)
  else pure ()

def takeSlot : BackingCall maxKernelUntypeds Nat := do
  ensureRootSlots kernel 1
  let backing ← Call.read
  let (slot, reused) ← onSlots (RootSlots.allocate backing.slotsAllocated)
  Call.modify fun backing =>
    { backing with
      slotsReused := backing.slotsReused + if reused then 1 else 0
      slotsAllocated := backing.slotsAllocated + 1 }
  pure slot

def Backing.vacantPair (backing : Backing maxKernelUntypeds) : Option (Nat × Nat) :=
  match (List.range backing.extents.records.length).filter backing.extents.vacantAt with
  | first :: second :: _ => some (first, second)
  | _ => none

def half (parent : ExtentRecord) (slot side : Nat) : ExtentRecord :=
  ExtentRecord.new slot (parent.sizeBits - 1) (parent.paddr + side * 2 ^ (parent.sizeBits - 1))

def retypeHalves (parent : ExtentRecord) (first : Nat) : BackingCall maxKernelUntypeds Unit := do
  match ← Call.attempt (invoke kernel.retypeFailure (.retype (parent.sizeBits - 1))) with
  | .error error => do
    releaseRootSlot first
    releaseRootSlot (first + 1)
    Call.lift (.error (.returned error))
  | .ok () => pure ()

/-- Halve one free extent and answer its lower half. The extent is looked at only after its
records and slots are secured, since that can adopt the extent itself. -/
def splitExtentWith (index : Nat) : BackingCall maxKernelUntypeds (Option Nat) := do
  ensureExtentDescriptors kernel maxTaskExtents 2
  ensureContiguousRootSlots kernel 2
  let parent ← extentAt index
  if !parent.isCommonFree then pure none
  else
    Call.rejectIf (parent.sizeBits ≤ granuleBits) .noKernelUntyped
    let backing ← Call.read
    let (low, high) ← Call.lift (okOr backing.vacantPair (.arenaTableFull maxTaskExtents))
    let (first, reused) ← onSlots (RootSlots.allocateContiguous 2 backing.slotsAllocated)
    retypeHalves kernel parent first
    Call.modify fun backing =>
      { backing with
        slotsAllocated := backing.slotsAllocated + 2
        slotsReused := backing.slotsReused + reused }
    setExtent low (some (half parent first 0))
    setExtent high (some (half parent (first + 1) 1))
    updateExtent index fun record => { record with split := true, children := some (low, high) }
    pure (some low)

def dropHalf (child : Nat) : BackingCall maxKernelUntypeds Unit := do
  let extent ← extentAt child
  releaseRootSlot extent.parent
  setExtent child none

def mergeExtent (index : Nat) : BackingCall maxKernelUntypeds Unit := do
  let parent ← extentAt index
  invoke kernel.revokeFailure (.arenaCleanup parent.parent)
  let (low, high) ← Call.lift (unwrap parent.children)
  dropHalf low
  dropHalf high
  updateExtent index fun record => { record with split := false, children := none }

def coalesceLoop : Nat → BackingCall maxKernelUntypeds Unit
  | 0 => Call.lift (.error .diverged)
  | fuel + 1 => do
    let backing ← Call.read
    match backing.mergeableExtent with
    | none => pure ()
    | some index => do
      mergeExtent kernel index
      coalesceLoop fuel

/-- Merge every split extent whose halves are both free. There is one pass for each entry of
the table and the last one. -/
def coalesceExtentsWith : BackingCall maxKernelUntypeds Unit := do
  let backing ← Call.read
  coalesceLoop kernel (backing.extents.records.length + 1)

def takeCommon (sizeBits index : Nat) : BackingCall maxKernelUntypeds Nat := do
  checkCommonFunding kernel (2 ^ sizeBits)
  consumePayloadFunding (2 ^ sizeBits)
  Call.modify fun backing => { backing with extentsReused := backing.extentsReused + 1 }
  pure index

def reusableExtent (sizeBits : Nat) : BackingCall maxKernelUntypeds (Option Nat) := fun backing =>
  let (found, extents) := backing.extents.reusable sizeBits
  (.ok found, { backing with extents := extents })

/-- Halve an extent until it has the size asked for. The halves go down one size a time. -/
def splitDown (sizeBits : Nat) : Nat → Nat → BackingCall maxKernelUntypeds (Option Nat)
  | 0, _ => Call.lift (.error .diverged)
  | fuel + 1, index => do
    let extent ← extentAt index
    if extent.sizeBits = sizeBits then
      let index ← takeCommon kernel sizeBits index
      pure (some index)
    else
      match ← splitExtentWith kernel maxTaskExtents index with
      | some child => splitDown sizeBits fuel child
      | none => pure none

/-- Try again when the extent chosen was adopted while its split was funded. -/
def selectSplit (sizeBits : Nat) : Nat → BackingCall maxKernelUntypeds Nat
  | 0 => Call.lift (.error (.returned .noKernelUntyped))
  | tries + 1 => do
    match ← reusableExtent sizeBits with
    | some index => takeCommon kernel sizeBits index
    | none => do
      let backing ← Call.read
      let candidates := backing.freeExtents fun extent => sizeBits < extent.sizeBits
      let (index, extent) ← Call.lift
        (okOr (firstMinBy (·.2.sizeBits) candidates) .noKernelUntyped)
      match ← splitDown kernel maxTaskExtents sizeBits (extent.sizeBits + 1) index with
      | some index => pure index
      | none => selectSplit sizeBits tries

/-- Serve a request from returned extents by splitting a larger one. A merge that fails leaves
its halves free, and another extent may still be split. -/
def acquireSplitExtentWith (sizeBits : Nat) : BackingCall maxKernelUntypeds Nat := do
  let _ ← (Call.attempt (coalesceExtentsWith kernel) :
    BackingCall maxKernelUntypeds (Except AllocError Unit))
  selectSplit kernel maxTaskExtents sizeBits maxSplitReselections

/-- What ordinary memory can place, with the range it gives up. -/
def allocateFromGlobal (sizeBits : Nat) : BackingCall maxKernelUntypeds Nat := do
  let now ← nextAnswer
  match kernel.placement now with
  | .error error => Call.lift (.error (.returned error))
  | .ok paddr => do
    checkCommonFunding kernel (2 ^ sizeBits)
    consumePayloadFunding (2 ^ sizeBits)
    Call.modify fun backing => { backing with roots := backing.roots ++ [(paddr, sizeBits)] }
    pure paddr

/-- The refusal of ordinary memory stands in for every error of the split but that of the
funding. -/
def refuseSplit (refusal : AllocError) : AllocError → AllocError
  | .adaptiveFunding resource required available => .adaptiveFunding resource required available
  | _ => refusal

def isFunding : AllocError → Bool
  | .adaptiveFunding .. => true
  | _ => false

/-- An extent of this size that is free: a returned one, a fresh one, or a half of a larger. -/
def acquireExtentRecord (sizeBits : Nat) : BackingCall maxKernelUntypeds Nat := do
  checkCommonFunding kernel (2 ^ sizeBits)
  match ← reusableExtent sizeBits with
  | some index => do
    consumePayloadFunding (2 ^ sizeBits)
    Call.modify fun backing => { backing with extentsReused := backing.extentsReused + 1 }
    pure index
  | none => do
    ensureExtentDescriptors kernel maxTaskExtents 1
    let backing ← Call.read
    let (vacancy, extents) := backing.extents.firstVacancy
    Call.modify fun backing => { backing with extents := extents }
    let index ← Call.lift (okOr vacancy (.arenaTableFull maxTaskExtents))
    let parentSlot ← takeSlot kernel
    match ← Call.attempt (allocateFromGlobal kernel sizeBits) with
    | .error error => do
      releaseRootSlot parentSlot
      if isFunding error then Call.lift (.error (.returned error))
      else
        Call.wrapErr (refuseSplit error)
          (acquireSplitExtentWith kernel maxTaskExtents sizeBits)
    | .ok paddr => do
      setExtent index (some (.new parentSlot sizeBits paddr))
      pure index

def Backing.checkArena (backing : Backing maxKernelUntypeds) (id : TaskArenaId) :
    Outcome AllocError Unit :=
  rejectIf (!(id.index < maxTaskArenas && backing.arenas id.index == some id.serial))
    (.unknownArena id)

def provisionExtent (id : TaskArenaId) (sizeBits : Nat) (kind : ExtentKind) :
    BackingCall maxKernelUntypeds Nat := do
  let backing ← Call.read
  Call.lift (backing.checkArena id)
  let index ← acquireExtentRecord kernel maxTaskExtents sizeBits
  updateExtent index fun extent => extent.assign id kind
  pure index

def takeReservedExtent (reservation : Nat) (kind : ExtentKind) (sizeBits : Nat) :
    BackingCall maxKernelUntypeds Nat := do
  let index ← acquireExtentRecord kernel maxTaskExtents sizeBits
  updateExtent index fun record => record.reserve reservation kind
  pure index

def returnReservedExtent (index : Nat) : BackingCall maxKernelUntypeds Unit :=
  updatePresentExtent index ExtentRecord.unreserve

/-- An idle extent of a reservation goes to an arena and keeps its origin. There may be
none. -/
def borrowReserved (reservation : Nat) (id : TaskArenaId) (kind : ExtentKind) (sizeBits : Nat) :
    BackingCall maxKernelUntypeds (Option Nat) := do
  let backing ← Call.read
  Call.lift (backing.checkArena id)
  match (List.range backing.extents.records.length).find? fun index =>
      (backing.extents.read index).any fun extent =>
        extent.reservedBy reservation && extent.kind == kind && extent.sizeBits == sizeBits &&
          !extent.revoked with
  | none => pure none
  | some index => do
    updateExtent index fun record => record.assign id kind
    pure (some index)

/-- An arena's extent is revoked once; a later failure does not revoke it again. -/
def revokeExtent (id : TaskArenaId) (index : Nat) : BackingCall maxKernelUntypeds Unit := do
  let backing ← Call.read
  match (backing.extents.read index).filter fun extent =>
      extent.belongsTo id && !extent.revoked with
  | none => pure ()
  | some extent => do
    invoke kernel.revokeFailure (.arenaCleanup extent.parent)
    updateExtent index fun record => { record with revoked := true, objects := 0, bytes := 0 }

def settleReturnedExtent (index : Nat) : BackingCall maxKernelUntypeds Unit :=
  updatePresentExtent index ExtentRecord.settle

def settleExtent (id : TaskArenaId) (index : Nat) : BackingCall maxKernelUntypeds Unit := do
  let backing ← Call.read
  if (backing.extents.read index).any fun extent => extent.belongsTo id then
    settleReturnedExtent index
  else pure ()

def forgetArena (id : TaskArenaId) (backing : Backing maxKernelUntypeds) :
    Backing maxKernelUntypeds :=
  { backing with
    arenas := Function.update backing.arenas id.index none
    extents :=
      if h : id.index < maxTaskArenas then backing.extents.resetArena ⟨id.index, h⟩
      else backing.extents }

def ensureAllocationDescriptors : BackingCall maxKernelUntypeds Unit := do
  let now ← nextAnswer
  (kernel.descriptors now).foldlM (fun _ page => fund kernel fun _ => page) ()

/-- The entry of a new arena that gets no extent is cleared again. -/
def orForget (id : TaskArenaId) (provisioned : BackingCall maxKernelUntypeds Nat) :
    BackingCall maxKernelUntypeds TaskArenaId := fun backing =>
  match provisioned backing with
  | (.ok _, backing) => (.ok id, backing)
  | (.error fault, backing) => (.error fault, forgetArena id backing)

def beginTaskArena (sizeBits : Nat) : BackingCall maxKernelUntypeds TaskArenaId := do
  ensureAllocationDescriptors kernel
  let backing ← Call.read
  let vacancy := (List.range maxTaskArenas).find? fun index => (backing.arenas index).isNone
  let index ← Call.lift (okOr vacancy (.arenaTableFull maxTaskArenas))
  let id : TaskArenaId := ⟨index, backing.nextArenaSerial⟩
  Call.modify fun backing =>
    { forgetArena id backing with
      arenas := Function.update backing.arenas index (some id.serial)
      nextArenaSerial := max ((id.serial + 1) % 2 ^ 32) 1 }
  orForget id (provisionExtent kernel maxTaskExtents id sizeBits .static)

def releaseTaskArena (id : TaskArenaId) : BackingCall maxKernelUntypeds Unit := do
  let backing ← Call.read
  Call.lift (backing.checkArena id)
  (List.range backing.extents.records.length).foldlM
    (fun _ index => revokeExtent kernel id index) ()
  invoke kernel.deleteFailure fun error => error
  (List.range backing.extents.records.length).foldlM (fun _ index => settleExtent id index) ()
  Call.modify (forgetArena id)

end Calls

inductive BackingOperation where
  | split (index : Nat)
  | coalesce
  | begin (sizeBits : Nat)
  | provision (id : TaskArenaId) (sizeBits : Nat) (kind : ExtentKind)
  | reserve (reservation : Nat) (kind : ExtentKind) (sizeBits : Nat)
  | unreserve (index : Nat)
  | borrow (reservation : Nat) (id : TaskArenaId) (kind : ExtentKind) (sizeBits : Nat)
  | release (id : TaskArenaId)
  | adopt (bytes : Nat)
deriving DecidableEq

def BackingOperation.perform (kernel : BackingKernel) (maxTaskExtents : Nat) :
    BackingOperation → BackingCall maxKernelUntypeds Unit
  | .split index => do
    let _ ← splitExtentWith kernel maxTaskExtents index
  | .coalesce => coalesceExtentsWith kernel
  | .begin sizeBits => do
    let _ ← beginTaskArena kernel maxTaskExtents sizeBits
  | .provision id sizeBits kind => do
    let _ ← provisionExtent kernel maxTaskExtents id sizeBits kind
  | .reserve reservation kind sizeBits => do
    let _ ← takeReservedExtent kernel maxTaskExtents reservation kind sizeBits
  | .unreserve index => returnReservedExtent index
  | .borrow reservation id kind sizeBits => do
    let _ ← borrowReserved reservation id kind sizeBits
  | .release id => releaseTaskArena kernel id
  | .adopt bytes => adoptReturnedExtent kernel bytes

def backingStep (kernel : BackingKernel) (maxTaskExtents : Nat)
    (backing : Backing maxKernelUntypeds) (operation : BackingOperation) :
    Backing maxKernelUntypeds :=
  (operation.perform kernel maxTaskExtents backing).2

end SlimeOs.ExtentBuddy
