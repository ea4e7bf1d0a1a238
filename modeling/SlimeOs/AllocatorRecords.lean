import SlimeOs.PrivateMemoryResources

/-!
The records the root's object allocator keeps of the memory it hands out: ordinary untyped
regions, extents retyped from them, and the funding of one attempt to take more.
-/

namespace SlimeOs.ObjectAllocator

open CheckedWord FallibleCall FallibleCall.Outcome PrivateMemoryResources

def granuleBits : Nat := 12
def maxTaskArenas : Nat := 48
def leafSlots : Nat := 1024
def extentsPerPage : Nat := 56

structure TaskArenaId where
  index : Nat
  serial : Nat
deriving DecidableEq

inductive KernelError where
  | invalidArgument
  | invalidCapability
  | illegalOperation
  | rangeError
  | alignmentError
  | failedLookup
  | truncatedMessage
  | deleteFirst
  | revokeFirst
  | notEnoughMemory
deriving DecidableEq

inductive AllocError where
  | noKernelUntyped
  | adaptiveFunding (resource : String) (required available : UInt64)
  | slotsExhausted (allocated : Nat)
  | untypedExhausted (sizeBits remaining : Nat)
  | untypedTableFull (limit declared : Nat)
  | retype (sizeBits : Nat) (error : KernelError)
  | arenaTableFull (limit : Nat)
  | arenaTooSmall (sizeBits required : Nat)
  | arenaSlotTableFull (limit : Nat)
  | unknownArena (id : TaskArenaId)
  | arenaCleanup (slot : Nat) (error : KernelError)
deriving DecidableEq

inductive ExtentKind where
  | static
  | privateData
  | privateTables
  | mappingTables
  | infrastructure
deriving DecidableEq

structure UntypedRegion where
  cap : Nat
  paddr : Nat
  sizeBits : Nat
  watermark : Nat
deriving DecidableEq

namespace UntypedRegion

def capacity (region : UntypedRegion) : Nat := 2 ^ region.sizeBits

def remaining (region : UntypedRegion) : Nat := region.capacity - region.watermark

end UntypedRegion

/-- An extent: an untyped the root retyped for a task arena, a reservation or itself. -/
structure ExtentRecord where
  parent : Nat
  paddr : Nat
  sizeBits : Nat
  /-- The arena that holds the extent, while it is active. -/
  owner : Option TaskArenaId
  kind : ExtentKind
  revoked : Bool
  watermark : Nat
  objects : Nat
  bytes : Nat
  /-- The reservation that owns the extent across borrows. -/
  origin : Option Nat
  split : Bool
  /-- The two halves of a split extent. -/
  children : Option (Nat × Nat)
deriving DecidableEq

namespace ExtentRecord

def new (parent sizeBits paddr : Nat) : ExtentRecord :=
  { parent := parent
    paddr := paddr
    sizeBits := sizeBits
    owner := none
    kind := .static
    revoked := false
    watermark := 0
    objects := 0
    bytes := 0
    origin := none
    split := false
    children := none }

def assign (extent : ExtentRecord) (id : TaskArenaId) (kind : ExtentKind) : ExtentRecord :=
  { extent with
    owner := some id
    kind := kind
    revoked := false
    watermark := 0
    objects := 0
    bytes := 0 }

def reserve (extent : ExtentRecord) (reservation : Nat) (kind : ExtentKind) : ExtentRecord :=
  { extent with
    owner := none
    kind := kind
    revoked := false
    watermark := 0
    objects := 0
    bytes := 0
    origin := some reservation }

def unreserve (extent : ExtentRecord) : ExtentRecord := { extent with origin := none }

/-- The return of an extent whose children are gone. -/
def settle (extent : ExtentRecord) : ExtentRecord :=
  { extent with
    owner := none
    revoked := false
    watermark := 0
    objects := 0
    bytes := 0 }

def isReserved (extent : ExtentRecord) : Bool := extent.origin.isSome && extent.owner.isNone

def isBorrowed (extent : ExtentRecord) : Bool := extent.origin.isSome && extent.owner.isSome

def ownedByReservation (extent : ExtentRecord) (reservation : Nat) : Bool :=
  extent.origin == some reservation

def reservedBy (extent : ExtentRecord) (reservation : Nat) : Bool :=
  extent.isReserved && extent.ownedByReservation reservation

def isCommonFree (extent : ExtentRecord) : Bool :=
  extent.owner.isNone && !extent.split && extent.origin.isNone

def belongsTo (extent : ExtentRecord) (id : TaskArenaId) : Bool := extent.owner == some id

end ExtentRecord

/-- Where an object lands under the kernel's object-size alignment: its start and end. -/
def planAllocation (watermark capacity sizeBits : Nat) : Option (Nat × Nat) :=
  let size := 2 ^ sizeBits
  let start := (watermark + (size - 1)) / size * size
  if start + size ≤ capacity then some (start, start + size) else none

/-- What one attempt may take from the common pool: payload, and sources adopted for the
root's own records. -/
structure Funding where
  floor : UInt64
  payload : UInt64
  rootRemaining : UInt64
  rootOwned : UInt64
deriving DecidableEq

namespace Funding

def overflow : AllocError := .adaptiveFunding "arithmetic" 0 0

def new (inventory floor payload rootAllowance : UInt64) : Outcome AllocError Funding := do
  let required ← okOr (checkedAdd floor payload) overflow
  rejectIf (inventory < required)
    (.adaptiveFunding "operational-reserve" required inventory)
  pure ⟨floor, payload, rootAllowance, 0⟩

def checkFloor (funding : Funding) (inventory bytes : UInt64) : Outcome AllocError Unit := do
  let required ← okOr (checkedAdd funding.floor bytes) overflow
  rejectIf (inventory < required)
    (.adaptiveFunding "operational-reserve" required inventory)

def checkPayload (funding : Funding) (inventory bytes : UInt64) : Outcome AllocError Unit := do
  rejectIf (funding.payload < bytes) (.adaptiveFunding "payload-funding" 0 0)
  funding.checkFloor inventory bytes

def takePayload (funding : Funding) (bytes : UInt64) : Outcome AllocError Funding := do
  let payload ← okOr (checkedSub funding.payload bytes)
    (.adaptiveFunding "payload-funding" 0 0)
  pure { funding with payload := payload }

def checkRoot (funding : Funding) (inventory bytes : UInt64) : Outcome AllocError Unit := do
  rejectIf (funding.rootRemaining < bytes)
    (.adaptiveFunding "root-funding" bytes funding.rootRemaining)
  let _ ← okOr (checkedAdd funding.rootOwned bytes) overflow
  let held ← okOr (checkedAdd funding.payload bytes) overflow
  funding.checkFloor inventory held

def takeRoot (funding : Funding) (bytes : UInt64) : Outcome AllocError Funding := do
  let remaining ← okOr (checkedSub funding.rootRemaining bytes)
    (.adaptiveFunding "root-funding" bytes funding.rootRemaining)
  let owned ← okOr (checkedAdd funding.rootOwned bytes) overflow
  pure { funding with rootRemaining := remaining, rootOwned := owned }

end Funding

end SlimeOs.ObjectAllocator
