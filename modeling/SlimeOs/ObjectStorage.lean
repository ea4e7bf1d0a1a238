import SlimeOs.BlockDevice
import SlimeOs.CheckedWord
import SlimeOs.StoreDisk

/-!
The content-addressed object store over a block device: opening a partition,
reading and scrubbing objects, and appending one with a commit of the older
superblock slot. SHA-256 and CRC-32 are parameters.
-/

namespace SlimeOs.ObjectStorage

open BlockDevice ByteLayout CheckedWord FallibleCall FallibleCall.Outcome StoreDisk

abbrev Hash := Bytes 32

abbrev Disk := Nat → Sector

structure Partition where
  firstLba : UInt64
  lastLba : UInt64
deriving DecidableEq

inductive IoError where
  | device
  | timeout
deriving DecidableEq

inductive StoreError where
  | io (error : IoError)
  | partitionTooSmall
  | noValidSuperblock
  | corruptRecord
  | tooManyObjects
  | storeFull
  | notFound
  | payloadTooLarge
  | bufferTooSmall
  | duplicateIdentity
  | hashMismatch
deriving DecidableEq

/-- One indexed object: where it starts and how to address it by content. -/
structure Entry where
  hash : Hash
  objType : UInt32
  payloadLen : UInt32
  lba : UInt64
deriving DecidableEq

inductive Slot where
  | a
  | b
deriving DecidableEq

namespace Slot

def other : Slot → Slot
  | .a => .b
  | .b => .a

def lba : Slot → Nat
  | .a => slotALba
  | .b => slotBLba

end Slot

def recordSectors (payloadLen : UInt64) : Outcome StoreError UInt64 := do
  let bytes ← okOr (checkedAdd (UInt64.ofNat recordHeader) payloadLen) .corruptRecord
  pure (divCeil bytes (UInt64.ofNat sectorBytes))

def encodeRecordHeader (objType : UInt32) (payload : List UInt8) (hash : Hash) :
    Bytes recordHeader :=
  let header : Bytes recordHeader := zeros recordHeader
  let header := splice header 0 recordMagic
  let header := splice header 8 (toLe32 formatVersion)
  let header := splice header 12 (toLe32 (UInt32.ofNat recordHeader))
  let header := splice header 16 (toLe32 objType)
  let header := splice header 24 (toLe64 (UInt64.ofNat payload.length))
  splice header 32 hash

def decodeRecordHeader (sector : Sector) : Outcome StoreError Entry := do
  rejectIf (slice sector 0 8 != recordMagic) .corruptRecord
  rejectIf (fromLe32 (slice sector 8 4) != formatVersion) .corruptRecord
  rejectIf (fromLe32 (slice sector 12 4) != UInt32.ofNat recordHeader) .corruptRecord
  let payloadLen := fromLe64 (slice sector 24 8)
  rejectIf (maxObjectPayload < payloadLen.toNat) .corruptRecord
  pure
    { hash := slice sector 32 32
      objType := fromLe32 (slice sector 16 4)
      payloadLen := payloadLen.toUInt32
      lba := 0 }

/-- An open object store: validated metadata plus the bounded object index. -/
structure ObjectStore where
  firstLba : UInt64
  partitionSectors : UInt64
  sequence : UInt64
  appendLba : UInt64
  active : Slot
  entries : List Entry
deriving DecidableEq

def newestRoot : Option Superblock → Option Superblock → Option (Slot × Superblock)
  | some a, some b => if b.sequence ≤ a.sequence then some (.a, a) else some (.b, b)
  | some a, none => some (.a, a)
  | none, some b => some (.b, b)
  | none, none => none

/-- The scan of the committed record area. `room` is what the index still has room for. -/
def scan (first append : UInt64) (room : Nat) (lba : UInt64) (entries : List Entry) :
    Call (Device Sector) StoreError (List Entry) :=
  if lba < append then do
    let header ← readSector (first.toNat + lba.toNat)
    let entry ← Call.lift (decodeRecordHeader header)
    let sectors ← Call.lift (recordSectors entry.payloadLen.toUInt64)
    let stop ← Call.lift (okOr (checkedAdd lba sectors) .corruptRecord)
    Call.rejectIf (append < stop) .corruptRecord
    match room with
    | 0 => Call.lift (.error (.returned .tooManyObjects))
    | room + 1 => scan first append room stop (entries ++ [{ entry with lba := lba }])
  else pure entries

namespace ObjectStore

def readPayload (store : ObjectStore) (entry : Entry) :
    Call (Device Sector) StoreError (List UInt8) := do
  let sectors ← Call.lift (recordSectors entry.payloadLen.toUInt64)
  let bytes ← readSectors (store.firstLba.toNat + entry.lba.toNat) sectors.toNat
  pure (((bytes.flatMap Vector.toList).drop recordHeader).take entry.payloadLen.toNat)

def find (store : ObjectStore) (hash : Hash) : Option Entry :=
  store.entries.find? fun entry => entry.hash == hash

section

variable (crc32 : List UInt8 → UInt32) (sha256 : List UInt8 → Hash)

def openStore (partition : Partition) : Call (Device Sector) StoreError ObjectStore := do
  let partitionSectors ← Call.lift (okOr
    ((checkedSub partition.lastLba partition.firstLba).bind fun span => checkedAdd span 1)
    .partitionTooSmall)
  Call.rejectIf (partitionSectors < recordAreaStart + 1) .partitionTooSmall
  let sectorA ← readSector (partition.firstLba.toNat + slotALba)
  let slotA := (decodeSuperblock crc32 sectorA partitionSectors).toOption
  let sectorB ← readSector (partition.firstLba.toNat + slotBLba)
  let slotB := (decodeSuperblock crc32 sectorB partitionSectors).toOption
  let (active, superblock) ←
    Call.lift (okOr (newestRoot slotA slotB) .noValidSuperblock)
  let entries ← scan partition.firstLba superblock.appendLba maxObjects recordAreaStart []
  Call.rejectIf (entries.length != superblock.objectCount.toNat) .corruptRecord
  pure
    { firstLba := partition.firstLba
      partitionSectors := partitionSectors
      sequence := superblock.sequence
      appendLba := superblock.appendLba
      active := active
      entries := entries }

/-- The object type and the payload copied to a buffer of the given length. -/
def get (store : ObjectStore) (hash : Hash) (bufferLen : Nat) :
    Call (Device Sector) StoreError (UInt32 × List UInt8) := do
  let entry ← Call.lift (okOr (store.find hash) .notFound)
  Call.rejectIf (bufferLen < entry.payloadLen.toNat) .bufferTooSmall
  let payload ← store.readPayload entry
  Call.rejectIf (sha256 payload != hash) .hashMismatch
  pure (entry.objType, payload)

def scrubEntries (store : ObjectStore) : List Entry → Call (Device Sector) StoreError Unit
  | [] => pure ()
  | entry :: entries => do
    let payload ← store.readPayload entry
    Call.rejectIf (sha256 payload != entry.hash) .hashMismatch
    scrubEntries store entries

def scrub (store : ObjectStore) : Call (Device Sector) StoreError Unit :=
  store.scrubEntries sha256 store.entries

end

end ObjectStore

structure Session where
  store : ObjectStore
  device : Device Sector

def onDevice {α : Type} (call : Call (Device Sector) StoreError α) :
    Call Session StoreError α := fun session =>
  ((call session.device).1, { session with device := (call session.device).2 })

def recordBytes (objType : UInt32) (payload : List UInt8) (hash : Hash) (sectors : Nat) :
    List UInt8 :=
  (encodeRecordHeader objType payload hash).toList ++ payload ++
    List.replicate (sectors * sectorBytes - recordHeader - payload.length) 0

def recordImage (objType : UInt32) (payload : List UInt8) (hash : Hash) (sectors : Nat) :
    List Sector :=
  (List.range sectors).map fun index =>
    field (recordBytes objType payload hash sectors) (index * sectorBytes) sectorBytes

section Put

variable (crc32 : List UInt8 → UInt32) (sha256 : List UInt8 → Hash)
  (answers : Nat → Answer IoError)

/-- The commit order is record sectors, flush, superblock into the older slot, flush. The
handle advances once the superblock write has returned, before the last flush. -/
def append (store : ObjectStore) (objType : UInt32) (payload : List UInt8) (hash : Hash) :
    Call Session StoreError Hash := do
  Call.rejectIf (maxObjects ≤ store.entries.length) .storeFull
  let sectors ← Call.lift (recordSectors (UInt64.ofNat payload.length))
  let stop ← Call.lift (okOr (checkedAdd store.appendLba sectors) .storeFull)
  Call.rejectIf (store.partitionSectors < stop) .storeFull
  let nextSequence ← Call.lift (okOr (checkedAdd store.sequence 1) .storeFull)
  onDevice (Call.wrapErr .io (writeSectors answers (store.firstLba.toNat + store.appendLba.toNat)
    (recordImage objType payload hash sectors.toNat)))
  onDevice (Call.wrapErr .io (flush answers))
  let target := store.active.other
  let entry : Entry :=
    { hash := hash
      objType := objType
      payloadLen := UInt32.ofNat payload.length
      lba := store.appendLba }
  let superblock : Superblock :=
    { sequence := nextSequence
      appendLba := stop
      objectCount := UInt32.ofNat (store.entries.length + 1) }
  let sector := encodeSuperblock crc32 superblock store.partitionSectors
  onDevice (Call.wrapErr .io (writeSector answers (store.firstLba.toNat + target.lba) sector))
  Call.modify fun session =>
    { session with
      store := { store with
        sequence := superblock.sequence
        appendLba := stop
        active := target
        entries := store.entries ++ [entry] } }
  onDevice (Call.wrapErr .io (flush answers))
  pure hash

def put (objType : UInt32) (payload : List UInt8) : Call Session StoreError Hash := do
  Call.rejectIf (maxObjectPayload < payload.length) .payloadTooLarge
  let hash := sha256 payload
  let session ← Call.read
  match session.store.find hash with
  | some entry => do
    let existing ← onDevice (session.store.readPayload entry)
    Call.rejectIf (existing != payload) .duplicateIdentity
    pure hash
  | none => append crc32 answers session.store objType payload hash

end Put

end SlimeOs.ObjectStorage
