import SlimeOs.ByteLayout
import SlimeOs.FallibleCall

/-!
The superblock sector of the object store: a fixed header covered by a CRC-32,
which is a parameter here. A sector is accepted only with the geometry the caller
established, and an encoded superblock is accepted exactly when its fields are
within bounds.
-/

namespace SlimeOs.StoreDisk

open ByteLayout FallibleCall FallibleCall.Outcome

def superblockMagic : Bytes 8 := #v[0x53, 0x4c, 0x49, 0x4d, 0x45, 0x53, 0x42, 0x00]
def recordMagic : Bytes 8 := #v[0x53, 0x4c, 0x49, 0x4d, 0x45, 0x4f, 0x52, 0x00]
def formatVersion : UInt32 := 1
def superblockHeader : Nat := 64
def recordHeader : Nat := 64
def recordAreaStart : UInt64 := 2
def slotALba : Nat := 0
def slotBLba : Nat := 1
def maxObjects : Nat := 64
def maxObjectPayload : Nat := 32768
def sectorBytes : Nat := 512
def maxSequence : UInt64 := 18446744073709551615

abbrev Sector := Bytes sectorBytes

inductive SuperblockError where
  | badMagic
  | unsupportedVersion
  | badHeaderSize
  | badCrc
  | badBounds
deriving DecidableEq

structure Superblock where
  sequence : UInt64
  appendLba : UInt64
  objectCount : UInt32
deriving DecidableEq

def Superblock.outOfBounds (superblock : Superblock) (partitionSectors : UInt64) : Bool :=
  decide (superblock.appendLba < recordAreaStart) ||
  decide (partitionSectors < superblock.appendLba) ||
  decide (maxObjects < superblock.objectCount.toNat) ||
  superblock.sequence == maxSequence

def superblockRecord (superblock : Superblock) (partitionSectors : UInt64) : Sector :=
  let sector : Sector := zeros sectorBytes
  let sector := splice sector 0 superblockMagic
  let sector := splice sector 8 (toLe32 formatVersion)
  let sector := splice sector 12 (toLe32 (UInt32.ofNat superblockHeader))
  let sector := splice sector 16 (toLe64 superblock.sequence)
  let sector := splice sector 24 (toLe64 superblock.appendLba)
  let sector := splice sector 32 (toLe32 superblock.objectCount)
  let sector := splice sector 36 (toLe32 0)
  let sector := splice sector 40 (toLe64 recordAreaStart)
  splice sector 48 (toLe64 partitionSectors)

section Codec

variable (crc32 : List UInt8 → UInt32)

def superblockCrc (sector : Sector) : UInt32 := crc32 (slice sector 0 60).toList

def encodeSuperblock (superblock : Superblock) (partitionSectors : UInt64) : Sector :=
  let sector := superblockRecord superblock partitionSectors
  splice sector 60 (toLe32 (superblockCrc crc32 sector))

def decodeSuperblock (sector : Sector) (partitionSectors : UInt64) :
    Outcome SuperblockError Superblock := do
  rejectIf (slice sector 0 8 != superblockMagic) .badMagic
  rejectIf (fromLe32 (slice sector 8 4) != formatVersion) .unsupportedVersion
  rejectIf (fromLe32 (slice sector 12 4) != UInt32.ofNat superblockHeader) .badHeaderSize
  let storedCrc := fromLe32 (slice sector 60 4)
  rejectIf (superblockCrc crc32 sector != storedCrc) .badCrc
  let superblock : Superblock :=
    { sequence := fromLe64 (slice sector 16 8)
      appendLba := fromLe64 (slice sector 24 8)
      objectCount := fromLe32 (slice sector 32 4) }
  let recordArea := fromLe64 (slice sector 40 8)
  let recordedPartition := fromLe64 (slice sector 48 8)
  rejectIf (recordArea != recordAreaStart || recordedPartition != partitionSectors ||
    superblock.outOfBounds partitionSectors) .badBounds
  pure superblock

theorem decode_encodeSuperblock (superblock : Superblock) (partitionSectors : UInt64) :
    decodeSuperblock crc32 (encodeSuperblock crc32 superblock partitionSectors) partitionSectors =
      if superblock.outOfBounds partitionSectors then .error (.returned .badBounds)
      else .ok superblock := by
  have hcrc : superblockCrc crc32 (encodeSuperblock crc32 superblock partitionSectors) =
      fromLe32 (slice (encodeSuperblock crc32 superblock partitionSectors) 60 4) := by
    rw [encodeSuperblock, slice_splice_same _ _ _ (by decide), fromLe32_toLe32]
    simp (disch := decide) only [superblockCrc, slice_splice_of_disjoint]
  unfold decodeSuperblock
  rw [hcrc]
  unfold encodeSuperblock
  simp (disch := decide) only [superblockRecord, slice_splice_same, slice_splice_of_disjoint,
    fromLe32_toLe32, fromLe64_toLe64, bne_self_eq_false, Bool.false_or]
  rcases superblock.outOfBounds partitionSectors <;> rfl

theorem decodeSuperblock_bounds {sector : Sector} {partitionSectors : UInt64}
    {superblock : Superblock}
    (h : decodeSuperblock crc32 sector partitionSectors = .ok superblock) :
    superblock.outOfBounds partitionSectors = false := by
  unfold decodeSuperblock at h
  simp only [bind_eq_ok_iff, rejectIf_eq_ok_iff, pure_eq_ok_iff,
    exists_const, Bool.or_eq_false_iff] at h
  obtain ⟨-, -, -, -, ⟨-, hbounds⟩, rfl⟩ := h
  exact hbounds

end Codec

theorem outOfBounds_eq_false_iff (superblock : Superblock) (partitionSectors : UInt64) :
    superblock.outOfBounds partitionSectors = false ↔ 2 ≤ superblock.appendLba.toNat ∧
      superblock.appendLba.toNat ≤ partitionSectors.toNat ∧
      superblock.objectCount.toNat ≤ maxObjects ∧ superblock.sequence ≠ maxSequence := by
  have hstart : recordAreaStart.toNat = 2 := rfl
  simp only [Superblock.outOfBounds, Bool.or_eq_false_iff, decide_eq_false_iff_not,
    UInt64.lt_iff_toNat_lt, not_lt, hstart, beq_eq_false_iff_ne, and_assoc]

end SlimeOs.StoreDisk
