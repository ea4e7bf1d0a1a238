import SlimeOs.ByteLayout
import SlimeOs.CheckedWord
import SlimeOs.FallibleCall

/-!
The durable boot-state record: its slot image, the validator shared by both
directions, and the transitions between states. SHA-256 is a parameter; nothing
here depends on which function it is.

`Laid` says which bytes a state occupies. Encoding produces the only slot that
is laid out so, and decoding accepts exactly such slots, up to the one state the
wire form cannot express: an all-zero pending identity reads as none.
-/

namespace SlimeOs.BootStateCodec

open Bool ByteLayout CheckedWord FallibleCall FallibleCall.Outcome Option

abbrev Digest := Bytes 32

def magic : Bytes 8 := #v[0x53, 0x4c, 0x49, 0x4d, 0x45, 0x42, 0x53, 0x00]
def formatVersion : UInt32 := 2
def slotBytes : Nat := 512
def requiredFlags : UInt64 := 0
def releaseSequenceOffset : Nat := 168
def checksumOffset : Nat := 176
def checksumEnd : Nat := 208
def maxSequence : UInt64 := 18446744073709551615

structure BootState where
  sequence : UInt64
  knownGood : Digest
  pending : Option Digest
  remainingAttempts : UInt32
  generationRoot : Digest
  stateRoot : Digest
  acceptedReleaseSequence : UInt64
deriving DecidableEq

inductive BootStateError where
  | badMagic
  | unsupportedVersion
  | badHeaderSize
  | unknownRequiredFlags
  | maxSequence
  | zeroKnownGood
  | zeroGenerationRoot
  | badPendingAttempts
  | nonZeroReserved
  | badChecksum
deriving DecidableEq

inductive BootTransitionError where
  | noPending
  | attemptsExhausted
  | wrongRunningGeneration
  | staleRelease
  | sequenceExhausted
deriving DecidableEq

/-- The record fields of a slot, hashed with the checksum field read as zero. -/
def slotChecksum (sha256 : List UInt8 → Digest) (bytes : Bytes slotBytes) : Digest :=
  sha256 ((slice bytes 0 176).toList ++ (zeros 32).toList ++ (slice bytes 208 304).toList)

def validate (state : BootState) : Outcome BootStateError Unit := do
  rejectIf (state.sequence == maxSequence) .maxSequence
  rejectIf (state.knownGood == zeros 32) .zeroKnownGood
  rejectIf (state.generationRoot == zeros 32) .zeroGenerationRoot
  rejectIf (state.pending.isNone && state.remainingAttempts != 0) .badPendingAttempts

def record (state : BootState) : Bytes slotBytes :=
  let out := zeros slotBytes
  let out := splice out 0 magic
  let out := splice out 8 (toLe32 formatVersion)
  let out := splice out 12 (toLe32 (UInt32.ofNat slotBytes))
  let out := splice out 16 (toLe64 requiredFlags)
  let out := splice out 24 (toLe64 state.sequence)
  let out := splice out 32 state.knownGood
  let out := match state.pending with
    | some pending => splice out 64 pending
    | none => out
  let out := splice out 96 (toLe32 state.remainingAttempts)
  let out := splice out 104 state.generationRoot
  let out := splice out 136 state.stateRoot
  splice out releaseSequenceOffset (toLe64 state.acceptedReleaseSequence)

def encode (sha256 : List UInt8 → Digest) (state : BootState) :
    Outcome BootStateError (Bytes slotBytes) := do
  validate state
  let out := record state
  pure (splice out checksumOffset (slotChecksum sha256 out))

def readPending (bytes : Bytes slotBytes) : Option Digest :=
  if slice bytes 64 32 = zeros 32 then none else some (slice bytes 64 32)

def decode (sha256 : List UInt8 → Digest) (bytes : Bytes slotBytes) :
    Outcome BootStateError BootState := do
  rejectIf (slice bytes 0 8 != magic) .badMagic
  rejectIf (fromLe32 (slice bytes 8 4) != formatVersion) .unsupportedVersion
  rejectIf ((fromLe32 (slice bytes 12 4)).toNat != slotBytes) .badHeaderSize
  rejectIf (fromLe64 (slice bytes 16 8) != requiredFlags) .unknownRequiredFlags
  rejectIf
    (slice bytes 100 4 != zeros 4 || slice bytes checksumEnd 304 != zeros 304) .nonZeroReserved
  rejectIf (slotChecksum sha256 bytes != slice bytes checksumOffset 32) .badChecksum
  let state : BootState :=
    { sequence := fromLe64 (slice bytes 24 8)
      knownGood := slice bytes 32 32
      pending := readPending bytes
      remainingAttempts := fromLe32 (slice bytes 96 4)
      generationRoot := slice bytes 104 32
      stateRoot := slice bytes 136 32
      acceptedReleaseSequence := fromLe64 (slice bytes releaseSequenceOffset 8) }
  validate state
  pure state

def nextSequence (sequence : UInt64) : Outcome BootTransitionError UInt64 :=
  okOr ((checkedAdd sequence 1).filter fun next => next != maxSequence)
    .sequenceExhausted

namespace BootState

def stagePending (state : BootState) (pending : Digest) (attempts : UInt32)
    (generationRoot stateRoot : Digest) : Outcome BootTransitionError BootState := do
  rejectIf (attempts == 0) .attemptsExhausted
  let sequence ← nextSequence state.sequence
  pure
    { sequence := sequence
      knownGood := state.knownGood
      pending := some pending
      remainingAttempts := attempts
      generationRoot := generationRoot
      stateRoot := stateRoot
      acceptedReleaseSequence := state.acceptedReleaseSequence }

def consumePendingAttempt (state : BootState) : Outcome BootTransitionError BootState := do
  rejectIf state.pending.isNone .noPending
  rejectIf (state.remainingAttempts == 0) .attemptsExhausted
  let sequence ← nextSequence state.sequence
  pure { state with sequence := sequence, remainingAttempts := state.remainingAttempts - 1 }

def promotePending (state : BootState) (running : Digest) (releaseSequence : UInt64) :
    Outcome BootTransitionError BootState := do
  rejectIf (state.pending != some running) .wrongRunningGeneration
  rejectIf (releaseSequence ≤ state.acceptedReleaseSequence) .staleRelease
  let sequence ← nextSequence state.sequence
  pure
    { state with
      sequence := sequence
      knownGood := running
      pending := none
      remainingAttempts := 0
      acceptedReleaseSequence := releaseSequence }

def rollbackPending (state : BootState) : Outcome BootTransitionError BootState :=
  if state.pending.isNone then
    pure state
  else do
    let sequence ← nextSequence state.sequence
    pure { state with sequence := sequence, pending := none, remainingAttempts := 0 }

end BootState

/-- The bytes of a slot are those of the state, reserved bytes and checksum
included. -/
structure Laid (sha256 : List UInt8 → Digest) (bytes : Bytes slotBytes) (state : BootState) :
    Prop where
  magic : slice bytes 0 8 = magic
  version : slice bytes 8 4 = toLe32 formatVersion
  headerSize : slice bytes 12 4 = toLe32 (UInt32.ofNat slotBytes)
  flags : slice bytes 16 8 = toLe64 requiredFlags
  sequence : slice bytes 24 8 = toLe64 state.sequence
  knownGood : slice bytes 32 32 = state.knownGood
  pending : slice bytes 64 32 = state.pending.getD (zeros 32)
  attempts : slice bytes 96 4 = toLe32 state.remainingAttempts
  gap : slice bytes 100 4 = zeros 4
  generationRoot : slice bytes 104 32 = state.generationRoot
  stateRoot : slice bytes 136 32 = state.stateRoot
  release : slice bytes 168 8 = toLe64 state.acceptedReleaseSequence
  checksum : slice bytes 176 32 = slotChecksum sha256 bytes
  tail : slice bytes 208 304 = zeros 304

def image (sha256 : List UInt8 → Digest) (state : BootState) : Bytes slotBytes :=
  splice (record state) checksumOffset (slotChecksum sha256 (record state))

variable {state : BootState}

section Layout

variable (sha256 : List UInt8 → Digest)

theorem slotChecksum_splice (bytes : Bytes slotBytes) (checksum : Digest) :
    slotChecksum sha256 (splice bytes checksumOffset checksum) = slotChecksum sha256 bytes := by
  simp (disch := decide) only [slotChecksum, slice_splice_of_disjoint]

theorem slice_image_checksum (state : BootState) :
    slice (image sha256 state) 176 32 = slotChecksum sha256 (image sha256 state) := by
  rw [image, slotChecksum_splice]
  exact slice_splice_same _ _ _ (by decide)

theorem image_laid (state : BootState) : Laid sha256 (image sha256 state) state := by
  rcases state with ⟨-, -, pending, -, -, -, -⟩
  rcases pending with _ | pending <;>
    refine ⟨?_, ?_, ?_, ?_, ?_, ?_, ?_, ?_, ?_, ?_, ?_, ?_, slice_image_checksum sha256 _, ?_⟩ <;>
    unfold image <;>
    generalize slotChecksum sha256 _ = checksum <;>
    simp (disch := decide) only [record, releaseSequenceOffset, slice_splice_same,
      slice_splice_of_disjoint, slice_zeros, getD_none, getD_some]

variable {second first : Bytes slotBytes}

theorem Laid.getElem_eq
    (h : Laid sha256 first state) (h' : Laid sha256 second state) (i : Nat) (hi : i < slotBytes)
    (hhole : i < 176 ∨ 208 ≤ i) : first[i] = second[i] := by
  have hbound : i < 512 := hi
  have hrange : i < 8 ∨ (8 ≤ i ∧ i < 12) ∨ (12 ≤ i ∧ i < 16) ∨ (16 ≤ i ∧ i < 24) ∨
      (24 ≤ i ∧ i < 32) ∨ (32 ≤ i ∧ i < 64) ∨ (64 ≤ i ∧ i < 96) ∨ (96 ≤ i ∧ i < 100) ∨
      (100 ≤ i ∧ i < 104) ∨ (104 ≤ i ∧ i < 136) ∨ (136 ≤ i ∧ i < 168) ∨ (168 ≤ i ∧ i < 176) ∨
      208 ≤ i := by
    omega
  rcases hrange with _ | _ | _ | _ | _ | _ | _ | _ | _ | _ | _ | _ | _
  · exact getElem_eq_of_slice_eq (h.magic.trans h'.magic.symm) i hi (by omega) (by omega)
  · exact getElem_eq_of_slice_eq (h.version.trans h'.version.symm) i hi (by omega) (by omega)
  · exact getElem_eq_of_slice_eq (h.headerSize.trans h'.headerSize.symm) i hi (by omega) (by omega)
  · exact getElem_eq_of_slice_eq (h.flags.trans h'.flags.symm) i hi (by omega) (by omega)
  · exact getElem_eq_of_slice_eq (h.sequence.trans h'.sequence.symm) i hi (by omega) (by omega)
  · exact getElem_eq_of_slice_eq (h.knownGood.trans h'.knownGood.symm) i hi (by omega) (by omega)
  · exact getElem_eq_of_slice_eq (h.pending.trans h'.pending.symm) i hi (by omega) (by omega)
  · exact getElem_eq_of_slice_eq (h.attempts.trans h'.attempts.symm) i hi (by omega) (by omega)
  · exact getElem_eq_of_slice_eq (h.gap.trans h'.gap.symm) i hi (by omega) (by omega)
  · exact getElem_eq_of_slice_eq (h.generationRoot.trans h'.generationRoot.symm) i hi (by omega)
      (by omega)
  · exact getElem_eq_of_slice_eq (h.stateRoot.trans h'.stateRoot.symm) i hi (by omega) (by omega)
  · exact getElem_eq_of_slice_eq (h.release.trans h'.release.symm) i hi (by omega) (by omega)
  · exact getElem_eq_of_slice_eq (h.tail.trans h'.tail.symm) i hi (by omega) (by omega)

/-- A state has one layout: the fields decide every byte but the checksum, which those bytes decide.
-/
theorem Laid.unique
    (h : Laid sha256 first state) (h' : Laid sha256 second state) : first = second := by
  have hchecksum : slotChecksum sha256 first = slotChecksum sha256 second := by
    have hhead : slice first 0 176 = slice second 0 176 :=
      slice_congr fun i hi _ hlt => h.getElem_eq sha256 h' i hi (.inl (by omega))
    have htail : slice first 208 304 = slice second 208 304 :=
      slice_congr fun i hi hle _ => h.getElem_eq sha256 h' i hi (.inr hle)
    rw [slotChecksum, slotChecksum, hhead, htail]
  apply Vector.ext
  intro i hi
  by_cases hhole : i < 176 ∨ 208 ≤ i
  · exact h.getElem_eq sha256 h' i hi hhole
  · refine getElem_eq_of_slice_eq ?_ i hi (by omega : 176 ≤ i) (by omega : i < 176 + 32)
    rw [h.checksum, h'.checksum, hchecksum]

end Layout

theorem validate_eq_ok_iff (state : BootState) (u : Unit) :
    validate state = .ok u ↔ state.sequence ≠ maxSequence ∧ state.knownGood ≠ zeros 32 ∧
      state.generationRoot ≠ zeros 32 ∧ (state.pending = none → state.remainingAttempts = 0) := by
  simp only [validate, bind_eq_ok_iff, rejectIf_eq_ok_iff, beq_eq_false_iff_ne,
    exists_const, and_eq_false_iff, bne_eq_false_iff_eq, isNone_eq_false_iff, isSome_iff_ne_none]
  tauto

section Codec

variable (sha256 : List UInt8 → Digest) {bytes : Bytes slotBytes}

theorem encode_eq_ok_iff :
    encode sha256 state = .ok bytes ↔ validate state = .ok () ∧ image sha256 state = bytes := by
  simp only [encode, image, bind_eq_ok_iff, pure_eq_ok_iff, exists_and_right]
  constructor
  · rintro ⟨⟨⟨⟩, hvalid⟩, himage⟩
    exact ⟨hvalid, himage⟩
  · rintro ⟨hvalid, himage⟩
    exact ⟨⟨(), hvalid⟩, himage⟩

theorem readPending_eq_iff (bytes : Bytes slotBytes) (pending : Option Digest) :
    readPending bytes = pending ↔
      slice bytes 64 32 = pending.getD (zeros 32) ∧ pending ≠ some (zeros 32) := by
  unfold readPending
  split
  next hzero =>
    rcases pending with _ | pending
    · simp [hzero]
    · simp only [reduceCtorEq, getD_some, hzero, ne_eq, some.injEq, false_iff]
      rintro ⟨heq, hne⟩
      exact hne heq.symm
  next hnonzero =>
    rcases pending with _ | pending
    · simp [hnonzero]
    simp only [some.injEq, getD_some, ne_eq]
    constructor
    · rintro rfl
      exact ⟨rfl, hnonzero⟩
    · exact And.left

theorem decode_of_laid (h : Laid sha256 bytes state) :
    decode sha256 bytes = (do
      validate { state with pending := readPending bytes }
      pure { state with pending := readPending bytes }) := by
  have hsize : ((UInt32.ofNat slotBytes).toNat != slotBytes) = false := by decide
  simp only [decode, checksumOffset, checksumEnd, releaseSequenceOffset, h.magic, h.version,
    h.headerSize, h.flags, h.sequence, h.knownGood, h.attempts, h.gap, h.generationRoot,
    h.stateRoot, h.release, h.checksum, h.tail, fromLe32_toLe32, fromLe64_toLe64, hsize,
    bne_self_eq_false, Bool.or_false, rejectIf, false_eq_true, if_false]
  rfl

/-- A slot decodes to a state exactly when it is that state's layout, the state is valid, and its
pending identity is not all zero. -/
theorem decode_eq_ok_iff (bytes : Bytes slotBytes) (state : BootState) :
    decode sha256 bytes = .ok state ↔
      Laid sha256 bytes state ∧ validate state = .ok () ∧ state.pending ≠ some (zeros 32) := by
  constructor
  · intro hdecode
    simp only [decode, checksumOffset, checksumEnd, releaseSequenceOffset,
      bind_eq_ok_iff, rejectIf_eq_ok_iff, pure_eq_ok_iff, exists_const,
      bne_eq_false_iff_eq, or_eq_false_iff] at hdecode
    obtain ⟨hmagic, hversion, hsize, hflags, ⟨hgap, htail⟩, hchecksum, ⟨⟩, hvalid, hstate⟩ :=
      hdecode
    rw [hstate] at hvalid
    obtain ⟨hsequence, hknownGood, hread, hattempts, hgenerationRoot, hstateRoot, hrelease⟩ :=
      (BootState.mk.injEq ..).mp hstate
    have hpending := (readPending_eq_iff bytes state.pending).mp hread
    refine ⟨⟨hmagic, ?_, ?_, ?_, ?_, hknownGood, hpending.1, ?_, hgap, hgenerationRoot,
      hstateRoot, ?_, hchecksum.symm, htail⟩, hvalid, hpending.2⟩
    · rw [← hversion, toLe32_fromLe32]
    · have hword : UInt32.ofNat slotBytes = fromLe32 (slice bytes 12 4) := by
        apply UInt32.toNat_inj.mp
        rw [hsize]
        rfl
      rw [hword, toLe32_fromLe32]
    · rw [← hflags, toLe64_fromLe64]
    · rw [← hsequence, toLe64_fromLe64]
    · rw [← hattempts, toLe32_fromLe32]
    · rw [← hrelease, toLe64_fromLe64]
  · rintro ⟨hlaid, hvalid, hpending⟩
    have hread := (readPending_eq_iff bytes _).mpr ⟨hlaid.pending, hpending⟩
    have hdecode := decode_of_laid sha256 hlaid
    rw [hread, hvalid] at hdecode
    exact hdecode

theorem decode_image (hvalid : validate state = .ok ())
    (hpending : state.pending ≠ some (zeros 32)) : decode sha256 (image sha256 state) = .ok state :=
  (decode_eq_ok_iff sha256 _ state).mpr ⟨image_laid sha256 state, hvalid, hpending⟩

/-- A staged all-zero identity reads as attempts without a pending generation, which is refused. -/
theorem image_zeroPending_rejected (hpending : state.pending = some (zeros 32))
    (hattempts : state.remainingAttempts ≠ 0) (decoded : BootState) :
    decode sha256 (image sha256 state) ≠ .ok decoded := by
  intro hdecode
  obtain ⟨hlaid, hvalid, hne⟩ := (decode_eq_ok_iff sha256 _ decoded).mp hdecode
  have himage := image_laid sha256 state
  have hread : decoded.pending.getD (zeros 32) = zeros 32 := by
    rw [← hlaid.pending, himage.pending, hpending]
    rfl
  have hcount : decoded.remainingAttempts = state.remainingAttempts := by
    rw [← fromLe32_toLe32 decoded.remainingAttempts, ← hlaid.attempts, himage.attempts,
      fromLe32_toLe32]
  obtain ⟨-, -, -, hnone⟩ := (validate_eq_ok_iff decoded ()).mp hvalid
  rcases hcase : decoded.pending with _ | pending
  · exact hattempts (hcount ▸ hnone hcase)
  · rw [hcase] at hread hne
    exact hne (congrArg some hread)

end Codec

/-- A state with a staged generation whose identity is all zero. It is valid and
encodes. -/
def zeroPendingState : BootState :=
  { sequence := 1
    knownGood := Vector.replicate 32 1
    pending := some (zeros 32)
    remainingAttempts := 1
    generationRoot := Vector.replicate 32 3
    stateRoot := zeros 32
    acceptedReleaseSequence := 0 }

theorem decode_zeroPendingState (sha256 : List UInt8 → Digest) :
    decode sha256 (image sha256 zeroPendingState) = .error (.returned .badPendingAttempts) := by
  have hlaid := image_laid sha256 zeroPendingState
  have hread : readPending (image sha256 zeroPendingState) = none := by
    rw [readPending_eq_iff, hlaid.pending]
    exact ⟨rfl, nofun⟩
  rw [decode_of_laid sha256 hlaid, hread]
  rfl

theorem zeroPendingState_lost :
    ∃ bytes, encode (fun _ => zeros 32) zeroPendingState = .ok bytes ∧
      decode (fun _ => zeros 32) bytes = .error (.returned .badPendingAttempts) :=
  ⟨image _ zeroPendingState, (encode_eq_ok_iff _).mpr ⟨by decide, rfl⟩,
    decode_zeroPendingState _⟩

/-- The slot codec is a round trip both ways: an encoded state decodes to itself
exactly when its pending identity is not all zero, and a decoded slot encodes
back to the same bytes. -/
theorem codec_roundTrip (sha256 : List UInt8 → Digest) :
    (∀ state bytes, encode sha256 state = .ok bytes →
      (decode sha256 bytes = .ok state ↔ state.pending ≠ some (zeros 32))) ∧
    ∀ bytes state, decode sha256 bytes = .ok state → encode sha256 state = .ok bytes := by
  constructor
  · intro state bytes hencode
    obtain ⟨hvalid, rfl⟩ := (encode_eq_ok_iff sha256).mp hencode
    exact ⟨fun h => ((decode_eq_ok_iff sha256 _ state).mp h).2.2, decode_image sha256 hvalid⟩
  intro bytes state hdecode
  obtain ⟨hlaid, hvalid, -⟩ := (decode_eq_ok_iff sha256 bytes state).mp hdecode
  rw [encode_eq_ok_iff]
  exact ⟨hvalid, (image_laid sha256 state).unique sha256 hlaid⟩

theorem codec_roundTrip_staged :
    ∃ bytes, encode (fun _ => zeros 32)
        { zeroPendingState with pending := some (Vector.replicate 32 2) } = .ok bytes ∧
      decode (fun _ => zeros 32) bytes =
        .ok { zeroPendingState with pending := some (Vector.replicate 32 2) } := by
  have hencode : encode (fun _ => zeros 32)
      { zeroPendingState with pending := some (Vector.replicate 32 2) } =
        .ok (image (fun _ => zeros 32)
          { zeroPendingState with pending := some (Vector.replicate 32 2) }) :=
    (encode_eq_ok_iff _).mpr ⟨by decide, rfl⟩
  exact ⟨_, hencode, ((codec_roundTrip _).1 _ _ hencode).mpr (by decide)⟩

end SlimeOs.BootStateCodec
