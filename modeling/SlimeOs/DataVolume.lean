import SlimeOs.FrameStream

/-!
The reader of a frame store on a data volume.

Validation, lookups in the index and reads of frames go through one chunk of eight sectors,
filled when a byte outside it is asked for. The reader keeps which chunk it holds, and does not
forget it when the device fails to fill another.
-/

namespace SlimeOs.DataVolume

open Except FallibleCall FallibleCall.Call FallibleCall.Outcome FrameStore List

def sectorBytes : Nat := 512

def chunkSectors : Nat := 8

def chunkBytes : Nat := sectorBytes * chunkSectors

def firstLba : Nat := 2048

/-- The sectors of the device stand one after another in `contents`. A read fails when `failure`
has something at its number, which is what the read then leaves in its buffer. -/
structure Disk where
  contents : Nat → UInt8
  failure : Nat → Option (Nat → UInt8)

/-- The sectors a read of the device asks for. -/
structure Request where
  lba : Nat
  count : Nat

/-- The payload of a volume. The device is told apart from it, and `requests` are the reads made. -/
structure Payload where
  sectors : Nat
  chunk : Nat → UInt8
  loaded : Option Nat
  requests : List Request

open Payload

/-- Why a volume is not opened as a store. -/
inductive Error where
  | frameStore
  | device
deriving DecidableEq

inductive FrameError where
  | range
  | refused
  | device
deriving DecidableEq

/-- The payload after a read of the device that left `bytes` in the sectors asked for. -/
def Payload.filled (payload : Payload) (request : Request) (bytes : Nat → UInt8) : Payload :=
  { payload with
    chunk := fun i => if i < request.count * sectorBytes then bytes i else payload.chunk i
    requests := payload.requests ++ [request] }

def Disk.read (disk : Disk) (request : Request) : Call Payload SourceError Unit := fun payload =>
  match disk.failure payload.requests.length with
  | none => (.ok (), payload.filled request fun i => disk.contents (request.lba * sectorBytes + i))
  | some left => (.error (.returned ⟨⟩), payload.filled request left)

namespace Payload

/-- The chunk that begins at a sector of the payload. -/
def chunkAt (payload : Payload) (first : Nat) : Request :=
  ⟨firstLba + 1 + first, min (payload.sectors - first) chunkSectors⟩

def load (disk : Disk) (first : Nat) : Call Payload SourceError Unit := do
  let payload ← Call.read
  if payload.loaded = some first then pure ()
  -- The subtraction underflows past the last sector.
  else if payload.sectors < first then Call.lift (.error .panicked)
  else if (payload.chunkAt first).count = 0 then Call.lift (.error (.returned ⟨⟩))
  else
    disk.read (payload.chunkAt first)
    Call.modify fun payload => { payload with loaded := some first }

def firstOf (position : Nat) : Nat := position / sectorBytes / chunkSectors * chunkSectors

def withinChunk (position : Nat) : Nat := position - firstOf position * sectorBytes

/-- The loop of `read`: each pass takes what the chunk has of the range. -/
def readFrom (disk : Disk) : (fuel position remaining : Nat) → Call Payload SourceError (List UInt8)
  | _, _, 0 => pure []
  | 0, _, _ + 1 => Call.lift (.error .diverged)
  | fuel + 1, position, remaining + 1 => do
    load disk (firstOf position)
    let payload ← Call.read
    let take := min (chunkBytes - withinChunk position) (remaining + 1)
    let rest ← readFrom disk fuel (position + take) (remaining + 1 - take)
    pure ((List.range take).map (fun i => payload.chunk (withinChunk position + i)) ++ rest)

def read (disk : Disk) : StoreSource Payload := fun offset length =>
  readFrom disk length offset length

/-- The payload as `openStore` begins with it. -/
def new (size : Nat) : Payload where
  sectors := (size + (sectorBytes - 1)) / sectorBytes
  chunk := fun _ => 0
  loaded := none
  requests := []

end Payload

/-- Validates a payload of `size` bytes. -/
def openStore (disk : Disk) (sha256 : List UInt8 → List UInt8) (size : Nat) :
    Call Payload Error StoreSummary :=
  Call.wrapErr (fun
    | .refused _ => .frameStore
    | .source => .device) (validateStreaming (Payload.read disk) sha256 size)

namespace StoreReader

/-- `size` are the bytes of the payload the reader was opened for, and `summary` what validation
found. -/
def frame (disk : Disk) (summary : StoreSummary) (size index : Nat) :
    Call Payload FrameError FrameExtent := do
  let found ← Call.wrapErr (fun
    | .refused _ => .refused
    | .source => .device) (frameExtent (Payload.read disk) summary size index)
  Call.lift (okOr found .range)

def read (disk : Disk) (size : Nat) (frame : FrameExtent) (position length : Nat) :
    Call Payload FrameError (List UInt8) :=
  if size < frame.offset + frame.len then Call.lift (.error (.returned .range))
  else Call.wrapErr (fun
    | .range => .range
    | .source => .device) (readPayload (Payload.read disk) frame position length)

end StoreReader

inductive Asked where
  | frame (index : Nat)
  | read (frame : FrameExtent) (position length : Nat)

def step (disk : Disk) (summary : StoreSummary) (size : Nat) (payload : Payload) : Asked → Payload
  | .frame index => (StoreReader.frame disk summary size index payload).2
  | .read frame position length => (StoreReader.read disk size frame position length payload).2

def bytesAt (disk : Disk) (position length : Nat) : List UInt8 :=
  (List.range length).map fun i => disk.contents ((firstLba + 1) * sectorBytes + position + i)

/-- How far the chunk was written over by the reads that failed since the last answered one. -/
def overwritten (disk : Disk) (requests : List Request) : Nat :=
  requests.zipIdx.foldl (fun reach (request, n) =>
    if (disk.failure n).isSome then max reach (request.count * sectorBytes) else 0) 0

/-- The reader holds the chunk of the position, and failed reads have reached the byte. -/
def Spoilt (disk : Disk) (payload : Payload) (position : Nat) : Prop :=
  payload.loaded = some (firstOf position) ∧
    withinChunk position < overwritten disk payload.requests

/-- What a failed read leaves where this position has its byte is not that byte. -/
def Disk.LeavesOther (disk : Disk) (position : Nat) : Prop :=
  ∀ n, ∀ left ∈ disk.failure n, bytesAt disk position 1 ≠ [left (withinChunk position)]

def Inside (sectors : Nat) (request : Request) : Prop :=
  firstLba + 1 ≤ request.lba ∧ request.lba + request.count ≤ firstLba + 1 + sectors

/-- The chunk holds what it is said to hold past the bytes written over, as far as the payload goes,
and those are what the failed reads left. -/
structure Steady (disk : Disk) (payload : Payload) : Prop where
  cached : ∀ first ∈ payload.loaded, ∀ i < chunkBytes, overwritten disk payload.requests ≤ i →
    first * sectorBytes + i < payload.sectors * sectorBytes →
      payload.chunk i = disk.contents ((firstLba + 1 + first) * sectorBytes + i)
  spoilt : ∀ i < overwritten disk payload.requests,
    ∃ n, ∃ left ∈ disk.failure n, payload.chunk i = left i
  inside : ∀ request ∈ payload.requests, Inside payload.sectors request

theorem overwritten_append (disk : Disk) (requests : List Request) (request : Request) :
    overwritten disk (requests ++ [request]) =
      if (disk.failure requests.length).isSome then
        max (overwritten disk requests) (request.count * sectorBytes)
      else 0 := by
  simp [overwritten, zipIdx_append]

theorem firstOf_le (position : Nat) : firstOf position * sectorBytes ≤ position := by
  simp only [firstOf, sectorBytes, chunkSectors]
  omega

theorem within_lt (position : Nat) : withinChunk position < chunkBytes := by
  simp only [withinChunk, firstOf, chunkBytes, sectorBytes, chunkSectors]
  omega

variable {disk : Disk} {payload : Payload}

/-- A read of the device that is answered makes the chunk whole, one that fails writes over it. -/
theorem load_ensures (h : Steady disk payload) (first : Nat) :
    Ensures (load disk first) payload fun outcome after =>
      Steady disk after ∧ after.sectors = payload.sectors ∧
        (first ≤ payload.sectors → Settles outcome) ∧
        (outcome = .ok () → after.loaded = some first ∧
          (after = payload ∨ overwritten disk after.requests = 0)) := by
  apply ensures_read
  split
  next hloaded => exact ⟨h, rfl, fun _ => settles_pure (), fun _ => ⟨hloaded, .inl rfl⟩⟩
  split
  next => exact ⟨h, rfl, by omega, nofun⟩
  split
  next => exact ⟨h, rfl, fun _ => settles_error _, nofun⟩
  next hfirst _ =>
    have hinside : ∀ request ∈ payload.requests ++ [payload.chunkAt first],
        Inside payload.sectors request := by
      intro request hrequest
      rcases mem_append.mp hrequest with hrequest | hrequest
      · exact h.inside request hrequest
      obtain rfl := mem_singleton.mp hrequest
      simp only [Inside, chunkAt]
      omega
    have hreach := overwritten_append disk payload.requests (payload.chunkAt first)
    unfold Ensures
    rw [bind_apply, Disk.read]
    rcases hfailure : disk.failure payload.requests.length with _ | left
    all_goals simp only [hfailure, Option.isSome_none, Option.isSome_some, Bool.false_eq_true,
      if_false, if_true] at hreach
    · refine ⟨⟨?_, fun i hi => ?_, hinside⟩, rfl, fun _ => settles_pure (),
        fun _ => ⟨rfl, .inr hreach⟩⟩
      · rintro _ ⟨⟩ i hi - (hpayload : _ < payload.sectors * sectorBytes)
        apply if_pos
        simp only [chunkAt, chunkBytes, sectorBytes, chunkSectors] at *
        omega
      · exact absurd (hreach ▸ hi) (Nat.not_lt_zero i)
    · refine ⟨⟨fun other hother i hi hle hpayload => ?_, fun i hi => ?_, hinside⟩, rfl,
        fun _ => settles_error _, nofun⟩
      all_goals simp only [filled, hreach] at *
      · rw [if_neg (by omega)]
        exact h.cached other hother i hi (by omega) hpayload
      · split
        next => exact ⟨_, left, hfailure, rfl⟩
        next hlt => exact h.spoilt i (by omega)

theorem bytesAt_add (position first second : Nat) : bytesAt disk position (first + second) =
      bytesAt disk position first ++ bytesAt disk (position + first) second := by
  simp [bytesAt, range_add, Nat.add_assoc]

theorem chunk_eq_bytesAt {position take : Nat} (h : Steady disk payload)
    (hloaded : payload.loaded = some (firstOf position))
    (hreach : overwritten disk payload.requests ≤ withinChunk position)
    (hwithin : withinChunk position + take ≤ chunkBytes)
    (hinside : position + take ≤ payload.sectors * sectorBytes) :
    (range take).map (fun i => payload.chunk (withinChunk position + i)) =
      bytesAt disk position take := by
  refine map_congr_left fun i hi => ?_
  have hlt := mem_range.mp hi
  have hfirst := firstOf_le position
  rw [h.cached _ hloaded _ (by omega) (by omega) (by unfold withinChunk; omega)]
  apply congrArg disk.contents
  unfold withinChunk
  rw [Nat.add_mul (firstLba + 1)]
  omega

/-- The next pass, if there is one, begins with another chunk. -/
theorem firstOf_next {position remaining : Nat}
    (h : 0 < remaining - min (chunkBytes - withinChunk position) remaining) :
    firstOf (position + min (chunkBytes - withinChunk position) remaining) ≠ firstOf position := by
  simp only [withinChunk, firstOf, chunkBytes, sectorBytes, chunkSectors] at *
  omega

theorem readFrom_ensures (fuel position remaining : Nat) (h : Steady disk payload) :
    Ensures (readFrom disk fuel position remaining) payload fun outcome after =>
      Steady disk after ∧ after.sectors = payload.sectors ∧
        (position + remaining ≤ payload.sectors * sectorBytes → remaining ≤ fuel →
          Settles outcome) ∧
        ∀ bytes, outcome = .ok bytes → position + remaining ≤ payload.sectors * sectorBytes →
          (0 < remaining → ¬ Spoilt disk payload position) →
            bytes = bytesAt disk position remaining := by
  induction fuel generalizing payload position remaining with
  | zero =>
    cases remaining with
    | zero =>
      exact ⟨h, rfl, fun _ _ => settles_pure [], fun _ hbytes _ _ => (ok.inj hbytes).symm⟩
    | succ => exact ⟨h, rfl, fun _ => by omega, nofun⟩
  | succ fuel ih =>
    cases remaining with
    | zero =>
      exact ⟨h, rfl, fun _ _ => settles_pure [], fun _ hbytes _ _ => (ok.inj hbytes).symm⟩
    | succ remaining =>
    have hlt := within_lt position
    apply ensures_bind (load_ensures h _)
    · rintro _ loaded ⟨hsteady, hsectors, -, hok⟩
      obtain ⟨hloaded, hreach⟩ := hok rfl
      refine ensures_read (ensures_bind (ih _ _ hsteady) ?_ ?_)
      · rintro rest after ⟨hafter, hsectors', -, hrest⟩
        refine ⟨hafter, hsectors'.trans hsectors, fun _ _ => settles_pure _,
          fun bytes hbytes hinside hspoilt => ?_⟩
        obtain rfl := (ok.inj hbytes).symm
        have hclear : overwritten disk loaded.requests ≤ withinChunk position := by
          rcases hreach with rfl | hreach
          · exact Nat.le_of_not_lt fun hlt => hspoilt (Nat.succ_pos _) ⟨hloaded, hlt⟩
          · omega
        have hother := @firstOf_next position (remaining + 1)
        generalize htake : min _ (remaining + 1) = take at *
        rw [chunk_eq_bytesAt hsteady hloaded hclear (by omega) (by rw [hsectors]; omega),
          hrest rest rfl (by rw [hsectors]; omega) fun hpos hnext => hother hpos ?_, ← bytesAt_add]
        · exact congrArg _ (by omega)
        · exact (Option.some.inj (hloaded.symm.trans hnext.1)).symm
      · rintro fault after ⟨hafter, hsectors', hsettles, -⟩
        refine ⟨hafter, hsectors'.trans hsectors, fun hinside hfuel => ?_, nofun⟩
        rw [hsectors] at hsettles
        exact hsettles (by omega) (by omega)
    · rintro fault after ⟨hafter, hsectors, hsettles, -⟩
      refine ⟨hafter, hsectors, fun hinside _ fault' heq => ?_, nofun⟩
      obtain rfl := error.inj heq
      refine hsettles ?_ fault rfl
      have hfirst := firstOf_le position
      simp only [sectorBytes] at hfirst hinside
      omega

/-- From a chunk that is held the first byte is taken as it is. -/
theorem head_of_loaded {fuel position remaining : Nat} {bytes : List UInt8}
    (hloaded : payload.loaded = some (firstOf position)) (hpos : 0 < remaining)
    (h : (readFrom disk fuel position remaining payload).1 = .ok bytes) :
    bytes.head? = some (payload.chunk (withinChunk position)) := by
  obtain ⟨remaining, rfl⟩ := Nat.exists_eq_succ_of_ne_zero (Nat.ne_of_gt hpos)
  rcases fuel with _ | fuel
  · cases h
  have hload : load disk (firstOf position) payload = (.ok (), payload) := by
    simp [load, hloaded]
  obtain ⟨s', hread⟩ : ∃ s', readFrom disk (fuel + 1) position (remaining + 1) payload =
      (.ok bytes, s') := ⟨_, Prod.ext h rfl⟩
  simp only [readFrom, Call.bind_ok_iff, hload, read_ok_iff, pure_ok_iff] at hread
  obtain ⟨-, -, ⟨⟩, -, -, ⟨rfl, rfl⟩, rest, _, -, rfl, -⟩ := hread
  have hlt := within_lt position
  obtain ⟨take, htake⟩ :
      ∃ take, min (chunkBytes - withinChunk position) (remaining + 1) = take + 1 :=
    ⟨_, (Nat.succ_pred_eq_of_pos (by omega)).symm⟩
  simp [htake, range_succ_eq_map]

/-- The range of the payload that is read, if any. -/
def Asked.range (summary : StoreSummary) (size : Nat) : Asked → Option (Nat × Nat)
  | .frame index =>
    let start := summary.indexOffset + index * indexEntryBytes
    if index < summary.frameCount ∧ start + indexEntryBytes ≤ size then
      some (start, indexEntryBytes)
    else none
  | .read extent position length =>
    if extent.offset + extent.len ≤ size ∧ position + length ≤ extent.len then
      some (extent.offset + position, length)
    else none

theorem read_eq (disk : Disk) (size : Nat) (frame : FrameExtent) (position length : Nat) :
    StoreReader.read disk size frame position length =
      if frame.offset + frame.len ≤ size ∧ position + length ≤ frame.len then
        Call.wrapErr (fun _ => .device) (Payload.read disk (frame.offset + position) length)
      else Call.lift (.error (.returned .range)) := by
  unfold StoreReader.read readPayload
  by_cases hsize : frame.offset + frame.len ≤ size
  · rw [if_neg (by omega)]
    by_cases hlen : position + length ≤ frame.len
    · rw [if_neg (by omega), if_pos (And.intro hsize hlen)]
      by_cases hzero : length = 0
      · rw [if_pos hzero, hzero]
        rfl
      · rw [if_neg hzero, wrapErr_wrapErr]
    · rw [if_pos (by omega), if_neg (by omega)]
      rfl
  · rw [if_pos (by omega), if_neg (by omega)]

theorem step_eq (disk : Disk) (summary : StoreSummary) (size : Nat) (payload : Payload)
    (asked : Asked) : step disk summary size payload asked =
      match asked.range summary size with
      | none => payload
      | some (offset, length) => (Payload.read disk offset length payload).2 := by
  cases asked with
  | frame index =>
    refine (bind_state_of_readOnly _ (fun _ => readOnly_lift _) payload).trans ?_
    rw [wrapErr_state, frameExtent_state]
    simp only [Asked.range]
    split <;> simp_all
  | read frame position length =>
    simp only [step, read_eq, Asked.range]
    split
    next h => simp only [wrapErr_state]
    next h => rfl

theorem run_steady (summary : StoreSummary) (size : Nat) (history : List Asked)
    (h : Steady disk payload) :
    Steady disk (run (step disk summary size) payload history) ∧
      (run (step disk summary size) payload history).sectors = payload.sectors := by
  refine run_invariant (step disk summary size)
    (fun after => Steady disk after ∧ after.sectors = payload.sectors) ?_ _ _ ⟨h, rfl⟩
  rintro payload asked ⟨h, hsectors⟩
  rw [step_eq]
  split
  · exact ⟨h, hsectors⟩
  · obtain ⟨hafter, hsectors', -⟩ := readFrom_ensures _ _ _ h
    exact ⟨hafter, hsectors'.trans hsectors⟩

theorem openStore_steady {sha256 : List UInt8 → List UInt8} {size : Nat} {summary : StoreSummary}
    (h : openStore disk sha256 size (.new size) = (.ok summary, payload)) :
    Steady disk payload ∧ payload.sectors = (new size).sectors := by
  have hkeeps (offset length : Nat) : Keeps (fun payload => Steady disk payload ∧
      payload.sectors = (new size).sectors) (Payload.read disk offset length) := by
    rintro payload ⟨h, hsectors⟩ bytes after hread
    obtain ⟨hafter, hsectors', -⟩ := readFrom_ensures length offset length h
    rw [Payload.read] at hread
    rw [hread] at hafter hsectors'
    exact ⟨hafter, hsectors'.trans hsectors⟩
  exact keeps_validateStreaming hkeeps sha256 size (.new size) ⟨⟨nofun, nofun, nofun⟩, rfl⟩ summary
    payload (wrapErr_ok_iff.mp h)

/-- A store of one frame: the header, three texts of one byte with their padding, and the index
entry of a payload that begins in the first chunk and ends in the second. -/
def storeBytes : List UInt8 :=
  [83, 76, 70, 83, 1, 0, 1, 0, 1, 0, 0, 0, 1, 0, 1, 0, 1, 0, 0, 0, 0, 0, 0, 0, 1, 0, 0, 0] ++
    replicate 36 0 ++ [97, 98, 99, 0, 0, 0, 0, 0] ++
    [96, 0, 0, 0, 0, 0, 0, 0, 0, 16, 0, 0, 0, 0, 0, 0] ++ replicate 8 0

/-- The store on a device on which the third read fails. -/
def storeDisk : Disk where
  contents address :=
    let place := address - (firstLba + 1) * sectorBytes
    if place < 96 then storeBytes.getD place 0 else if place < 4192 then 5 else 0
  failure n := if n = 2 then some fun _ => 7 else none

def storeSummary : StoreSummary := ⟨1, 1, 0, 0, [], 72⟩

def storeFrame : FrameExtent := ⟨0, 96, 4096⟩

/-- The payload after `openStore`, which has read both chunks. -/
def storeOpened : Payload := (openStore storeDisk (fun _ => []) 4192 (.new 4192)).2

end SlimeOs.DataVolume
