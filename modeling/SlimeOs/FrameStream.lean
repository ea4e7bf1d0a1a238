import SlimeOs.FrameStore

/-!
A frame store read where it lies, through a source that may fail. The checks are those of a store
in memory, in the same order; texts, padding and payloads are read in pieces.
-/

namespace SlimeOs.FrameStore

open ByteLayout ByteRange FallibleCall FallibleCall.Call

def streamChunk : Nat := 512

structure SourceError where
deriving DecidableEq

inductive StreamError where
  | refused (refusal : Refusal)
  | source
deriving DecidableEq

inductive PayloadError where
  | range
  | source
deriving DecidableEq

structure StoreSummary where
  frameCount : Nat
  framePeriodNs : Nat
  firstLogTimeNs : Nat
  lastLogTimeNs : Nat
  payloadDigest : List UInt8
  indexOffset : Nat
deriving DecidableEq

structure FrameExtent where
  logTimeNs : Nat
  offset : Nat
  len : Nat
deriving DecidableEq

/-- A source fills a buffer of a length with the bytes from an offset on. -/
abbrev StoreSource (σ : Type) := (offset length : Nat) → Call σ SourceError (List UInt8)

variable {σ : Type}

def refuse {α : Type} (checked : Except Refusal α) : Call σ StreamError α :=
  Call.lift (checked.mapError fun refusal => .returned (.refused refusal))

def fetch (source : StoreSource σ) (offset length : Nat) : Call σ StreamError (List UInt8) :=
  Call.wrapErr (fun _ => .source) (source offset length)

/-- The bytes that may follow the first one of a sequence, in their order. -/
def following (first : UInt8) : Option (List (UInt8 × UInt8)) :=
  if first < 0x80 then some []
  else if continues first 0xC2 0xDF then some [(0x80, 0xBF)]
  else if continues first 0xE0 0xEF then
    some [(if first = 0xE0 then 0xA0 else 0x80, if first = 0xED then 0x9F else 0xBF), (0x80, 0xBF)]
  else if continues first 0xF0 0xF4 then
    some [(if first = 0xF0 then 0x90 else 0x80, if first = 0xF4 then 0x8F else 0xBF), (0x80, 0xBF),
      (0x80, 0xBF)]
  else none

/-- What `from_utf8` finds: `cut` is the beginning of a sequence that the bytes end in. -/
inductive Utf8 where
  | valid
  | cut (carry : List UInt8)
  | invalid

/-- The bytes after those of a sequence that has begun with `carry` and is to go on as `pending`. -/
def fromUtf8 (pending : List (UInt8 × UInt8)) (carry : List UInt8) : List UInt8 → Utf8
  | [] => if pending.isEmpty then .valid else .cut carry
  | byte :: bytes =>
    match pending with
    | [] =>
      match following byte with
      | none => .invalid
      | some pending => fromUtf8 pending [byte] bytes
    | (lo, hi) :: pending =>
      if continues byte lo hi then fromUtf8 pending (carry ++ [byte]) bytes else .invalid

/-- The pieces in which a range is read. -/
def pieces (start length : Nat) : List (Nat × Nat) :=
  (List.range ((length + streamChunk - 1) / streamChunk)).map fun i =>
    (start + streamChunk * i, min (length - streamChunk * i) streamChunk)

def streamText (source : StoreSource σ) (start length : Nat) : Call σ StreamError Unit := do
  let carry ← (pieces start length).foldlM (fun carry piece => do
    let bytes ← fetch source piece.1 piece.2
    refuse (require (!bytes.contains 0) .header)
    match fromUtf8 [] [] (carry ++ bytes) with
    | .valid => pure []
    | .cut carry => pure carry
    | .invalid => refuse (.error .header)) []
  refuse (require carry.isEmpty .header)

/-- No piece is read after one that is not zero. -/
def streamZero (source : StoreSource σ) (start stop : Nat) : Call σ StreamError Bool :=
  (pieces start (stop - start)).foldlM (fun zero piece =>
    if zero then do
      let bytes ← fetch source piece.1 piece.2
      pure (isZero bytes)
    else pure false) true

/-- What the frame loop carries beside its place. -/
structure Scan where
  place : Cursor
  firstTime : Nat
  hashed : List UInt8

def streamFrame (source : StoreSource σ) (size indexStart : Nat) (scan : Scan) (index : Nat) :
    Call σ StreamError Scan := do
  let raw ← fetch source (indexStart + index * indexEntryBytes) indexEntryBytes
  let entry ← refuse (found (IndexEntry.decode raw))
  refuse (require (isZero entry.reserved) .header)
  let length := entry.payloadBytes
  refuse (require (length ≤ maxPayloadBytes) .payloadBound)
  refuse (require (scan.place.previousTime.all fun previous => previous ≤ entry.logTimeNs) .order)
  let offset := entry.payloadOffset
  refuse (require (offset ≤ size && length ≤ size - offset) .range)
  refuse (require (scan.place.cursor ≤ offset) .overlap)
  refuse (require (offset ≤ scan.place.cursor) .padding)
  let padded ← streamZero source scan.place.previousEnd offset
  refuse (require padded .padding)
  let hashed ← (pieces offset length).foldlM (fun hashed piece => do
    let bytes ← fetch source piece.1 piece.2
    pure (hashed ++ bytes)) scan.hashed
  pure
    { place := ⟨align (offset + length), offset + length, some entry.logTimeNs⟩
      firstTime := if index = 0 then entry.logTimeNs else scan.firstTime
      hashed := hashed }

/-- `sha256` digests the payloads, one after another. -/
def validateStreaming (source : StoreSource σ) (sha256 : List UInt8 → List UInt8) (size : Nat) :
    Call σ StreamError StoreSummary := do
  refuse (require (size ≤ maxStoreBytes) .storeBound)
  refuse (require (headerBytes ≤ size) .truncated)
  let raw ← fetch source 0 headerBytes
  let header ← refuse (decodedHeader raw)
  refuse (checkHeader header)
  refuse (require (header.dataStart ≤ size) .truncated)
  streamText source headerBytes header.topicBytes
  streamText source header.topicEnd header.typeNameBytes
  streamText source header.typeEnd header.schemaBytes
  let padded ← streamZero source header.textEnd header.indexStart
  refuse (require padded .header)
  let scan ← (List.range header.frameCount).foldlM (streamFrame source size header.indexStart)
    ⟨⟨header.dataStart, header.dataStart, none⟩, 0, []⟩
  let place := scan.place
  let padded ← streamZero source place.previousEnd (min place.cursor size)
  refuse (require padded .padding)
  refuse (require (place.cursor ≤ size) .range)
  refuse (require (size ≤ place.cursor) .trailing)
  pure
    { frameCount := header.frameCount
      framePeriodNs := header.framePeriodNs
      firstLogTimeNs := scan.firstTime
      lastLogTimeNs := place.previousTime.getD scan.firstTime
      payloadDigest := sha256 scan.hashed
      indexOffset := header.indexStart }

/-- The extent that the raw index entry gives, after its checks. -/
def extentOf (size : Nat) (raw : List UInt8) : Except Refusal FrameExtent := do
  let entry ← found (IndexEntry.decode raw)
  require (isZero entry.reserved) .header
  require (entry.payloadBytes ≤ maxPayloadBytes) .payloadBound
  require (entry.payloadOffset ≤ size && entry.payloadBytes ≤ size - entry.payloadOffset) .range
  pure ⟨entry.logTimeNs, entry.payloadOffset, entry.payloadBytes⟩

def frameExtent (source : StoreSource σ) (summary : StoreSummary) (size index : Nat) :
    Call σ StreamError (Option FrameExtent) :=
  if summary.frameCount ≤ index then pure none
  else do
    let start := summary.indexOffset + index * indexEntryBytes
    refuse (require (start + indexEntryBytes ≤ size) .truncated)
    let raw ← fetch source start indexEntryBytes
    refuse ((extentOf size raw).map some)

def readPayload (source : StoreSource σ) (frame : FrameExtent) (position length : Nat) :
    Call σ PayloadError (List UInt8) :=
  if frame.len < position + length then Call.lift (.error (.returned .range))
  else if length = 0 then pure []
  else Call.wrapErr (fun _ => .source) (source (frame.offset + position) length)

/-- A lookup reads the entry of its frame, and only if there is one. -/
theorem frameExtent_state (source : StoreSource σ) (summary : StoreSummary) (size index : Nat)
    (s : σ) : (frameExtent source summary size index s).2 =
      if index < summary.frameCount ∧
          summary.indexOffset + index * indexEntryBytes + indexEntryBytes ≤ size then
        (source (summary.indexOffset + index * indexEntryBytes) indexEntryBytes s).2
      else s := by
  unfold frameExtent
  split
  next hcount => rw [if_neg (by omega)]; rfl
  next hcount =>
    by_cases hsize : summary.indexOffset + index * indexEntryBytes + indexEntryBytes ≤ size
    · rw [if_pos ⟨by omega, hsize⟩]
      simp only [require, hsize, decide_true, if_true]
      exact (bind_state_of_readOnly _ (fun _ => readOnly_lift _) s).trans (wrapErr_state _ _ s)
    · rw [if_neg (by omega)]
      simp only [require, hsize, decide_false]
      rfl

section Keeps

variable {Inv : σ → Prop} {source : StoreSource σ}
  (hsource : ∀ offset length, Keeps Inv (source offset length))

include hsource

theorem keeps_fetch (offset length : Nat) : Keeps Inv (fetch source offset length) :=
  keeps_wrapErr (hsource offset length)

theorem keeps_streamText (start length : Nat) : Keeps Inv (streamText source start length) := by
  refine keeps_bind (keeps_fold _ _ fun carry piece => ?_) fun _ => keeps_lift
  refine keeps_bind (keeps_fetch hsource _ _) fun bytes => keeps_bind keeps_lift fun _ => ?_
  split <;> exact keeps_lift

theorem keeps_streamZero (start stop : Nat) : Keeps Inv (streamZero source start stop) := by
  refine keeps_fold _ _ fun zero piece => ?_
  split
  · exact keeps_bind (keeps_fetch hsource _ _) fun _ => keeps_lift
  · exact keeps_lift

theorem keeps_streamFrame (size indexStart : Nat) (scan : Scan) (index : Nat) :
    Keeps Inv (streamFrame source size indexStart scan index) := by
  unfold streamFrame
  refine keeps_bind (keeps_fetch hsource _ _) fun raw => ?_
  iterate 7 refine keeps_bind keeps_lift fun _ => ?_
  refine keeps_bind (keeps_streamZero hsource _ _) fun _ => keeps_bind keeps_lift fun _ => ?_
  refine keeps_bind (keeps_fold _ _ fun hashed piece => ?_) fun _ => keeps_lift
  exact keeps_bind (keeps_fetch hsource _ _) fun _ => keeps_lift

/-- A store that is accepted was read without a failure of the source. -/
theorem keeps_validateStreaming (sha256 : List UInt8 → List UInt8) (size : Nat) :
    Keeps Inv (validateStreaming source sha256 size) := by
  unfold validateStreaming
  iterate 2 refine keeps_bind keeps_lift fun _ => ?_
  refine keeps_bind (keeps_fetch hsource _ _) fun raw => ?_
  iterate 3 refine keeps_bind keeps_lift fun _ => ?_
  iterate 3 refine keeps_bind (keeps_streamText hsource _ _) fun _ => ?_
  refine keeps_bind (keeps_streamZero hsource _ _) fun _ => keeps_bind keeps_lift fun _ => ?_
  refine keeps_bind (keeps_fold _ _ (keeps_streamFrame hsource size _)) fun scan => ?_
  refine keeps_bind (keeps_streamZero hsource _ _) fun _ => ?_
  iterate 3 refine keeps_bind keeps_lift fun _ => ?_
  exact keeps_lift

end Keeps

end SlimeOs.FrameStore
