import SlimeOs.ByteRange
import SlimeOs.FallibleCall

/-!
The reader of a frame store: the recorded messages of one topic, as one byte string. A
store is read only after all of it has been checked, and the checks leave one byte string
for each content.
-/

namespace SlimeOs.FrameStore

open ByteLayout ByteRange FallibleCall

def frameStoreMagic : Nat := 1397115987
def formatVersion : Nat := 1
def hashVersionRihs01 : Nat := 1
def headerBytes : Nat := 64
def indexEntryBytes : Nat := 24
def typeHashBytes : Nat := 32
def alignment : Nat := 8
def maxFrames : Nat := 4096
def maxPayloadBytes : Nat := 16777216
def maxStoreBytes : Nat := 134217728
def maxTopicBytes : Nat := 256
def maxTypeNameBytes : Nat := 256
def maxSchemaBytes : Nat := 65536

inductive Refusal where
  | storeBound
  | truncated
  | magic
  | version
  | header
  | frameCount
  | payloadBound
  | order
  | range
  | overlap
  | padding
  | trailing
deriving DecidableEq

structure Frame where
  logTimeNs : Nat
  payload : List UInt8
  offset : Nat
deriving DecidableEq

structure Store where
  bytes : List UInt8
  topic : List UInt8
  typeName : List UInt8
  schema : List UInt8
  typeHash : List UInt8
  framePeriodNs : Nat
  frameCount : Nat
  indexStart : Nat
deriving DecidableEq

structure Header where
  magic : Nat
  version : Nat
  hashVersion : Nat
  reserved0 : List UInt8
  frameCount : Nat
  topicBytes : Nat
  typeNameBytes : Nat
  schemaBytes : Nat
  reserved1 : List UInt8
  framePeriodNs : Nat
  typeHash : List UInt8
deriving DecidableEq

def Header.decode (bytes : List UInt8) : Option Header :=
  if bytes.length < headerBytes then none
  else some
    { magic := numberAt bytes 0 4
      version := numberAt bytes 4 2
      hashVersion := numberAt bytes 6 1
      reserved0 := part bytes 7 1
      frameCount := numberAt bytes 8 4
      topicBytes := numberAt bytes 12 2
      typeNameBytes := numberAt bytes 14 2
      schemaBytes := numberAt bytes 16 4
      reserved1 := part bytes 20 4
      framePeriodNs := numberAt bytes 24 8
      typeHash := part bytes 32 typeHashBytes }

structure IndexEntry where
  payloadOffset : Nat
  payloadBytes : Nat
  reserved : List UInt8
  logTimeNs : Nat
deriving DecidableEq

def IndexEntry.decode (bytes : List UInt8) : Option IndexEntry :=
  if bytes.length < indexEntryBytes then none
  else some
    { payloadOffset := numberAt bytes 0 8
      payloadBytes := numberAt bytes 8 4
      reserved := part bytes 12 4
      logTimeNs := numberAt bytes 16 8 }

def align (value : Nat) : Nat := (value + alignment - 1) / alignment * alignment

def continues (byte : UInt8) (lo hi : UInt8) : Bool := lo ≤ byte && byte ≤ hi

/-- `from_utf8`: the well-formed byte sequences, by their first byte. -/
def validUtf8 : List UInt8 → Bool
  | [] => true
  | b0 :: bytes =>
    if b0 < 0x80 then validUtf8 bytes
    else match bytes with
      | [] => false
      | b1 :: bytes =>
        if continues b0 0xC2 0xDF then continues b1 0x80 0xBF && validUtf8 bytes
        else match bytes with
          | [] => false
          | b2 :: bytes =>
            if continues b0 0xE0 0xEF then
              continues b1 (if b0 = 0xE0 then 0xA0 else 0x80)
                  (if b0 = 0xED then 0x9F else 0xBF) &&
                continues b2 0x80 0xBF && validUtf8 bytes
            else match bytes with
              | [] => false
              | b3 :: bytes =>
                continues b0 0xF0 0xF4 &&
                  continues b1 (if b0 = 0xF0 then 0x90 else 0x80)
                    (if b0 = 0xF4 then 0x8F else 0xBF) &&
                  continues b2 0x80 0xBF && continues b3 0x80 0xBF && validUtf8 bytes

def text (raw : List UInt8) : Except Refusal (List UInt8) :=
  if validUtf8 raw && !raw.contains 0 then .ok raw else .error .header

def require (condition : Bool) (refusal : Refusal) : Except Refusal Unit :=
  if condition then .ok () else .error refusal

def entry (bytes : List UInt8) (indexStart index : Nat) : Option IndexEntry :=
  (part? bytes (indexStart + index * indexEntryBytes) indexEntryBytes).bind IndexEntry.decode

/-- What the frame loop carries: where the next payload must start, where the previous one
ended, and its time. -/
structure Cursor where
  cursor : Nat
  previousEnd : Nat
  previousTime : Option Nat
deriving DecidableEq

def found (found : Option IndexEntry) : Except Refusal IndexEntry :=
  match found with
  | some entry => .ok entry
  | none => .error .truncated

def checkFrame (bytes : List UInt8) (indexStart index : Nat) (place : Cursor) :
    Except Refusal Cursor := do
  let entry ← found (entry bytes indexStart index)
  require (isZero entry.reserved) .header
  let length := entry.payloadBytes
  require (length ≤ maxPayloadBytes) .payloadBound
  require (place.previousTime.all fun previous => previous ≤ entry.logTimeNs) .order
  let offset := entry.payloadOffset
  require (offset ≤ bytes.length && length ≤ bytes.length - offset) .range
  require (place.cursor ≤ offset) .overlap
  require (offset ≤ place.cursor &&
    isZero (part bytes place.previousEnd (offset - place.previousEnd))) .padding
  pure ⟨align (offset + length), offset + length, some entry.logTimeNs⟩

/-- The frames from `index` on. -/
def checkFrames (bytes : List UInt8) (indexStart : Nat) :
    (count index : Nat) → Cursor → Except Refusal Cursor
  | 0, _, place => pure place
  | count + 1, index, place => do
    let place ← checkFrame bytes indexStart index place
    checkFrames bytes indexStart count (index + 1) place

def decodedHeader (bytes : List UInt8) : Except Refusal Header :=
  match Header.decode bytes with
  | some header => .ok header
  | none => .error .truncated

def within (lo hi value : Nat) : Bool := lo ≤ value && value ≤ hi

def checkHeader (header : Header) : Except Refusal Unit := do
  require (header.magic == frameStoreMagic) .magic
  require (header.version == formatVersion) .version
  require (header.hashVersion == hashVersionRihs01 && isZero header.reserved0 &&
    isZero header.reserved1 && header.framePeriodNs != 0) .header
  require (within 1 maxTopicBytes header.topicBytes &&
    within 1 maxTypeNameBytes header.typeNameBytes &&
    within 1 maxSchemaBytes header.schemaBytes) .header
  require (within 1 maxFrames header.frameCount) .frameCount

namespace Header

def topicEnd (header : Header) : Nat := headerBytes + header.topicBytes
def typeEnd (header : Header) : Nat := header.topicEnd + header.typeNameBytes
def textEnd (header : Header) : Nat := header.typeEnd + header.schemaBytes
def indexStart (header : Header) : Nat := align header.textEnd
def dataStart (header : Header) : Nat :=
  header.indexStart + header.frameCount * indexEntryBytes

end Header

def parse (bytes : List UInt8) : Except Refusal Store := do
  let size := bytes.length
  require (size ≤ maxStoreBytes) .storeBound
  let header ← decodedHeader bytes
  checkHeader header
  require (header.dataStart ≤ size) .truncated
  let topic ← text (part bytes headerBytes header.topicBytes)
  let typeName ← text (part bytes header.topicEnd header.typeNameBytes)
  let schema ← text (part bytes header.typeEnd header.schemaBytes)
  require (isZero (part bytes header.textEnd (header.indexStart - header.textEnd))) .header
  let stop ← checkFrames bytes header.indexStart header.frameCount 0
    ⟨header.dataStart, header.dataStart, none⟩
  require (isZero (part bytes stop.previousEnd (min stop.cursor size - stop.previousEnd))) .padding
  require (stop.cursor ≤ size) .range
  require (size ≤ stop.cursor) .trailing
  pure
    { bytes := bytes
      topic := topic
      typeName := typeName
      schema := schema
      typeHash := header.typeHash
      framePeriodNs := header.framePeriodNs
      frameCount := header.frameCount
      indexStart := header.indexStart }

namespace Store

def frame (store : Store) (index : Nat) : Option Frame :=
  if store.frameCount ≤ index then none
  else do
    let entry ← entry store.bytes store.indexStart index
    let payload ← part? store.bytes entry.payloadOffset entry.payloadBytes
    pure ⟨entry.logTimeNs, payload, entry.payloadOffset⟩

def frames (store : Store) : List Frame := (List.range store.frameCount).filterMap store.frame

end Store

end SlimeOs.FrameStore
