import SlimeOs.ByteRange
import SlimeOs.FallibleCall

/-!
The network service's reader of DNS responses. A name is read label by label, and a pointer sends
the reader to an earlier place of the packet. Every record is walked once, since nothing else
says where the next one begins, and the names that matter are read again from the packet when the
alias chain of the question is followed.

Slots of fixed arrays that are filled from the front are lists here; a slice of the packet taken
without a check panics when it does not lie inside.
-/

namespace SlimeOs.Dns

open ByteLayout ByteRange FallibleCall FallibleCall.Outcome

def maxPacketBytes : Nat := 512
def maxNameBytes : Nat := 64
def maxAddresses : Nat := 4
def maxRecords : Nat := 32
def maxAliases : Nat := 4
def maxPointerHops : Nat := 16
def headerBytes : Nat := 12
def typeA : UInt16 := 1
def typeCname : UInt16 := 5
def classIn : UInt16 := 1

inductive Error where
  | malformed
  | bounds
  | mismatch
  | truncated
  | nxDomain
  | responseCode
  | noAddress
deriving DecidableEq

abbrev Address := Bytes 4

structure Answer where
  addresses : List Address
  ttlSeconds : UInt32
deriving DecidableEq

/-- Overflow gives no expiry. -/
def Answer.expiresAtMillis (answer : Answer) (now : Nat) : Option Nat :=
  if now + answer.ttlSeconds.toNat * 1000 < 2 ^ 64 then
    some (now + answer.ttlSeconds.toNat * 1000)
  else none

def isPublicAddress (address : Address) : Bool :=
  let a := address[0]
  let b := address[1]
  let c := address[2]
  !(a == 0 || a == 10 || a == 127 || 224 ≤ a
    || (a == 100 && 64 ≤ b && b ≤ 127)
    || (a == 169 && b == 254)
    || (a == 172 && 16 ≤ b && b ≤ 31)
    || (a == 192 && b == 168)
    || (a == 192 && b == 0 && (c == 0 || c == 2))
    || (a == 192 && b == 88 && c == 99)
    || (a == 198 && (b == 18 || b == 19))
    || (a == 198 && b == 51 && c == 100)
    || (a == 203 && b == 0 && c == 113))

def dot : UInt8 := 46

def isAsciiAlphanumeric (byte : UInt8) : Bool :=
  (48 ≤ byte && byte ≤ 57) || (65 ≤ byte && byte ≤ 90) || (97 ≤ byte && byte ≤ 122)

def toAsciiLowercase (byte : UInt8) : UInt8 :=
  if 65 ≤ byte && byte ≤ 90 then byte + 32 else byte

def isLabelByte (byte : UInt8) : Bool := isAsciiAlphanumeric byte || byte == 45

structure Name where
  bytes : List UInt8
  bound : bytes.length ≤ maxNameBytes
deriving DecidableEq

namespace Name

def empty : Name := ⟨[], Nat.zero_le _⟩

/-- The name with one more label, behind a dot unless it is the first. -/
def extended (bytes label : List UInt8) : List UInt8 :=
  bytes ++ (if bytes.isEmpty then [] else [dot]) ++ label.map toAsciiLowercase

def label (name : Name) (label : List UInt8) : Outcome Error Name :=
  if label.isEmpty || 63 < label.length || !label.all isLabelByte then
    .error (.returned .malformed)
  else if h : (extended name.bytes label).length ≤ maxNameBytes then
    .ok ⟨extended name.bytes label, h⟩
  else .error (.returned .bounds)

def fromHost (host : List UInt8) : Outcome Error Name := do
  rejectIf (host.isEmpty || maxNameBytes < host.length) .bounds
  (host.splitOn dot).foldlM Name.label Name.empty

end Name

/-- `from_be_bytes`. -/
def beNumber (bytes : List UInt8) : Nat :=
  bytes.foldl (fun number byte => number * 256 + byte.toNat) 0

def word? (packet : List UInt8) (offset : Nat) : Option UInt16 :=
  (part? packet offset 2).map fun bytes => UInt16.ofNat (beNumber bytes)

def long? (packet : List UInt8) (offset : Nat) : Option UInt32 :=
  (part? packet offset 4).map fun bytes => UInt32.ofNat (beNumber bytes)

def word (packet : List UInt8) (offset : Nat) : Outcome Error UInt16 :=
  okOr (word? packet offset) .malformed

def long (packet : List UInt8) (offset : Nat) : Outcome Error UInt32 :=
  okOr (long? packet offset) .malformed

/-- The loop of `read_name`. The cursor is set at the first jump. -/
def readNameFrom (packet : List UInt8) :
    (fuel : Nat) → Name → (position : Nat) → (cursor : Option Nat) → (hops : Nat) →
      Outcome Error (Name × Nat)
  | 0, _, _, _, _ => .error .diverged
  | fuel + 1, name, position, cursor, hops => do
    let tag ← okOr packet[position]? .malformed
    if tag &&& 0xc0 == 0xc0 then
      let target ← word packet position
      let pointer := (target &&& 0x3fff).toNat
      rejectIf (pointer < headerBytes || position ≤ pointer) .malformed
      rejectIf (maxPointerHops < hops + 1) .bounds
      readNameFrom packet fuel name pointer (some (cursor.getD (position + 2))) (hops + 1)
    else if tag &&& 0xc0 != 0 then .error (.returned .malformed)
    else if tag == 0 then pure (name, cursor.getD (position + 1))
    else
      let data ← okOr (part? packet (position + 1) tag.toNat) .malformed
      let name ← name.label data
      readNameFrom packet fuel name (position + 1 + tag.toNat) cursor hops

/-- A name and where the bytes after it begin. Every pass takes a byte of the name or a hop. -/
def readName (packet : List UInt8) (cursor : Nat) : Outcome Error (Name × Nat) :=
  readNameFrom packet (maxNameBytes + maxPointerHops + 1) Name.empty cursor none 0

/-- An answer record, as the places of its name and its data in the packet. -/
structure Record where
  owner : Nat
  kind : UInt16
  data : Nat
  ttl : UInt32
deriving DecidableEq

def checkAlias (packet : List UInt8) (cursor stop : Nat) : Outcome Error Unit := do
  let (aliasName, nameEnd) ← readName packet cursor
  rejectIf (aliasName.bytes.isEmpty || nameEnd != stop) .malformed

def checkData (packet : List UInt8) (kind dataClass : UInt16) (len cursor : Nat) :
    Outcome Error Unit :=
  if kind == typeA || kind == typeCname then do
    rejectIf (dataClass != classIn) .malformed
    rejectIf (kind == typeA && len != 4) .malformed
    if kind == typeCname then checkAlias packet cursor (cursor + len) else pure ()
  else pure ()

def readRecord (packet : List UInt8) (owner : Nat) : Outcome Error (Record × Nat) := do
  let (_, cursor) ← readName packet owner
  let kind ← word packet cursor
  let dataClass ← word packet (cursor + 2)
  let ttl ← long packet (cursor + 4)
  let len ← word packet (cursor + 8)
  let data := cursor + 10
  rejectIf (packet.length < data + len.toNat) .malformed
  checkData packet kind dataClass len.toNat data
  pure (⟨owner, kind, data, if ttl &&& 0x80000000 == 0 then ttl else 0⟩, data + len.toNat)

def walkRecord (packet : List UInt8) (answers : Nat) (walked : List Record × Nat) (index : Nat) :
    Outcome Error (List Record × Nat) := do
  let (record, next) ← readRecord packet walked.2
  pure (if index < answers then walked.1 ++ [record] else walked.1, next)

structure Scan where
  aliasName : Option Name
  answer : Answer

def addressAt (packet : List UInt8) (data : Nat) : Outcome Error Address :=
  if data + 4 ≤ packet.length then .ok (field packet data 4) else .error .panicked

def Answer.add (answer : Answer) (address : Address) (ttl : UInt32) : Outcome Error Answer :=
  if answer.addresses.contains address then
    .ok { answer with ttlSeconds := min answer.ttlSeconds ttl }
  else if answer.addresses.length = maxAddresses then .error (.returned .bounds)
  else .ok ⟨answer.addresses ++ [address], min answer.ttlSeconds ttl⟩

def scanRecord (packet : List UInt8) (name : Name) (scan : Scan) (record : Record) :
    Outcome Error Scan := do
  let (owner, _) ← readName packet record.owner
  if owner != name then pure scan
  else if record.kind == typeA then
    let address ← addressAt packet record.data
    let answer ← scan.answer.add address record.ttl
    pure { scan with answer := answer }
  else if record.kind == typeCname then
    let (next, _) ← readName packet record.data
    rejectIf (scan.aliasName.any (· != next)) .malformed
    pure
      { aliasName := some next
        answer := { scan.answer with ttlSeconds := min scan.answer.ttlSeconds record.ttl } }
  else pure scan

/-- One pass for each depth that is left. -/
def resolveFrom (packet : List UInt8) (records : List Record) :
    (left : Nat) → (visited : List Name) → Name → Answer → Outcome Error Answer
  | 0, _, _, _ => .error (.returned .bounds)
  | left + 1, visited, name, answer => do
    rejectIf (visited.contains name) .malformed
    let scan ← records.foldlM (scanRecord packet name) ⟨none, answer⟩
    match scan.aliasName with
    | some next => do
      rejectIf (!scan.answer.addresses.isEmpty) .malformed
      rejectIf (left == 0) .bounds
      resolveFrom packet records left (visited ++ [name]) next scan.answer
    | none =>
      if scan.answer.addresses.isEmpty then .error (.returned .noAddress) else pure scan.answer

def resolve (packet : List UInt8) (records : List Record) (name : Name) : Outcome Error Answer :=
  resolveFrom packet records (maxAliases + 1) [] name ⟨[], 0xffffffff⟩

/-- A response that echoes the question, without an error. Answers where its records begin. -/
def checkHeader (packet : List UInt8) (id : UInt16) (question : Name) : Outcome Error Nat := do
  rejectIf (packet.length < headerBytes || maxPacketBytes < packet.length) .bounds
  let echoed ← word packet 0
  rejectIf (echoed != id) .mismatch
  let flags ← word packet 2
  rejectIf (flags &&& 0x8000 == 0 || flags &&& 0x7840 != 0) .malformed
  let questions ← word packet 4
  rejectIf (questions != 1) .malformed
  let (name, cursor) ← readName packet headerBytes
  rejectIf (name != question) .mismatch
  let kind ← word packet cursor
  rejectIf (kind != typeA) .mismatch
  let questionClass ← word packet (cursor + 2)
  rejectIf (questionClass != classIn) .mismatch
  rejectIf (flags &&& 0x0200 != 0) .truncated
  rejectIf (flags &&& 0xf == 3) .nxDomain
  rejectIf (flags &&& 0xf != 0) .responseCode
  pure (cursor + 4)

def parseResponse (packet : List UInt8) (id : UInt16) (question : List UInt8) :
    Outcome Error Answer := do
  let question ← Name.fromHost question
  let cursor ← checkHeader packet id question
  let answers ← word packet 6
  let authorities ← word packet 8
  let additionals ← word packet 10
  let total := answers.toNat + authorities.toNat + additionals.toNat
  rejectIf (maxRecords < total) .bounds
  let (records, cursor) ←
    (List.range total).foldlM (walkRecord packet answers.toNat) ([], cursor)
  rejectIf (cursor != packet.length) .malformed
  resolve packet records question

end SlimeOs.Dns
