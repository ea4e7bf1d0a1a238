import SlimeOs.StoreCommit

/-!
A store through any history of puts and power losses. Each put runs on a handle
kept from an earlier put or freshly opened, and may lose power after any number
of device operations. The store that opens afterwards holds exactly the objects
whose superblock was written.
-/

namespace SlimeOs.StoreCrash

open BlockDevice FallibleCall List ObjectStorage StoreCommit StoreDisk StoreRoots StoredObjects

def genesis : Superblock :=
  { sequence := 1
    appendLba := recordAreaStart
    objectCount := 0 }

/-- A put: on a fresh handle or on the one at hand, with power for a number of device
operations. -/
structure Attempt where
  reopen : Bool
  object : Object
  power : Nat

/-- The disk, the handle that is alive, and the objects that count as put so far. -/
structure Machine where
  disk : Disk
  handle : Option ObjectStore
  puts : List Object

/-- Content that is already there is not added again. -/
def record (objects : List Object) (object : Object) : List Object :=
  if objects.any fun other => other.payload == object.payload then objects
  else objects ++ [object]

section Machine

variable (crc32 : List UInt8 → UInt32) (sha256 : List UInt8 → Hash) (partition : Partition)

def handleFor (machine : Machine) (attempt : Attempt) : Outcome StoreError ObjectStore :=
  match attempt.reopen, machine.handle with
  | false, some store => .ok store
  | _, _ => (ObjectStore.openStore crc32 partition (Device.fresh machine.disk)).1

/-- The machine after a put. It counts when it returned `Ok`, or when power was lost after
its superblock write; a handle does not survive the loss of power. -/
def settle (machine : Machine) (attempt : Attempt) (outcome : Outcome StoreError Hash)
    (session : Session) : Machine :=
  let lost := decide (attempt.power < session.device.clock)
  let superblockWritten :=
    session.device.trace.any fun write => decide (write.1 < partition.firstLba.toNat + 2)
  { disk := session.device.disk
    handle := if lost then none else some session.store
    puts :=
      if outcome.isOk || (lost && superblockWritten) then record machine.puts attempt.object
      else machine.puts }

def step (machine : Machine) (attempt : Attempt) : Machine :=
  match handleFor crc32 partition machine attempt with
  | .error _ => machine
  | .ok store =>
    let (outcome, session) := put crc32 sha256 (powerFor .device attempt.power)
      attempt.object.objType attempt.object.payload ⟨store, Device.fresh machine.disk⟩
    settle partition machine attempt outcome session

/-- One slot holds the genesis superblock and the other none at all. -/
structure Formatted (sectors : UInt64) (disk : Disk) (slot : Slot) : Prop where
  genesis : disk (partition.firstLba.toNat + slot.lba) = encodeSuperblock crc32 genesis sectors
  blank : slotRoot crc32 partition.firstLba sectors disk slot.other = none

/-- The disk is rooted in exactly the puts that count, and a live handle is the handle of
that root. -/
structure Consistent (sectors : UInt64) (machine : Machine) (slot : Slot) (root : Superblock) :
    Prop where
  rooted : Rooted crc32 sha256 partition.firstLba sectors machine.disk slot root machine.puts
  sequence : root.sequence.toNat = machine.puts.length + 1
  distinct : (machine.puts.map fun object => sha256 object.payload).Nodup
  handle : ∀ store, machine.handle = some store →
    store = handleOf sha256 partition.firstLba sectors slot root machine.puts

variable {crc32 sha256 partition} {sectors : UInt64} {machine : Machine} {slot : Slot}
  {root : Superblock}

theorem consistent_formatted (hspans : Spans partition sectors) {disk : Disk}
    (h : Formatted crc32 partition sectors disk slot) :
    Consistent crc32 sha256 partition sectors ⟨disk, none, []⟩ slot genesis := by
  have hinside : genesis.outOfBounds sectors = false := by
    have harea : (recordAreaStart + 1).toNat = 3 := rfl
    have hfits := hspans.fits
    rw [UInt64.lt_iff_toNat_lt] at hfits
    rw [outOfBounds_eq_false_iff]
    refine ⟨le_refl 2, ?_, Nat.zero_le _, by decide⟩
    change 2 ≤ sectors.toNat
    omega
  refine ⟨⟨newestRoot_eq (slotRoot_encode hinside h.genesis) ?_, rfl, rfl⟩, rfl, nodup_nil, nofun⟩
  intro older holder
  rw [h.blank] at holder
  cases holder

theorem record_of_fresh {objects : List Object} {object : Object}
    (h : ∀ other ∈ objects, sha256 other.payload ≠ sha256 object.payload) :
    record objects object = objects ++ [object] := by
  unfold record
  rw [if_neg]
  intro hany
  obtain ⟨other, hother, hsame⟩ := by simpa using hany
  exact h other hother (by rw [hsame])

section Settling

variable {attempt : Attempt} {outcome : Outcome StoreError Hash} {session : Session}

theorem settle_handle {store : ObjectStore}
    (h : (settle partition machine attempt outcome session).handle = some store) :
    store = session.store := by
  change (if decide (attempt.power < session.device.clock) then none else some session.store) =
    some store at h
  split at h
  · cases h
  · exact (Option.some.inj h).symm

theorem settle_puts_kept
    (htrace : ∀ write ∈ session.device.trace, partition.firstLba.toNat + 2 ≤ write.1)
    (hok : ∀ hash, outcome = .ok hash →
      ∃ other ∈ machine.puts, other.payload = attempt.object.payload) :
    (settle partition machine attempt outcome session).puts = machine.puts := by
  have hslots : (session.device.trace.any fun write =>
      decide (write.1 < partition.firstLba.toNat + 2)) = false := by
    rw [List.any_eq_false]
    intro write hwrite
    simpa using htrace write hwrite
  simp only [settle, hslots, Bool.and_false, Bool.or_false]
  rcases outcome with - | hash
  · rfl
  · change record machine.puts attempt.object = machine.puts
    unfold record
    simpa using hok hash rfl

theorem settle_puts_counted
    (hcounts : (∃ hash, outcome = .ok hash) ∨ attempt.power < session.device.clock)
    (htrace : ∃ write ∈ session.device.trace, write.1 < partition.firstLba.toNat + 2) :
    (settle partition machine attempt outcome session).puts =
      record machine.puts attempt.object := by
  have hslots : (session.device.trace.any fun write =>
      decide (write.1 < partition.firstLba.toNat + 2)) = true := by
    simpa using htrace
  simp only [settle, hslots, Bool.and_true]
  rcases hcounts with ⟨hash, rfl⟩ | hlost
  · rfl
  · rw [decide_eq_true hlost, Bool.or_true, if_pos rfl]

end Settling

/-- What the record writes of a put preserve. -/
def Untouched (crc32 : List UInt8 → UInt32) (sha256 : List UInt8 → Hash) (partition : Partition)
    (sectors : UInt64) (machine : Machine) (slot : Slot) (root : Superblock)
    (device : Device Sector) : Prop :=
  Rooted crc32 sha256 partition.firstLba sectors device.disk slot root machine.puts ∧
    ∀ write ∈ device.trace, partition.firstLba.toNat + 2 ≤ write.1

theorem settle_consistent (h : Consistent crc32 sha256 partition sectors machine slot root)
    {attempt : Attempt} {outcome : Outcome StoreError Hash} {session : Session}
    (hexit : Exit crc32 sha256 partition.firstLba sectors (powerFor .device attempt.power)
      (Untouched crc32 sha256 partition sectors machine slot root) slot root machine.puts
      attempt.object outcome session) :
    ∃ slot' root', Consistent crc32 sha256 partition sectors
      (settle partition machine attempt outcome session) slot' root' := by
  cases hexit with
  | @kept outcome device hinv hok =>
    generalize hsession : Session.mk (handleOf sha256 partition.firstLba sectors slot root
      machine.puts) device = session
    have hputs := @settle_puts_kept partition machine attempt outcome session
      (by rw [← hsession]; exact hinv.2) hok
    refine ⟨slot, root, ?_, ?_, ?_, ?_⟩
    · rw [hputs, ← hsession]
      exact hinv.1
    · rw [hputs]
      exact h.sequence
    · rw [hputs]
      exact h.distinct
    · intro store hstore
      rw [hputs, settle_handle hstore, ← hsession]
  | @committed outcome device next hinv hadds hflush =>
    have hsequence := hadds.extended.sequence
    have hroom := hadds.extended.room
    rw [h.sequence] at hsequence
    have hmax : next.sequence ≠ maxSequence := by
      intro hmax
      rw [hmax] at hsequence
      have hvalue : maxSequence.toNat = 18446744073709551615 := rfl
      unfold maxObjects at hroom
      omega
    generalize hsession : Session.mk (handleOf sha256 partition.firstLba sectors slot.other next
      (machine.puts ++ [attempt.object]))
      (commitWrite crc32 partition.firstLba sectors slot next device).idled = session
    have hputs : (settle partition machine attempt outcome session).puts =
        machine.puts ++ [attempt.object] := by
      rw [settle_puts_counted, record_of_fresh hadds.fresh]
      · apply hflush.imp_right
        rintro ⟨error, written, hanswer⟩
        -- the last flush is the operation power was lost at
        have hpower := (powerFor_failed hanswer).1
        rw [← hsession]
        exact Nat.lt_succ_of_le hpower
      · rw [← hsession]
        refine ⟨_, mem_cons_self, ?_⟩
        exact Nat.add_lt_add_left (Slot.lba_lt slot.other) _
    refine ⟨slot.other, next, ?_, ?_, ?_, ?_⟩
    · rw [hputs, ← hsession]
      exact hinv.1.commit hadds.held hadds.extended hmax
    · rw [hputs, hsequence, length_append, length_singleton]
    · rw [hputs, map_append, nodup_append]
      refine ⟨h.distinct, nodup_singleton _, ?_⟩
      intro hash hhash other hother
      obtain ⟨object, hobject, rfl⟩ := List.mem_map.mp hhash
      obtain rfl := mem_singleton.mp hother
      exact hadds.fresh object hobject
    · intro store hstore
      rw [hputs, settle_handle hstore, ← hsession]
  | ambiguous hinv hadds hanswer =>
    exact absurd (powerFor_failed hanswer).2 nofun

theorem step_consistent (hspans : Spans partition sectors)
    (h : Consistent crc32 sha256 partition sectors machine slot root) (attempt : Attempt) :
    ∃ slot' root', Consistent crc32 sha256 partition sectors
      (step crc32 sha256 partition machine attempt) slot' root' := by
  have hbounds := h.rooted.bounds
  have hexit := @put_ensures crc32 sha256 partition.firstLba sectors
    (powerFor .device attempt.power)
    (Untouched crc32 sha256 partition sectors machine slot root) slot root machine.puts
    attempt.object (Device.fresh machine.disk) h.rooted ⟨h.rooted, nofun⟩
    (fun device hdevice => hdevice) (fun device lba sector hdevice hlba => by
      refine ⟨hdevice.1.update_record sector hlba, ?_⟩
      intro write hwrite
      rcases mem_cons.mp hwrite with rfl | hwrite
      · omega
      · exact hdevice.2 write hwrite)
  have hsettled := settle_consistent h hexit
  have hopen := @openStore_rooted crc32 sha256 sectors slot root machine.puts partition hspans
    (Device.fresh machine.disk) h.rooted
  have hhandle : handleFor crc32 partition machine attempt =
      .ok (handleOf sha256 partition.firstLba sectors slot root machine.puts) := by
    unfold handleFor
    split
    next store _ hstore => rw [h.handle store hstore]
    · rw [hopen]
  unfold step
  rw [hhandle]
  exact hsettled

theorem run_consistent (hspans : Spans partition sectors) {disk : Disk}
    (hformatted : Formatted crc32 partition sectors disk slot) (attempts : List Attempt) :
    ∃ slot' root', Consistent crc32 sha256 partition sectors
      (run (step crc32 sha256 partition) ⟨disk, none, []⟩ attempts) slot' root' := by
  apply run_invariant (step crc32 sha256 partition)
    (fun machine => ∃ slot' root', Consistent crc32 sha256 partition sectors machine slot' root')
  · rintro machine attempt ⟨slot', root', h⟩
    exact step_consistent hspans h attempt
  · exact ⟨slot, genesis, consistent_formatted hspans hformatted⟩

end Machine

/-- After any history of puts on a formatted store, each on a fresh or a kept handle and
each with power for any number of device operations, the store opens. Its index lists
exactly the objects whose put returned `Ok` or lost power after its superblock write, in
that order, and each of them is returned with its type and payload. -/
theorem store_crashConsistent (crc32 : List UInt8 → UInt32) (sha256 : List UInt8 → Hash)
    (partition : Partition) (sectors : UInt64) (disk : Disk) (slot : Slot)
    (hspans : Spans partition sectors)
    (hformatted : Formatted crc32 partition sectors disk slot) (attempts : List Attempt) :
    let machine := run (step crc32 sha256 partition) ⟨disk, none, []⟩ attempts
    ∃ store, ObjectStore.openStore crc32 partition (Device.fresh machine.disk) =
        (.ok store, Device.fresh machine.disk) ∧
      (store.entries.map fun entry => (entry.hash, entry.objType, entry.payloadLen.toNat)) =
        (machine.puts.map fun object =>
          (sha256 object.payload, object.objType, object.payload.length)) ∧
      ∀ object ∈ machine.puts, ∀ bufferLen, object.payload.length ≤ bufferLen →
        (store.get sha256 (sha256 object.payload) bufferLen (Device.fresh machine.disk)).1 =
          .ok (object.objType, object.payload) := by
  intro machine
  obtain ⟨slot', root, h⟩ :=
    @run_consistent crc32 sha256 partition sectors slot hspans disk hformatted attempts
  refine ⟨handleOf sha256 partition.firstLba sectors slot' root machine.puts,
    openStore_rooted hspans h.rooted, map_index h.rooted.chain.fits 2, ?_⟩
  intro object hobject bufferLen hbuffer
  have hget := @get_chain sha256
    (handleOf sha256 partition.firstLba sectors slot' root machine.puts)
    (Device.fresh machine.disk) 2 root.appendLba.toNat machine.puts object bufferLen h.rooted.chain
    root.appendLba.toNat_lt rfl h.distinct hobject hbuffer
  rw [hget]

def sampleCrc (_ : List UInt8) : UInt32 := 0

def sampleHash (payload : List UInt8) : Hash :=
  ByteLayout.splice (ByteLayout.zeros 32) 0 (ByteLayout.field payload 0 1)

def samplePartition : Partition := ⟨8, 103⟩

def sampleDisk : Disk :=
  Function.update (fun _ => ByteLayout.zeros sectorBytes) 8
    (encodeSuperblock sampleCrc genesis 96)

/-- A put completes, the next loses power at its superblock write, and the last reuses the
space of the record left behind. -/
def sampleAttempts : List Attempt :=
  [⟨true, ⟨7, [1, 2]⟩, 4⟩, ⟨false, ⟨8, [3]⟩, 2⟩, ⟨true, ⟨9, [4, 5]⟩, 9⟩]

theorem samplePartition_spans : Spans samplePartition 96 := ⟨by decide, by decide⟩

theorem sampleDisk_formatted : Formatted sampleCrc samplePartition 96 sampleDisk .a := by
  refine ⟨Function.update_self .., ?_⟩
  rfl

theorem store_crashConsistent_sample :
    let machine := run (step sampleCrc sampleHash samplePartition) ⟨sampleDisk, none, []⟩
      sampleAttempts
    ∃ store, ObjectStore.openStore sampleCrc samplePartition (Device.fresh machine.disk) =
        (.ok store, Device.fresh machine.disk) ∧
      (store.entries.map fun entry => (entry.hash, entry.objType, entry.payloadLen.toNat)) =
        (machine.puts.map fun object =>
          (sampleHash object.payload, object.objType, object.payload.length)) ∧
      ∀ object ∈ machine.puts, ∀ bufferLen, object.payload.length ≤ bufferLen →
        (store.get sampleHash (sampleHash object.payload) bufferLen
          (Device.fresh machine.disk)).1 = .ok (object.objType, object.payload) :=
  store_crashConsistent sampleCrc sampleHash samplePartition 96 sampleDisk .a
    samplePartition_spans sampleDisk_formatted sampleAttempts

end SlimeOs.StoreCrash
