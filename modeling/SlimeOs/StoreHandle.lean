import SlimeOs.StoreCrash

/-!
One live handle on a device whose writes and flushes may fail ambiguously.

While no superblock on the disk is newer than the handle, its puts write only
beyond what the newest superblock covers, and the store opens and passes the
scrub after each single write. A superblock write that fails although the sector
was written leaves such a superblock behind.
-/

namespace SlimeOs.StoreHandle

open BlockDevice CheckedWord FallibleCall ObjectStorage StoreCommit StoreDisk StoredObjects
  StoreRoots FallibleCall.Call
open StoreCrash (genesis sampleCrc sampleHash samplePartition sampleDisk samplePartition_spans
  sampleDisk_formatted consistent_formatted)

section Handle

variable (crc32 : List UInt8 → UInt32) (sha256 : List UInt8 → Hash)
  (answers : Nat → Answer IoError) (partition : Partition)

def step (session : Session) (object : Object) : Session :=
  (put crc32 sha256 answers object.objType object.payload session).2

/-- No superblock on the disk is newer than the handle. -/
def Current (session : Session) : Prop :=
  ∀ slot root, slotRoot crc32 session.store.firstLba session.store.partitionSectors
    session.device.disk slot = some root → root.sequence ≤ session.store.sequence

def Readable (disk : Disk) : Prop :=
  ∃ store, ObjectStore.openStore crc32 partition (Device.fresh disk) =
      (.ok store, Device.fresh disk) ∧
    store.scrub sha256 (Device.fresh disk) = (.ok (), Device.fresh disk)

/-- A write at `lba` is not one into a record the newest superblock covers. -/
def Spares (sectors : UInt64) (disk : Disk) (lba : Nat) : Prop :=
  ∀ slot root, newestRoot (slotRoot crc32 partition.firstLba sectors disk .a)
      (slotRoot crc32 partition.firstLba sectors disk .b) = some (slot, root) →
    partition.firstLba.toNat + 2 ≤ lba →
    partition.firstLba.toNat + root.appendLba.toNat ≤ lba

/-- The device holds this root and was readable, and its records spared, ever since `disk`. -/
structure Watched (sectors : UInt64) (disk : Disk) (slot : Slot) (root : Superblock)
    (objects : List Object) (device : Device Sector) : Prop where
  rooted : Rooted crc32 sha256 partition.firstLba sectors device.disk slot root objects
  observed : Observed disk (Readable crc32 sha256 partition)
    (Spares crc32 partition sectors) device

/-- The handle is the one of the root, or it can write no more, or it has been overtaken. -/
def Standing (sectors : UInt64) (slot : Slot) (root : Superblock) (objects : List Object)
    (session : Session) : Prop :=
  session.store = handleOf sha256 partition.firstLba sectors slot root objects ∨
    session.store.sequence = maxSequence ∨ ¬ Current crc32 session

variable {crc32 sha256 answers partition} {sectors : UInt64} {disk : Disk} {slot : Slot}
  {root : Superblock} {objects : List Object} {device : Device Sector}

theorem readable_of_rooted (hspans : Spans partition sectors)
    (h : Rooted crc32 sha256 partition.firstLba sectors disk slot root objects) :
    Readable crc32 sha256 partition disk :=
  ⟨_, @openStore_rooted crc32 sha256 sectors slot root objects partition hspans
    (Device.fresh disk) h, @scrub_rooted crc32 sha256 partition.firstLba sectors slot root objects
    (Device.fresh disk) h⟩

theorem Watched.idled (h : Watched crc32 sha256 partition sectors disk slot root objects device) :
    Watched crc32 sha256 partition sectors disk slot root objects device.idled :=
  ⟨h.rooted, h.observed.idled⟩

theorem Watched.wrote_slot (hspans : Spans partition sectors)
    (h : Watched crc32 sha256 partition sectors disk slot root objects device)
    {slot' : Slot} {root' : Superblock} {objects' : List Object} {target : Slot} {sector : Sector}
    (hrooted : Rooted crc32 sha256 partition.firstLba sectors
      (Function.update device.disk (partition.firstLba.toNat + target.lba) sector)
      slot' root' objects') :
    Watched crc32 sha256 partition sectors disk slot' root' objects'
      (device.wrote (partition.firstLba.toNat + target.lba) sector) := by
  have hlow := Slot.lba_lt target
  refine ⟨hrooted, h.observed.wrote ?_ (readable_of_rooted hspans hrooted)⟩
  intro _ _ _ hlba
  omega

theorem readPayload_keeps (store : ObjectStore) (entry : Entry) (device : Device Sector) :
    (store.readPayload entry device).2 = device := by
  unfold ObjectStore.readPayload
  rcases hsectors : recordSectors entry.payloadLen.toUInt64 with - | count
  · rfl
  · change ((readSectors _ count.toNat >>= fun bytes => _) device).2 = device
    rw [bind_apply, readSectors_eq]
    rfl

variable {session : Session}

theorem put_exhausted (object : Object) (h : session.store.sequence = maxSequence) :
    step crc32 sha256 answers session object = session := by
  have hensures : Ensures (put crc32 sha256 answers object.objType object.payload) session
      fun _ session' => session' = session := by
    refine Call.ensures_rejectIf (fun _ => ?_) fun _ => rfl
    apply ensures_read
    rcases session.store.find (sha256 object.payload) with _ | entry
    · refine Call.ensures_rejectIf (fun _ => ?_) fun _ => rfl
      refine ensures_lift (fun _ _ => ?_) fun _ => rfl
      refine ensures_lift (fun _ _ => ?_) fun _ => rfl
      refine Call.ensures_rejectIf (fun _ => ?_) fun _ => rfl
      refine ensures_lift (fun sequence hsequence => ?_) fun _ => rfl
      rw [h] at hsequence
      cases hsequence
    · have hread : Ensures (onDevice (session.store.readPayload entry)) session
          fun _ session' => session' = session := by
        change { session with device := (session.store.readPayload entry session.device).2 } =
          session
        rw [readPayload_keeps]
      refine ensures_bind hread ?_ fun _ _ hkept => hkept
      rintro payload _ rfl
      exact Call.ensures_rejectIf (fun _ => rfl) fun _ => rfl
  exact hensures

theorem step_watched (hspans : Spans partition sectors) (object : Object)
    (hwatched : Watched crc32 sha256 partition sectors disk slot root objects session.device)
    (hstanding : Standing crc32 sha256 partition sectors slot root objects session)
    (hcurrent : Current crc32 session) :
    ∃ slot' root' objects',
      Watched crc32 sha256 partition sectors disk slot' root' objects'
        (step crc32 sha256 answers session object).device ∧
      Standing crc32 sha256 partition sectors slot' root' objects'
        (step crc32 sha256 answers session object) := by
  rcases hstanding with hstore | hexhausted | hovertaken
  · obtain ⟨store, device⟩ := session
    obtain rfl := hstore
    obtain ⟨outcome, hexit⟩ : ∃ outcome, Exit crc32 sha256 partition.firstLba sectors answers
        (Watched crc32 sha256 partition sectors disk slot root objects) slot root objects object
        outcome (step crc32 sha256 answers
          ⟨handleOf sha256 partition.firstLba sectors slot root objects, device⟩ object) :=
      ⟨_, put_ensures hwatched.rooted hwatched (fun _ h => h.idled) fun _ _ sector h hlba => by
        have hrooted := h.rooted.update_record sector hlba
        refine ⟨hrooted, h.observed.wrote ?_ (readable_of_rooted hspans hrooted)⟩
        intro slot' root' hnewest _
        obtain ⟨-, rfl⟩ := Prod.mk.inj (Option.mem_unique hnewest h.rooted.newest)
        exact hlba⟩
    generalize step crc32 sha256 answers _ object = session' at hexit ⊢
    cases hexit with
    | @kept outcome device hinv hok => exact ⟨slot, root, objects, hinv, .inl rfl⟩
    | @committed outcome device next hinv hadds hflush =>
      by_cases hmax : next.sequence = maxSequence
      · exact ⟨slot, root, objects,
          (hinv.wrote_slot hspans (hinv.rooted.exhaust hmax)).idled, .inr (.inl hmax)⟩
      · exact ⟨slot.other, next, objects ++ [object],
          (hinv.wrote_slot hspans
            (hinv.rooted.commit hadds.held hadds.extended hmax)).idled, .inl rfl⟩
    | @ambiguous fault error device next hinv hadds hanswer =>
      by_cases hmax : next.sequence = maxSequence
      · exact ⟨slot, root, objects, hinv.wrote_slot hspans (hinv.rooted.exhaust hmax), .inl rfl⟩
      have hrooted := hinv.rooted.commit hadds.held hadds.extended hmax
      refine ⟨slot.other, next, objects ++ [object], hinv.wrote_slot hspans hrooted,
        .inr (.inr fun hcurrent => ?_)⟩
      -- the superblock that was written is newer than the handle
      have hle := hcurrent slot.other next hrooted.slotRoot_eq
      have hnewer := hadds.extended.sequence
      change next.sequence.toNat ≤ root.sequence.toNat at hle
      omega
  · rw [put_exhausted object hexhausted]
    exact ⟨slot, root, objects, hwatched, .inr (.inl hexhausted)⟩
  · exact absurd hcurrent hovertaken

theorem current_of_newest {session : Session} (hnewest : newestRoot
      (slotRoot crc32 session.store.firstLba session.store.partitionSectors session.device.disk .a)
      (slotRoot crc32 session.store.firstLba session.store.partitionSectors session.device.disk
        .b) = some (slot, root)) (hle : root.sequence ≤ session.store.sequence) :
    Current crc32 session := by
  intro target other hother
  have hnewer := (@newestRoot_newest (slotRoot crc32 session.store.firstLba
    session.store.partitionSectors session.device.disk) slot root hnewest).2 target other hother
  exact UInt64.le_trans hnewer hle

end Handle

/-- A handle on a store that opens and passes the scrub, used for any puts while writes and
flushes fail as they like: as long as no superblock on the disk is newer than the handle
when a put begins, each write spares the records the newest superblock covers, and the
store is readable after each of them. -/
theorem handle_safe_while_current (crc32 : List UInt8 → UInt32) (sha256 : List UInt8 → Hash)
    (answers : Nat → Answer IoError) (partition : Partition) (disk : Disk) (store : ObjectStore)
    (puts : List Object)
    (hopen : ObjectStore.openStore crc32 partition (Device.fresh disk) =
      (.ok store, Device.fresh disk))
    (hscrub : store.scrub sha256 (Device.fresh disk) = (.ok (), Device.fresh disk))
    (hcurrent : Permitted (step crc32 sha256 answers) (fun session _ => Current crc32 session)
      ⟨store, Device.fresh disk⟩ puts) :
    let device := (run (step crc32 sha256 answers) ⟨store, Device.fresh disk⟩ puts).device
    device.disk = replay disk device.trace ∧
      (∀ lba sector earlier, (lba, sector) :: earlier <:+ device.trace →
        Spares crc32 partition store.partitionSectors (replay disk earlier) lba) ∧
      ∀ earlier, earlier <:+ device.trace →
        Readable crc32 sha256 partition (replay disk earlier) := by
  obtain ⟨sectors, slot, root, objects, hspans, hrooted, rfl⟩ := exists_rooted hopen hscrub
  have hwatched : Watched crc32 sha256 partition sectors disk slot root objects
      (Device.fresh disk) :=
    ⟨hrooted, observed_fresh (readable_of_rooted hspans hrooted)⟩
  have hstanding : Standing crc32 sha256 partition sectors slot root objects
      ⟨handleOf sha256 partition.firstLba sectors slot root objects, Device.fresh disk⟩ := .inl rfl
  obtain ⟨slot', root', objects', h, -⟩ := run_invariant_permitted (step crc32 sha256 answers)
    (fun session => ∃ slot' root' objects',
      Watched crc32 sha256 partition sectors disk slot' root' objects' session.device ∧
        Standing crc32 sha256 partition sectors slot' root' objects' session) _
    (fun session object ⟨_, _, _, hwatched, hstanding⟩ hcurrent =>
      step_watched hspans object hwatched hstanding hcurrent) _ puts
    ⟨_, _, _, hwatched, hstanding⟩ hcurrent
  exact ⟨h.observed.replayed, h.observed.targets, h.observed.contents⟩

def sampleSession : Session :=
  ⟨handleOf sampleHash 8 96 .a genesis [], Device.fresh sampleDisk⟩

/-- One operation fails: a write although the sector was written, a flush all the same. -/
def failAt (failing clock : Nat) : Answer IoError :=
  if clock = failing then .failed .timeout true else .done

theorem sample_rooted : Rooted sampleCrc sampleHash samplePartition.firstLba 96 sampleDisk .a
    genesis [] :=
  (consistent_formatted samplePartition_spans sampleDisk_formatted).rooted

/-- Slot A holds the genesis superblock and slot B the first commit. -/
theorem newestRoot_committed {disk : Disk} (ha : disk 8 = encodeSuperblock sampleCrc genesis 96)
    (hb : disk 9 = encodeSuperblock sampleCrc ⟨2, 3, 1⟩ 96) :
    newestRoot (slotRoot sampleCrc 8 96 disk .a) (slotRoot sampleCrc 8 96 disk .b) =
      some (.b, ⟨2, 3, 1⟩) := by
  have hrootA : slotRoot sampleCrc 8 96 disk .a = some genesis := slotRoot_encode (by decide) ha
  have hrootB : slotRoot sampleCrc 8 96 disk .b = some ⟨2, 3, 1⟩ := slotRoot_encode (by decide) hb
  rw [hrootA, hrootB]
  rfl

theorem handle_safe_while_current_flush :
    let device := (run (step sampleCrc sampleHash (failAt 3)) sampleSession
      [⟨7, [1]⟩, ⟨8, [2]⟩]).device
    device.disk = replay sampleDisk device.trace ∧
      (∀ lba sector earlier, (lba, sector) :: earlier <:+ device.trace →
        Spares sampleCrc samplePartition 96 (replay sampleDisk earlier) lba) ∧
      ∀ earlier, earlier <:+ device.trace →
        Readable sampleCrc sampleHash samplePartition (replay sampleDisk earlier) := by
  have hopen := @openStore_rooted sampleCrc sampleHash 96 .a genesis [] samplePartition
    samplePartition_spans (Device.fresh sampleDisk) sample_rooted
  have hscrub := @scrub_rooted sampleCrc sampleHash samplePartition.firstLba 96 .a genesis []
    (Device.fresh sampleDisk) sample_rooted
  have hstart : Current sampleCrc sampleSession :=
    current_of_newest sample_rooted.newest (UInt64.le_refl _)
  -- the last flush of the first put failed, but the handle has advanced
  have hnext : Current sampleCrc
      (step sampleCrc sampleHash (failAt 3) sampleSession ⟨7, [1]⟩) :=
    @current_of_newest sampleCrc .b ⟨2, 3, 1⟩ _ (newestRoot_committed rfl rfl) (by decide)
  exact handle_safe_while_current sampleCrc sampleHash (failAt 3) samplePartition sampleDisk
    (handleOf sampleHash 8 96 .a genesis []) [⟨7, [1]⟩, ⟨8, [2]⟩] hopen hscrub
    ⟨hstart, hnext, trivial⟩

def longPayload : List UInt8 := List.replicate 449 2

theorem length_longPayload : longPayload.length = 449 := List.length_replicate

def overwritten : List (Nat × Sector) :=
  [(10, ByteLayout.field (recordBytes 8 longPayload (sampleHash longPayload) 2) 0 sectorBytes),
   (9, encodeSuperblock sampleCrc ⟨2, 3, 1⟩ 96),
   (10, ByteLayout.field (recordBytes 7 [1] (sampleHash [1]) 1) 0 sectorBytes)]

/-- After a put whose superblock write fails although the sector was written, a record of two
sectors is appended where the first put began. -/
theorem second_put_trace {payload : List UInt8} (hlength : payload.length = 449) :
    (run (step sampleCrc sampleHash (failAt 2)) sampleSession
      [⟨7, [1]⟩, ⟨8, payload⟩]).device.trace =
        [(9, encodeSuperblock sampleCrc ⟨2, 4, 1⟩ 96),
          (11, ByteLayout.field (recordBytes 8 payload (sampleHash payload) 2) sectorBytes
            sectorBytes),
          (10, ByteLayout.field (recordBytes 8 payload (sampleHash payload) 2) 0 sectorBytes),
          (9, encodeSuperblock sampleCrc ⟨2, 3, 1⟩ 96),
          (10, ByteLayout.field (recordBytes 7 [1] (sampleHash [1]) 1) 0 sectorBytes)] := by
  simp only [run_cons, run_nil, step, put, append, hlength]
  rfl

theorem ambiguous_trace : overwritten <:+ (run (step sampleCrc sampleHash (failAt 2)) sampleSession
      [⟨7, [1]⟩, ⟨8, longPayload⟩]).device.trace := by
  rw [second_put_trace length_longPayload]
  exact ⟨[_, _], rfl⟩

/-- The record that was written over is longer than what the superblock covers. -/
theorem overwritten_unreadable :
    ¬ Readable sampleCrc sampleHash samplePartition (replay sampleDisk overwritten) := by
  rintro ⟨store, hopen, hscrub⟩
  obtain ⟨sectors, slot, root, objects, hspans, hrooted, -⟩ := exists_rooted hopen hscrub
  obtain rfl := Option.mem_unique hspans.count samplePartition_spans.count
  have hnewest := hrooted.newest.symm.trans
    (@newestRoot_committed (replay sampleDisk overwritten) rfl rfl)
  obtain ⟨-, rfl⟩ := Prod.mk.inj (Option.some.inj hnewest)
  have hchain := hrooted.chain
  rcases objects with _ | ⟨object, objects⟩
  · exact absurd hchain (show ¬ 10 = 11 by decide)
  have hfits : longPayload.length ≤ maxObjectPayload := by
    rw [length_longPayload]
    decide
  have hheader : decodeRecordHeader (replay sampleDisk overwritten 10) =
      .ok (Object.entry sampleHash ⟨8, longPayload⟩ 0) :=
    decodeRecordHeader_recordImage ⟨8, longPayload⟩ 2 hfits
  have hentry := Except.ok.inj (hchain.1.header.symm.trans hheader)
  have hlength : object.payload.length = longPayload.length := by
    rw [← @Object.payloadLen_entry sampleHash object 0 hchain.1.fits, hentry]
    exact Object.payloadLen_entry hfits
  have hle := Chain.le hchain.2
  rw [hlength, length_longPayload] at hle
  exact absurd hle (by decide)

/-- A put whose superblock write fails although the sector was written, and a longer put on
the same handle: its first sector goes over the record the disk has committed, and a store
interrupted there does not open. -/
theorem ambiguous_commit_overwrites :
    ObjectStore.openStore sampleCrc samplePartition (Device.fresh sampleDisk) =
        (.ok sampleSession.store, Device.fresh sampleDisk) ∧
      sampleSession.store.scrub sampleHash (Device.fresh sampleDisk) =
        (.ok (), Device.fresh sampleDisk) ∧
      ∃ lba sector earlier, (lba, sector) :: earlier <:+
          (run (step sampleCrc sampleHash (failAt 2)) sampleSession
            [⟨7, [1]⟩, ⟨8, longPayload⟩]).device.trace ∧
        ¬ Spares sampleCrc samplePartition 96 (replay sampleDisk earlier) lba ∧
        ¬ Readable sampleCrc sampleHash samplePartition
          (replay sampleDisk ((lba, sector) :: earlier)) := by
  refine ⟨openStore_rooted samplePartition_spans sample_rooted, scrub_rooted sample_rooted, _, _,
    _, ambiguous_trace, ?_, overwritten_unreadable⟩
  intro hspares
  have hle : 8 + 3 ≤ 10 := hspares .b ⟨2, 3, 1⟩ (newestRoot_committed rfl rfl) (by decide)
  exact absurd hle (by decide)

end SlimeOs.StoreHandle
