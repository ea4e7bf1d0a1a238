import SlimeOs.StoreRoots

/-!
Every way a put can end, on the handle of the root the disk holds: it changed
nothing but sectors beyond the append point, it committed the object and moved
the handle, or the superblock write failed although the sector was written.
-/

namespace SlimeOs.StoreCommit

open BlockDevice CheckedWord FallibleCall ObjectStorage StoreDisk StoredObjects StoreRoots Call
  FallibleCall.Call

theorem ensures_io {α β : Type} {call : Call (Device Sector) IoError α}
    {f : α → Call Session StoreError β} {store : ObjectStore} {device : Device Sector}
    {middle : Outcome IoError α → Device Sector → Prop}
    {post : Outcome StoreError β → Session → Prop} (hcall : Ensures call device middle)
    (hok : ∀ a device', middle (.ok a) device' → Ensures (f a) ⟨store, device'⟩ post)
    (herror : ∀ fault fault' device', middle (.error fault) device' →
      post (.error fault') ⟨store, device'⟩) :
    Ensures (onDevice (Call.wrapErr .io call) >>= f) ⟨store, device⟩ post := by
  unfold Ensures at hcall ⊢
  rw [bind_apply]
  unfold onDevice Call.wrapErr
  rcases hstep : call device with ⟨fault | a, device'⟩
  · rw [hstep] at hcall
    cases fault <;> exact herror _ _ device' hcall
  · rw [hstep] at hcall
    exact hok a device' hcall

section Exits

variable (crc32 : List UInt8 → UInt32) (sha256 : List UInt8 → Hash) (first sectors : UInt64)
  (answers : Nat → Answer IoError)

/-- The object is recorded at the append point of `root` and `next` commits it. -/
structure Adds (disk : Disk) (root : Superblock) (objects : List Object) (object : Object)
    (next : Superblock) : Prop where
  extended : Extends sectors root objects object next
  held : Holds sha256 disk (first.toNat + root.appendLba.toNat) object
  fresh : ∀ other ∈ objects, sha256 other.payload ≠ sha256 object.payload

def commitWrite (slot : Slot) (next : Superblock) (device : Device Sector) : Device Sector :=
  device.wrote (first.toNat + slot.other.lba) (encodeSuperblock crc32 next sectors)

/-- The ends of a put. `Inv` is anything the writes beyond the append point preserve. -/
inductive Exit (Inv : Device Sector → Prop) (slot : Slot) (root : Superblock)
    (objects : List Object) (object : Object) : Outcome StoreError Hash → Session → Prop where
  | kept {outcome : Outcome StoreError Hash} {device : Device Sector} (hinv : Inv device)
      (hok : ∀ hash, outcome = .ok hash → ∃ other ∈ objects, other.payload = object.payload) :
      Exit Inv slot root objects object outcome
        ⟨handleOf sha256 first sectors slot root objects, device⟩
  | committed {outcome : Outcome StoreError Hash} {device : Device Sector} {next : Superblock}
      (hinv : Inv device) (hadds : Adds sha256 first sectors device.disk root objects object next)
      (hflush : (∃ hash, outcome = .ok hash) ∨
        ∃ error written, answers (device.clock + 1) = .failed error written) :
      Exit Inv slot root objects object outcome
        ⟨handleOf sha256 first sectors slot.other next (objects ++ [object]),
          (commitWrite crc32 first sectors slot next device).idled⟩
  | ambiguous {fault : Fault StoreError} {error : IoError} {device : Device Sector}
      {next : Superblock} (hinv : Inv device)
      (hadds : Adds sha256 first sectors device.disk root objects object next)
      (hanswer : answers device.clock = .failed error true) :
      Exit Inv slot root objects object (.error fault)
        ⟨handleOf sha256 first sectors slot root objects,
          commitWrite crc32 first sectors slot next device⟩

variable {crc32 sha256 first sectors answers} {Inv : Device Sector → Prop} {slot : Slot}
  {root : Superblock} {objects : List Object} {object : Object} {device : Device Sector}

theorem extends_of_checks {count stop sequence : UInt64}
    (hroom : ¬ maxObjects ≤ (index sha256 2 objects).length)
    (hcount : count.toNat = sectorsOf object.payload.length)
    (hstop : stop.toNat = root.appendLba.toNat + count.toNat) (hinside : ¬ sectors < stop)
    (hsequence : sequence.toNat = root.sequence.toNat + 1) :
    Extends sectors root objects object
      ⟨sequence, stop, UInt32.ofNat ((index sha256 2 objects).length + 1)⟩ := by
  rw [length_index] at hroom ⊢
  have hword : (UInt32.ofNat (objects.length + 1)).toNat = objects.length + 1 := by
    unfold maxObjects at hroom
    exact UInt32.toNat_ofNat_of_lt' (by unfold UInt32.size; omega)
  exact ⟨hsequence, by rw [← hcount]; exact hstop, hword, not_le.mp hroom, not_lt.mp hinside⟩

theorem Exit.refused (hdevice : Inv device) (fault : Fault StoreError) :
    Exit crc32 sha256 first sectors answers Inv slot root objects object (.error fault)
      ⟨handleOf sha256 first sectors slot root objects, device⟩ :=
  .kept hdevice nofun

variable (h : Rooted crc32 sha256 first sectors device.disk slot root objects)
  (hdevice : Inv device) (hidled : ∀ device, Inv device → Inv device.idled)
  (hwrote : ∀ device lba sector, Inv device → first.toNat + root.appendLba.toNat ≤ lba →
    Inv (device.wrote lba sector))

include h hdevice hidled hwrote

theorem append_ensures (hfits : object.payload.length ≤ maxObjectPayload)
    (hfresh : ∀ other ∈ objects, sha256 other.payload ≠ sha256 object.payload) :
    Ensures (append crc32 answers (handleOf sha256 first sectors slot root objects)
        object.objType object.payload (sha256 object.payload))
      ⟨handleOf sha256 first sectors slot root objects, device⟩
      (Exit crc32 sha256 first sectors answers Inv slot root objects object) := by
  have hlength : (UInt64.ofNat object.payload.length).toNat = object.payload.length := by
    unfold maxObjectPayload at hfits
    exact UInt64.toNat_ofNat_of_lt' (by unfold UInt64.size; omega)
  refine ensures_rejectIf (fun hroom => ?_) (.refused hdevice)
  refine ensures_lift (fun count hcount => ?_) (.refused hdevice)
  refine ensures_lift (fun stop hstop => ?_) (.refused hdevice)
  refine ensures_rejectIf (fun hinside => ?_) (.refused hdevice)
  refine ensures_lift (fun sequence hsequence => ?_) (.refused hdevice)
  obtain ⟨count', hcount', hsectors⟩ :=
    recordSectors_eq (UInt64.ofNat object.payload.length) (by rw [hlength]; exact hfits)
  obtain rfl := Except.ok.inj (hcount.symm.trans hcount')
  rw [hlength] at hsectors
  rw [Outcome.okOr_eq_ok_iff, checkedAdd_eq_some_iff] at hstop hsequence
  rw [decide_eq_false_iff_not] at hroom hinside
  have hextends := extends_of_checks hroom hsectors hstop hinside hsequence
  rw [hsectors]
  apply ensures_io (writeSectors_ensures _ _ Inv (fun device lba sector hinv hlow _ =>
    hwrote device lba sector hinv hlow) hidled device hdevice)
  · rintro _ written ⟨hwritten, himage⟩
    have hflushed : Inv written.idled := hidled written hwritten
    have hadds : Adds sha256 first sectors written.idled.disk root objects object
        ⟨sequence, stop, UInt32.ofNat ((index sha256 2 objects).length + 1)⟩ :=
      ⟨hextends, holds_of_image hfits (himage rfl), hfresh⟩
    apply ensures_io (flush_ensures written)
    · rintro _ flushed ⟨rfl, -⟩
      apply ensures_io (writeSector_ensures _ _ _)
      · intro _ committed hcommitted
        obtain rfl : committed = commitWrite crc32 first sectors slot _ written.idled := by
          rcases hcommitted with ⟨-, -, h⟩ | ⟨error, h, -⟩ | ⟨error, h, -⟩
          · exact h
          · cases h
          · cases h
        apply ensures_modify
        -- the handle has advanced before the last flush
        have hindex := index_snoc object h.chain
        rw [Object.entry, UInt64.ofNat_toNat] at hindex
        change Ensures _ (Session.mk (ObjectStore.mk first sectors sequence stop slot.other
          (index sha256 2 objects ++ [⟨_, _, _, root.appendLba⟩])) _) _
        rw [← hindex]
        apply ensures_io (flush_ensures _)
        · rintro _ last ⟨rfl, -⟩
          exact .committed hflushed hadds (.inl ⟨_, rfl⟩)
        · rintro fault fault' last ⟨rfl, h | ⟨error, failed, -, hanswer⟩⟩
          · cases h
          · exact .committed hflushed hadds (.inr ⟨error, failed, hanswer⟩)
      · rintro fault fault' committed (⟨h, -⟩ | ⟨error, -, hanswer, rfl⟩ | ⟨error, -, -, rfl⟩)
        · cases h
        · exact .ambiguous hflushed hadds hanswer
        · exact .kept (hidled _ hflushed) (by simp)
    · rintro fault fault' flushed ⟨rfl, -⟩
      exact .kept hflushed (by simp)
  · rintro fault fault' written ⟨hwritten, -⟩
    exact .kept hwritten (by simp)

theorem put_ensures : Ensures (put crc32 sha256 answers object.objType object.payload)
      ⟨handleOf sha256 first sectors slot root objects, device⟩
      (Exit crc32 sha256 first sectors answers Inv slot root objects object) := by
  refine ensures_rejectIf (fun hfits => ?_) (.refused hdevice)
  rw [decide_eq_false_iff_not, not_lt] at hfits
  apply ensures_read
  rcases hfind : (handleOf sha256 first sectors slot root objects).find
    (sha256 object.payload) with _ | entry
  · exact append_ensures h hdevice hidled hwrote hfits (find_none rfl hfind)
  obtain ⟨other, hother, -, hentry, hheld⟩ :=
    @find_some sha256 _ device _ _ _ _ _ h.chain root.appendLba.toNat_lt rfl hfind
  have hread : onDevice ((handleOf sha256 first sectors slot root objects).readPayload entry)
      ⟨handleOf sha256 first sectors slot root objects, device⟩ =
      (.ok other.payload, ⟨handleOf sha256 first sectors slot root objects, device⟩) := by
    unfold onDevice
    rw [readPayload_held hentry hheld]
  refine ensures_bind_ok hread (ensures_rejectIf (fun hsame => ?_) (.refused hdevice))
  rw [bne_eq_false_iff_eq] at hsame
  exact .kept hdevice fun _ _ => ⟨other, hother, hsame⟩

end Exits

end SlimeOs.StoreCommit
