import SlimeOs.StoredObjects

/-!
The committed root of a store and the objects below it.

A disk is rooted when its newest superblock leads to a chain of as many objects
as it counts. Opening such a disk yields the handle of that root, writes beyond
the append point keep the root, and the superblock of a longer chain in the
other slot replaces it.
-/

namespace SlimeOs.StoreRoots

open BlockDevice CheckedWord FallibleCall Function ObjectStorage Option StoreDisk StoredObjects Call
  ObjectStore

structure Spans (partition : Partition) (sectors : UInt64) : Prop where
  count : ((checkedSub partition.lastLba partition.firstLba).bind fun span =>
    checkedAdd span 1) = some sectors
  fits : ¬ sectors < recordAreaStart + 1

variable {target : Slot}

namespace Slot

theorem other_ne (slot : Slot) : slot.other ≠ slot := by
  cases slot <;> decide

theorem lba_lt (slot : Slot) : slot.lba < 2 := by
  cases slot <;> decide

theorem lba_inj {slot : Slot} (h : slot.lba = target.lba) : slot = target := by
  cases slot <;> cases target <;> first | rfl | exact absurd h (by decide)

end Slot

section Newest

variable {roots : Slot → Option Superblock} {slot : Slot} {root : Superblock}

theorem newestRoot_eq (hroot : roots slot = some root)
    (hother : ∀ older, roots slot.other = some older → older.sequence < root.sequence) :
    newestRoot (roots .a) (roots .b) = some (slot, root) := by
  rcases hotherRoot : roots slot.other with _ | older
  · cases slot <;> simp_all [newestRoot, Slot.other]
  have hlt := hother older hotherRoot
  cases slot
  · have hle := UInt64.le_of_lt hlt
    simp_all [newestRoot, Slot.other]
  · simp_all [newestRoot, Slot.other]

theorem newestRoot_newest (h : newestRoot (roots .a) (roots .b) = some (slot, root)) :
    roots slot = some root ∧
      ∀ target other, roots target = some other → other.sequence ≤ root.sequence := by
  rcases ha : roots .a with _ | a <;> rcases hb : roots .b with _ | b <;> rw [ha, hb] at h
  · cases h
  · obtain ⟨rfl, rfl⟩ := Prod.mk.inj (some.inj h)
    refine ⟨hb, fun target other hother => ?_⟩
    cases target <;> simp_all
  · obtain ⟨rfl, rfl⟩ := Prod.mk.inj (some.inj h)
    refine ⟨ha, fun target other hother => ?_⟩
    cases target <;> simp_all
  change (if b.sequence ≤ a.sequence then some (Slot.a, a) else some (Slot.b, b)) = _ at h
  split at h
  · obtain ⟨rfl, rfl⟩ := Prod.mk.inj (some.inj h)
    refine ⟨ha, fun target other hother => ?_⟩
    cases target <;> simp_all
  rename_i hlt
  have hle := UInt64.le_of_lt (UInt64.not_le.mp hlt)
  obtain ⟨rfl, rfl⟩ := Prod.mk.inj (some.inj h)
  refine ⟨hb, fun target other hother => ?_⟩
  cases target <;> simp_all

end Newest

section Roots

variable (crc32 : List UInt8 → UInt32) (sha256 : List UInt8 → Hash) (first sectors : UInt64)

def slotRoot (disk : Disk) (slot : Slot) : Option Superblock :=
  (decodeSuperblock crc32 (disk (first.toNat + slot.lba)) sectors).toOption

/-- The newest superblock of the disk is `root`, in `slot`, and covers these objects. -/
structure Rooted (disk : Disk) (slot : Slot) (root : Superblock) (objects : List Object) :
    Prop where
  newest : newestRoot (slotRoot crc32 first sectors disk .a)
    (slotRoot crc32 first sectors disk .b) = some (slot, root)
  count : root.objectCount.toNat = objects.length
  chain : Chain sha256 disk (first.toNat + 2) objects (first.toNat + root.appendLba.toNat)

def handleOf (slot : Slot) (root : Superblock) (objects : List Object) : ObjectStore :=
  { firstLba := first
    partitionSectors := sectors
    sequence := root.sequence
    appendLba := root.appendLba
    active := slot
    entries := index sha256 2 objects }

/-- The superblock that adds one object to those of `root`. -/
structure Extends (root : Superblock) (objects : List Object) (object : Object)
    (next : Superblock) : Prop where
  sequence : next.sequence.toNat = root.sequence.toNat + 1
  appendLba : next.appendLba.toNat =
    root.appendLba.toNat + sectorsOf object.payload.length
  objectCount : next.objectCount.toNat = objects.length + 1
  room : objects.length < maxObjects
  inside : next.appendLba.toNat ≤ sectors.toNat

variable {crc32 sha256 first sectors} {disk : Disk} {slot : Slot} {root : Superblock}
  {objects : List Object}

theorem Rooted.slotRoot_eq (h : Rooted crc32 sha256 first sectors disk slot root objects) :
    slotRoot crc32 first sectors disk slot = some root :=
  (newestRoot_newest h.newest).1

theorem Rooted.bounds (h : Rooted crc32 sha256 first sectors disk slot root objects) :
    2 ≤ root.appendLba.toNat ∧ root.appendLba.toNat ≤ sectors.toNat ∧
      root.objectCount.toNat ≤ maxObjects ∧ root.sequence ≠ maxSequence := by
  have hdecode := Outcome.toOption_eq_some_iff.mp h.slotRoot_eq
  exact (outOfBounds_eq_false_iff root sectors).mp (decodeSuperblock_bounds crc32 hdecode)

theorem slotRoot_encode {written : Superblock} (hinside : written.outOfBounds sectors = false)
    (hslot : disk (first.toNat + slot.lba) = encodeSuperblock crc32 written sectors) :
    slotRoot crc32 first sectors disk slot = some written := by
  unfold slotRoot
  rw [hslot, decode_encodeSuperblock, hinside]
  rfl

variable {sector : Sector} {next : Superblock} {partition : Partition}

theorem slotRoot_update_of_ne {lba : Nat} (hne : lba ≠ first.toNat + slot.lba) :
    slotRoot crc32 first sectors (update disk lba sector) slot =
      slotRoot crc32 first sectors disk slot := by
  unfold slotRoot
  rw [update_of_ne hne.symm]

theorem Rooted.update_record (h : Rooted crc32 sha256 first sectors disk slot root objects)
    {lba : Nat} (sector : Sector) (hlba : first.toNat + root.appendLba.toNat ≤ lba) :
    Rooted crc32 sha256 first sectors (update disk lba sector) slot root objects := by
  have hbounds := h.bounds
  have hslots : ∀ target : Slot, slotRoot crc32 first sectors
      (update disk lba sector) target = slotRoot crc32 first sectors disk target := by
    intro target
    have hlow := Slot.lba_lt target
    exact slotRoot_update_of_ne (by omega)
  refine ⟨?_, h.count, ?_⟩
  · rw [hslots, hslots]
    exact h.newest
  · exact h.chain.congr fun i _ hi => update_of_ne (by omega) _ _

theorem chain_update_slot {stop : Nat} (h : Chain sha256 disk (first.toNat + 2) objects stop) :
    Chain sha256 (update disk (first.toNat + target.lba) sector) (first.toNat + 2)
      objects stop := by
  have hlow := Slot.lba_lt target
  exact h.congr fun i hi _ => update_of_ne (by omega) _ _

theorem Rooted.commit (h : Rooted crc32 sha256 first sectors disk slot root objects)
    {object : Object} (hheld : Holds sha256 disk (first.toNat + root.appendLba.toNat) object)
    (hnext : Extends sectors root objects object next) (hmax : next.sequence ≠ maxSequence) :
    Rooted crc32 sha256 first sectors
      (update disk (first.toNat + slot.other.lba) (encodeSuperblock crc32 next sectors))
      slot.other next (objects ++ [object]) := by
  have hbounds := h.bounds
  have hroom := hnext.room
  have hinside : next.outOfBounds sectors = false := by
    rw [outOfBounds_eq_false_iff, hnext.objectCount]
    refine ⟨?_, hnext.inside, hroom, hmax⟩
    rw [hnext.appendLba]
    omega
  refine ⟨?_, ?_, ?_⟩
  · apply newestRoot_eq
    · exact slotRoot_encode hinside (update_self ..)
    intro older holder
    have hother : slot.other.other = slot := by cases slot <;> rfl
    rw [hother, slotRoot_update_of_ne, h.slotRoot_eq] at holder
    · obtain rfl := some.inj holder
      rw [UInt64.lt_iff_toNat_lt, hnext.sequence]
      omega
    · intro hlba
      exact Slot.other_ne slot (Slot.lba_inj (add_left_cancel hlba))
  · rw [hnext.objectCount, List.length_append, List.length_singleton]
  · rw [hnext.appendLba, ← add_assoc]
    exact chain_update_slot (h.chain.snoc hheld)

theorem Rooted.exhaust (h : Rooted crc32 sha256 first sectors disk slot root objects)
    (hmax : next.sequence = maxSequence) :
    Rooted crc32 sha256 first sectors
      (update disk (first.toNat + slot.other.lba) (encodeSuperblock crc32 next sectors))
      slot root objects := by
  have hrefused : next.outOfBounds sectors = true := by
    simp [Superblock.outOfBounds, hmax]
  refine ⟨?_, h.count, chain_update_slot h.chain⟩
  apply newestRoot_eq
  · rw [slotRoot_update_of_ne, h.slotRoot_eq]
    intro hlba
    exact Slot.other_ne slot (Slot.lba_inj (add_left_cancel hlba))
  intro older holder
  unfold slotRoot at holder
  rw [update_self, decode_encodeSuperblock, hrefused] at holder
  cases holder

theorem openStore_rooted (hspans : Spans partition sectors) {device : Device Sector}
    (h : Rooted crc32 sha256 partition.firstLba sectors device.disk slot root objects) :
    openStore crc32 partition device =
      (.ok (handleOf sha256 partition.firstLba sectors slot root objects), device) := by
  have hbounds := h.bounds
  have hlength : objects.length ≤ maxObjects := by
    rw [← h.count]
    exact hbounds.2.2.1
  have hscan := @scan_chain sha256 device partition.firstLba root.appendLba recordAreaStart
    maxObjects objects [] h.chain hlength
  have hcount : ((index sha256 2 objects).length != root.objectCount.toNat) = false := by
    rw [length_index, h.count]
    exact bne_self_eq_false _
  unfold openStore
  simp only [bind_ok_iff, lift_ok_iff, rejectIf_ok_iff, Outcome.okOr_eq_ok_iff,
    decide_eq_false_iff_not]
  exact ⟨sectors, device, ⟨hspans.count, rfl⟩, (), device, ⟨hspans.fits, rfl⟩, _, device, rfl,
    _, device, rfl, (slot, root), device, ⟨h.newest, rfl⟩, index sha256 2 objects, device,
    hscan, (), device, ⟨hcount, rfl⟩, rfl⟩

theorem scrub_rooted {device : Device Sector}
    (h : Rooted crc32 sha256 first sectors device.disk slot root objects) :
    (handleOf sha256 first sectors slot root objects).scrub sha256 device = (.ok (), device) := by
  apply scrubEntries_held
  intro entry hentry
  obtain ⟨object, -, hobject⟩ := exists_object_of_mem_index h.chain root.appendLba.toNat_lt hentry
  exact ⟨object, hobject⟩

theorem exists_rooted {store : ObjectStore} {device : Device Sector}
    (hopen : openStore crc32 partition device = (.ok store, device))
    (hscrub : store.scrub sha256 device = (.ok (), device)) :
    ∃ sectors slot root objects, Spans partition sectors ∧
      Rooted crc32 sha256 partition.firstLba sectors device.disk slot root objects ∧
      store = handleOf sha256 partition.firstLba sectors slot root objects := by
  unfold openStore at hopen
  simp only [bind_ok_iff, lift_ok_iff, rejectIf_ok_iff, Outcome.okOr_eq_ok_iff,
    pure_ok_iff, decide_eq_false_iff_not, bne_eq_false_iff_eq, exists_const] at hopen
  obtain ⟨sectors, middle, ⟨hcount, rfl⟩, middle, ⟨hfits, rfl⟩, sectorA, afterA, hreadA,
    sectorB, afterB, hreadB, ⟨slot, root⟩, middle, ⟨hnewest, rfl⟩, entries, scanned, hscan,
    last, ⟨hlength, rfl⟩, hstore, hlast⟩ := hopen
  obtain rfl := hlast.symm
  obtain ⟨hsectorA, rfl⟩ := Prod.mk.inj hreadA
  obtain ⟨hsectorB, rfl⟩ := Prod.mk.inj hreadB
  obtain rfl := Except.ok.inj hsectorA
  obtain rfl := Except.ok.inj hsectorB
  have hroot := (@newestRoot_newest (slotRoot crc32 partition.firstLba sectors device.disk)
    slot root hnewest).1
  have hbounds := (outOfBounds_eq_false_iff root sectors).mp
    (decodeSuperblock_bounds crc32 (Outcome.toOption_eq_some_iff.mp hroot))
  have hfirst : store.firstLba = partition.firstLba := by rw [← hstore]
  have hentries : store.entries = entries := by rw [← hstore]
  rw [← hfirst] at hscan
  obtain ⟨rest, hrest, hchain⟩ := @exists_chain_of_scan sha256 store device device
    root.appendLba recordAreaStart maxObjects [] entries hscan hbounds.1
  obtain rfl := hrest
  have hscrubbed : store.scrubEntries sha256 entries device = (.ok (), device) := by
    rw [← hentries]
    exact hscrub
  obtain ⟨objects, hindex, hchain⟩ := hchain hscrubbed
  rw [hfirst] at hchain
  refine ⟨sectors, slot, root, objects, ⟨hcount, hfits⟩, ⟨hnewest, ?_, hchain⟩, ?_⟩
  · rw [← hlength, hindex, length_index]
  · rw [← hstore, hindex]
    rfl

end Roots

end SlimeOs.StoreRoots
