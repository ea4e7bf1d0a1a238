import SlimeOs.ObjectStorage

/-!
What a disk holds: an object at a sector, a chain of objects from one sector to
another, and the index of such a chain. Scanning, scrubbing and reading are
described by the chain, and a record written in full is held.
-/

namespace SlimeOs.StoredObjects

open BlockDevice ByteLayout CheckedWord Except FallibleCall List ObjectStorage StoreDisk ObjectStore
  UInt64 Outcome FallibleCall.Call

structure Object where
  objType : UInt32
  payload : List UInt8
deriving DecidableEq

open Object

def sectorsOf (length : Nat) : Nat :=
  (recordHeader + length + (sectorBytes - 1)) / sectorBytes

variable {lba : Nat} {disk' disk : Disk} {device : Device Sector} {store : ObjectStore}
  (length : Nat)

theorem sectorsOf_pos : 0 < sectorsOf length := by
  unfold sectorsOf recordHeader sectorBytes
  omega

theorem sectorsOf_fits : recordHeader + length ≤ sectorsOf length * sectorBytes := by
  unfold sectorsOf recordHeader sectorBytes
  omega

theorem recordSectors_eq (length : UInt64) (hlength : length.toNat ≤ maxObjectPayload) :
    ∃ sectors, recordSectors length = .ok sectors ∧ sectors.toNat = sectorsOf length.toNat := by
  have hheader : (ofNat recordHeader).toNat = recordHeader := rfl
  have hsector : (ofNat sectorBytes).toNat = sectorBytes := rfl
  have hfit : (ofNat recordHeader).toNat + length.toNat < 2 ^ 64 := by
    rw [hheader]
    unfold recordHeader
    unfold maxObjectPayload at hlength
    omega
  obtain ⟨bytes, hbytes, hsum⟩ := exists_checkedAdd hfit
  refine ⟨divCeil bytes (ofNat sectorBytes), ?_, ?_⟩
  · unfold recordSectors
    rw [hbytes]
    rfl
  · rw [toNat_divCeil _ _ (by decide), hsum, hheader, hsector, sectorsOf]

/-- The payload bytes of the record that starts at `lba`. -/
def payloadAt (disk : Disk) (lba length : Nat) : List UInt8 :=
  ((((List.range' lba (sectorsOf length)).map disk).flatMap Vector.toList).drop
    recordHeader).take length

theorem payloadAt_congr {length : Nat}
    (hagree : ∀ i, lba ≤ i → i < lba + sectorsOf length → disk' i = disk i) :
    payloadAt disk' lba length = payloadAt disk lba length := by
  have hsectors : (range' lba (sectorsOf length)).map disk' =
      (range' lba (sectorsOf length)).map disk := by
    apply map_congr_left
    intro i hi
    rw [mem_range'_1] at hi
    exact hagree i hi.1 hi.2
  rw [payloadAt, hsectors, payloadAt]

theorem length_payloadAt (disk : Disk) (lba length : Nat) :
    (payloadAt disk lba length).length = length := by
  have hfits := sectorsOf_fits length
  simp [payloadAt, length_flatMap, Function.comp_def]
  omega

theorem readPayload_eq (store : ObjectStore) (entry : Entry) (device : Device Sector)
    (hlength : entry.payloadLen.toNat ≤ maxObjectPayload) :
    store.readPayload entry device =
      (.ok (payloadAt device.disk (store.firstLba.toNat + entry.lba.toNat)
        entry.payloadLen.toNat), device) := by
  have hword : entry.payloadLen.toUInt64.toNat = entry.payloadLen.toNat := UInt32.toNat_toUInt64 _
  obtain ⟨sectors, hsectors, hcount⟩ := recordSectors_eq entry.payloadLen.toUInt64
    (by exact hlength)
  unfold readPayload
  rw [hsectors]
  change (readSectors _ sectors.toNat >>= fun bytes => _) device = _
  rw [bind_apply, readSectors_eq, hcount]
  rfl

section Held

variable (sha256 : List UInt8 → Hash)

def Object.entry (object : Object) (lba : Nat) : Entry :=
  { hash := sha256 object.payload
    objType := object.objType
    payloadLen := UInt32.ofNat object.payload.length
    lba := UInt64.ofNat lba }

/-- The object is recorded at `lba`, header and payload. -/
structure Holds (disk : Disk) (lba : Nat) (object : Object) : Prop where
  fits : object.payload.length ≤ maxObjectPayload
  header : decodeRecordHeader (disk lba) = .ok (object.entry sha256 0)
  payload : payloadAt disk lba object.payload.length = object.payload

/-- The objects are recorded one after another from `lba` to `stop`. -/
def Chain (disk : Disk) : Nat → List Object → Nat → Prop
  | lba, [], stop => lba = stop
  | lba, object :: objects, stop =>
    Holds sha256 disk lba object ∧
      Chain disk (lba + sectorsOf object.payload.length) objects stop

/-- The entries of objects recorded from a sector of the partition on. -/
def index : Nat → List Object → List Entry
  | _, [] => []
  | lba, object :: objects =>
    object.entry sha256 lba :: index (lba + sectorsOf object.payload.length) objects

variable {sha256} {object : Object} {objects : List Object} {first stop : Nat}

theorem Object.payloadLen_entry {lba : Nat} (hfits : object.payload.length ≤ maxObjectPayload) :
    (object.entry sha256 lba).payloadLen.toNat = object.payload.length := by
  unfold maxObjectPayload at hfits
  exact UInt32.toNat_ofNat_of_lt' (by unfold UInt32.size; omega)

theorem Holds.congr (h : Holds sha256 disk lba object)
    (hagree : ∀ i, lba ≤ i → i < lba + sectorsOf object.payload.length → disk' i = disk i) :
    Holds sha256 disk' lba object := by
  have hpos := sectorsOf_pos object.payload.length
  refine ⟨h.fits, ?_, ?_⟩
  · rw [hagree lba (le_refl lba) (by omega)]
    exact h.header
  · rw [payloadAt_congr hagree]
    exact h.payload

theorem Chain.le (h : Chain sha256 disk lba objects stop) : lba ≤ stop := by
  induction objects generalizing lba with
  | nil => exact le_of_eq h
  | cons object objects ih => exact le_trans (Nat.le_add_right _ _) (ih h.2)

theorem Chain.congr (h : Chain sha256 disk lba objects stop)
    (hagree : ∀ i, lba ≤ i → i < stop → disk' i = disk i) :
    Chain sha256 disk' lba objects stop := by
  induction objects generalizing lba with
  | nil => exact h
  | cons object objects ih =>
    have hstop := Chain.le h.2
    refine ⟨h.1.congr fun i hlow hhigh => hagree i hlow (by omega), ?_⟩
    exact ih h.2 fun i hlow hhigh => hagree i (by omega) hhigh

theorem Chain.snoc {lba stop : Nat}
    (h : Chain sha256 disk lba objects stop) (hnew : Holds sha256 disk stop object) :
    Chain sha256 disk lba (objects ++ [object]) (stop + sectorsOf object.payload.length) := by
  induction objects generalizing lba with
  | nil =>
    obtain rfl := h
    exact ⟨hnew, rfl⟩
  | cons first objects ih => exact ⟨h.1, ih h.2⟩

theorem Chain.fits (h : Chain sha256 disk lba objects stop) :
    ∀ object ∈ objects, object.payload.length ≤ maxObjectPayload := by
  induction objects generalizing lba with
  | nil => simp
  | cons first objects ih =>
    intro object hobject
    rcases mem_cons.mp hobject with rfl | hobject
    · exact h.1.fits
    · exact ih h.2 object hobject

@[simp] theorem length_index (lba : Nat) (objects : List Object) :
    (index sha256 lba objects).length = objects.length := by
  induction objects generalizing lba with
  | nil => rfl
  | cons object objects ih => simp [index, ih]

theorem map_index
    (hfits : ∀ object ∈ objects, object.payload.length ≤ maxObjectPayload) (lba : Nat) :
    ((index sha256 lba objects).map fun entry =>
        (entry.hash, entry.objType, entry.payloadLen.toNat)) =
      (objects.map fun object =>
        (sha256 object.payload, object.objType, object.payload.length)) := by
  induction objects generalizing lba with
  | nil => rfl
  | cons object objects ih =>
    have hlength := @payloadLen_entry sha256 object lba (hfits object (by simp))
    rw [index, map_cons, hlength, ih (fun other hother => hfits other (by simp [hother]))]
    rfl

theorem index_snoc (object : Object) (h : Chain sha256 disk (first + lba) objects (first + stop)) :
    index sha256 lba (objects ++ [object]) =
      index sha256 lba objects ++ [object.entry sha256 stop] := by
  induction objects generalizing lba with
  | nil =>
    obtain rfl := add_left_cancel h
    rfl
  | cons head objects ih =>
    have htail := h.2
    rw [add_assoc] at htail
    rw [cons_append, index, index, ih htail, cons_append]

theorem exists_object_of_mem_index (h : Chain sha256 disk (first + lba) objects (first + stop))
    (hword : stop < 2 ^ 64) {entry : Entry} (hentry : entry ∈ index sha256 lba objects) :
    ∃ object ∈ objects, entry = object.entry sha256 entry.lba.toNat ∧
      Holds sha256 disk (first + entry.lba.toNat) object := by
  induction objects generalizing lba with
  | nil => exact absurd hentry not_mem_nil
  | cons head objects ih =>
    have hle := Chain.le h
    rcases mem_cons.mp hentry with rfl | hentry
    · have hlba : (head.entry sha256 lba).lba.toNat = lba :=
        toNat_ofNat_of_lt' (by unfold size; omega)
      refine ⟨head, by simp, ?_, ?_⟩
      · rw [hlba]
      · rw [hlba]
        exact h.1
    · have htail := h.2
      rw [add_assoc] at htail
      obtain ⟨object, hobject, hrest⟩ := ih htail hentry
      exact ⟨object, mem_cons_of_mem _ hobject, hrest⟩

theorem exists_mem_index (lba : Nat) {objects : List Object} (hobject : object ∈ objects) :
    ∃ entry ∈ index sha256 lba objects, entry.hash = sha256 object.payload := by
  induction objects generalizing lba with
  | nil => exact absurd hobject not_mem_nil
  | cons head objects ih =>
    rcases mem_cons.mp hobject with rfl | hobject
    · exact ⟨object.entry sha256 lba, by simp [index], rfl⟩
    · obtain ⟨entry, hentry, hhash⟩ := ih (lba + sectorsOf head.payload.length) hobject
      exact ⟨entry, mem_cons_of_mem _ hentry, hhash⟩

theorem readPayload_held {entry : Entry} (hentry : entry = object.entry sha256 entry.lba.toNat)
    (hheld : Holds sha256 device.disk (store.firstLba.toNat + entry.lba.toNat) object) :
    store.readPayload entry device = (.ok object.payload, device) := by
  have hlength : entry.payloadLen.toNat = object.payload.length := by
    rw [hentry]
    exact payloadLen_entry hheld.fits
  rw [readPayload_eq store entry device (by rw [hlength]; exact hheld.fits), hlength, hheld.payload]

end Held

section Scanning

variable {sha256 : List UInt8 → Hash} {entries : List Entry}

theorem scan_chain {device : Device Sector} {first append lba : UInt64} {room : Nat}
    {objects : List Object} (entries : List Entry)
    (h : Chain sha256 device.disk (first.toNat + lba.toNat) objects
      (first.toNat + append.toNat)) (hroom : objects.length ≤ room) :
    scan first append room lba entries device =
      (.ok (entries ++ index sha256 lba.toNat objects), device) := by
  induction objects generalizing lba room entries with
  | nil =>
    have hend : ¬ lba < append := by
      have heq := add_left_cancel h
      rw [lt_iff_toNat_lt]
      omega
    unfold scan
    rw [if_neg hend, index, append_nil]
    rfl
  | cons object objects ih =>
    obtain ⟨hheld, hrest⟩ := h
    have hle := Chain.le hrest
    have hpos := sectorsOf_pos object.payload.length
    have happend := append.toNat_lt
    have hlt : lba < append := by
      rw [lt_iff_toNat_lt]
      omega
    have hlength : (object.entry sha256 0).payloadLen.toUInt64.toNat = object.payload.length := by
      rw [UInt32.toNat_toUInt64]
      exact payloadLen_entry hheld.fits
    obtain ⟨sectors, hsectors, hcount⟩ := recordSectors_eq
      (object.entry sha256 0).payloadLen.toUInt64 (by rw [hlength]; exact hheld.fits)
    rw [hlength] at hcount
    obtain ⟨stop, hstop, hsum⟩ := exists_checkedAdd (a := lba) (b := sectors) (by omega)
    have hinside : decide (append < stop) = false := by
      rw [decide_eq_false_iff_not, lt_iff_toNat_lt]
      omega
    rcases room with _ | room
    · simp at hroom
    have hentry : { object.entry sha256 0 with lba := lba } = object.entry sha256 lba.toNat := by
      simp [entry]
    have htail : Chain sha256 device.disk (first.toNat + stop.toNat) objects
        (first.toNat + append.toNat) := by
      rw [hsum, hcount, ← add_assoc]
      exact hrest
    have hnext := ih (entries ++ [{ object.entry sha256 0 with lba := lba }]) htail
      (by simpa using hroom)
    unfold scan
    rw [if_pos hlt]
    change (Call.lift (decodeRecordHeader (device.disk _)) >>= fun entry => _) device = _
    rw [hheld.header]
    change (Call.lift (recordSectors _) >>= fun sectors => _) device = _
    rw [hsectors]
    change (Call.lift (okOr (checkedAdd lba sectors) _) >>= fun stop => _) device = _
    rw [hstop]
    change (Call.rejectIf (decide (append < stop)) _ >>= fun _ => _) device = _
    rw [hinside]
    change scan first append room stop _ device = _
    rw [hnext, hentry, hsum, hcount, append_assoc]
    rfl

theorem scrubEntries_held (entries : List Entry)
    (h : ∀ entry ∈ entries, ∃ object, entry = object.entry sha256 entry.lba.toNat ∧
      Holds sha256 device.disk (store.firstLba.toNat + entry.lba.toNat) object) :
    store.scrubEntries sha256 entries device = (.ok (), device) := by
  induction entries with
  | nil => rfl
  | cons entry entries ih =>
    obtain ⟨object, hentry, hheld⟩ := h entry (by simp)
    have hhash : (sha256 object.payload != entry.hash) = false := by
      rw [hentry]
      exact bne_self_eq_false _
    unfold scrubEntries
    rw [bind_apply, readPayload_held hentry hheld]
    change (Call.rejectIf (sha256 object.payload != entry.hash) _ >>= fun _ => _) device = _
    rw [hhash]
    exact ih fun entry' hentry' => h entry' (by simp [hentry'])

theorem decodeRecordHeader_bounds {sector : Sector} {entry : Entry}
    (h : decodeRecordHeader sector = .ok entry) :
    entry.payloadLen.toNat ≤ maxObjectPayload ∧ entry.lba = 0 := by
  unfold decodeRecordHeader at h
  simp only [bind_eq_ok_iff, rejectIf_eq_ok_iff, pure_eq_ok_iff,
    exists_const, decide_eq_false_iff_not, not_lt] at h
  obtain ⟨-, -, -, hlength, rfl⟩ := h
  refine ⟨?_, rfl⟩
  exact le_trans (Nat.mod_le _ _) hlength

theorem scrubEntries_cons {entry : Entry} (hlength : entry.payloadLen.toNat ≤ maxObjectPayload)
    (h : store.scrubEntries sha256 (entry :: entries) device = (.ok (), device)) :
    sha256 (payloadAt device.disk (store.firstLba.toNat + entry.lba.toNat)
        entry.payloadLen.toNat) = entry.hash ∧
      store.scrubEntries sha256 entries device = (.ok (), device) := by
  unfold scrubEntries at h
  rw [Call.bind_ok_iff] at h
  obtain ⟨payload, middle, hread, hrest⟩ := h
  rw [readPayload_eq store entry device hlength] at hread
  obtain ⟨hpayload, rfl⟩ := Prod.mk.inj hread
  obtain rfl := ok.inj hpayload
  simp only [Call.bind_ok_iff, rejectIf_ok_iff, bne_eq_false_iff_eq, exists_const] at hrest
  obtain ⟨middle, ⟨hhash, rfl⟩, hrest⟩ := hrest
  exact ⟨hhash, hrest⟩

theorem exists_holds {entry : Entry} (hdecode : decodeRecordHeader (disk lba) = .ok entry)
    (hhash : sha256 (payloadAt disk lba entry.payloadLen.toNat) = entry.hash) :
    ∃ object, Holds sha256 disk lba object ∧ object.entry sha256 0 = entry ∧
      object.payload.length = entry.payloadLen.toNat := by
  obtain ⟨hlength, hlba⟩ := decodeRecordHeader_bounds hdecode
  have hpayload := length_payloadAt disk lba entry.payloadLen.toNat
  have hentry : Object.entry sha256
      ⟨entry.objType, payloadAt disk lba entry.payloadLen.toNat⟩ 0 = entry := by
    unfold Object.entry
    have hzero : ofNat 0 = entry.lba := hlba.symm
    rw [hpayload, hhash, UInt32.ofNat_toNat, hzero]
  refine ⟨⟨entry.objType, payloadAt disk lba entry.payloadLen.toNat⟩, ⟨?_, ?_, ?_⟩,
    hentry, hpayload⟩
  · rw [hpayload]
    exact hlength
  · rw [hentry]
    exact hdecode
  · rw [hpayload]

theorem scan_cases {first append lba : UInt64} {room : Nat} {found : List Entry}
    {device' : Device Sector}
    (hscan : scan first append room lba entries device = (.ok found, device')) :
    (append.toNat ≤ lba.toNat ∧ found = entries) ∨
      ∃ entry stop rest, room = rest + 1 ∧
        decodeRecordHeader (device.disk (first.toNat + lba.toNat)) = .ok entry ∧
        stop.toNat = lba.toNat + sectorsOf entry.payloadLen.toNat ∧ stop.toNat ≤ append.toNat ∧
        scan first append rest stop (entries ++ [{ entry with lba := lba }]) device =
          (.ok found, device') := by
  unfold scan at hscan
  split at hscan
  · right
    simp only [Call.bind_ok_iff, lift_ok_iff, rejectIf_ok_iff,
      okOr_eq_ok_iff, decide_eq_false_iff_not, exists_const] at hscan
    obtain ⟨header, middle, hread, entry, middle', ⟨hdecode, rfl⟩, sectors, middle'',
      ⟨hsectors, rfl⟩, stop, middle, ⟨hstop, rfl⟩, middle', ⟨hinside, rfl⟩, hrest⟩ := hscan
    obtain ⟨hheader, rfl⟩ := Prod.mk.inj hread
    obtain rfl := ok.inj hheader
    have hlength : entry.payloadLen.toUInt64.toNat = entry.payloadLen.toNat :=
      UInt32.toNat_toUInt64 _
    obtain ⟨sectors', hsectors', hcount⟩ := recordSectors_eq entry.payloadLen.toUInt64
      (by exact (decodeRecordHeader_bounds hdecode).1)
    obtain rfl := ok.inj (hsectors.symm.trans hsectors')
    have hsum := checkedAdd_eq_some_iff.mp hstop
    rw [lt_iff_toNat_lt, not_lt] at hinside
    rcases room with _ | room
    · cases congrArg Prod.fst hrest
    · exact ⟨entry, stop, room, rfl, hdecode, by rw [hsum, hcount, hlength], hinside, hrest⟩
  next hend =>
    left
    rw [lt_iff_toNat_lt, not_lt] at hend
    rw [pure_ok_iff] at hscan
    exact ⟨hend, hscan.1.symm⟩

theorem exists_chain_of_scan {store : ObjectStore} {device device' : Device Sector}
    {append lba : UInt64} {room : Nat} {entries found : List Entry}
    (hscan : scan store.firstLba append room lba entries device = (.ok found, device'))
    (hstart : lba.toNat ≤ append.toNat) :
    ∃ rest, found = entries ++ rest ∧
      (store.scrubEntries sha256 rest device = (.ok (), device) →
        ∃ objects, rest = index sha256 lba.toNat objects ∧
          Chain sha256 device.disk (store.firstLba.toNat + lba.toNat) objects
            (store.firstLba.toNat + append.toNat)) := by
  induction room using Nat.strong_induction_on generalizing lba entries with
  | _ room ih =>
    rcases scan_cases hscan with ⟨hend, rfl⟩ | ⟨entry, stop, rest, hroom, hdecode, hsum, hle, hrest⟩
    · refine ⟨[], by simp, fun _ => ⟨[], rfl, ?_⟩⟩
      change store.firstLba.toNat + lba.toNat = store.firstLba.toNat + append.toNat
      omega
    obtain ⟨tail, rfl, htail⟩ := ih rest (by omega) hrest hle
    have hbound : ({ entry with lba := lba } : Entry).payloadLen.toNat ≤ maxObjectPayload :=
      (decodeRecordHeader_bounds hdecode).1
    refine ⟨{ entry with lba := lba } :: tail, by simp, fun hscrub => ?_⟩
    obtain ⟨hhash, hscrub⟩ := scrubEntries_cons hbound hscrub
    obtain ⟨object, hheld, hentry, hlength⟩ := exists_holds hdecode hhash
    obtain ⟨objects, rfl, hchain⟩ := htail hscrub
    refine ⟨object :: objects, ?_, hheld, ?_⟩
    · rw [index, hlength, ← hsum, ← hentry]
      simp [Object.entry]
    · rw [hlength, add_assoc, ← hsum]
      exact hchain

end Scanning

section Finding

variable {sha256 : List UInt8 → Hash} {store : ObjectStore} {device : Device Sector}
  {lba stop : Nat} {objects : List Object}

theorem find_some {hash : Hash} {entry : Entry}
    (hchain : Chain sha256 device.disk (store.firstLba.toNat + lba) objects
      (store.firstLba.toNat + stop)) (hword : stop < 2 ^ 64)
    (hentries : store.entries = index sha256 lba objects) (hfind : store.find hash = some entry) :
    ∃ object ∈ objects, sha256 object.payload = hash ∧ entry = object.entry sha256 entry.lba.toNat ∧
      Holds sha256 device.disk (store.firstLba.toNat + entry.lba.toNat) object := by
  have hhash : entry.hash = hash := by simpa using find?_some hfind
  have hmem := mem_of_find?_eq_some hfind
  rw [hentries] at hmem
  obtain ⟨object, hobject, hentry, hheld⟩ := exists_object_of_mem_index hchain hword hmem
  refine ⟨object, hobject, ?_, hentry, hheld⟩
  rw [← hhash, hentry]
  rfl

theorem find_none {hash : Hash} (hentries : store.entries = index sha256 lba objects)
    (hfind : store.find hash = none) : ∀ object ∈ objects, sha256 object.payload ≠ hash := by
  intro object hobject hhash
  obtain ⟨entry, hentry, hsame⟩ := @exists_mem_index sha256 object lba objects hobject
  unfold find at hfind
  rw [hentries, find?_eq_none] at hfind
  exact hfind entry hentry (by simp [hsame, hhash])

/-- Every object of the chain is returned as it was recorded, provided no two of them
share a hash. -/
theorem get_chain {object : Object} {bufferLen : Nat}
    (hchain : Chain sha256 device.disk (store.firstLba.toNat + lba) objects
      (store.firstLba.toNat + stop)) (hword : stop < 2 ^ 64)
    (hentries : store.entries = index sha256 lba objects)
    (hdistinct : (objects.map fun object => sha256 object.payload).Nodup)
    (hobject : object ∈ objects) (hbuffer : object.payload.length ≤ bufferLen) :
    store.get sha256 (sha256 object.payload) bufferLen device =
      (.ok (object.objType, object.payload), device) := by
  rcases hfind : store.find (sha256 object.payload) with _ | entry
  · exact absurd rfl (find_none hentries hfind object hobject)
  obtain ⟨object', hobject', hhash, hentry, hheld⟩ := find_some hchain hword hentries hfind
  obtain rfl := inj_on_of_nodup_map hdistinct hobject' hobject hhash
  have hlength : entry.payloadLen.toNat = object'.payload.length := by
    rw [hentry]
    exact payloadLen_entry hheld.fits
  have hroom : decide (bufferLen < entry.payloadLen.toNat) = false := by
    rw [decide_eq_false_iff_not]
    omega
  unfold ObjectStore.get
  rw [hfind]
  change (Call.rejectIf (decide (bufferLen < entry.payloadLen.toNat)) _ >>= fun _ => _) device = _
  rw [hroom]
  change (store.readPayload entry >>= fun payload => _) device = _
  rw [bind_apply, readPayload_held hentry hheld]
  change (Call.rejectIf (sha256 object'.payload != sha256 object'.payload) _ >>= fun _ => _)
    device = _
  rw [bne_self_eq_false, hentry]
  rfl

end Finding

section Recording

variable {sha256 : List UInt8 → Hash} (object : Object) (hash : Hash) (sectors : Nat)

theorem length_recordBytes :
    (recordBytes object.objType object.payload hash (sectorsOf object.payload.length)).length =
      sectorsOf object.payload.length * sectorBytes := by
  have hfits := sectorsOf_fits object.payload.length
  simp only [recordBytes, length_append, Vector.length_toList, length_replicate]
  omega

theorem slice_recordImage (offset width : Nat) (hfit : offset + width ≤ recordHeader) :
    slice (field (recordBytes object.objType object.payload hash sectors) 0 sectorBytes)
        offset width =
      slice (encodeRecordHeader object.objType object.payload hash) offset width := by
  have hsector : recordHeader ≤ sectorBytes := by decide
  rw [slice_field _ _ _ _ _ (by omega), zero_add, recordBytes, append_assoc,
    field_append_left _ _ _ _ hfit]

theorem decodeRecordHeader_recordImage (hfits : object.payload.length ≤ maxObjectPayload) :
    decodeRecordHeader (field (recordBytes object.objType object.payload
        (sha256 object.payload) sectors) 0 sectorBytes) =
      .ok (object.entry sha256 0) := by
  have hlength : (ofNat object.payload.length).toNat = object.payload.length := by
    unfold maxObjectPayload at hfits
    exact toNat_ofNat_of_lt' (by unfold size; omega)
  have hinside : decide (maxObjectPayload < object.payload.length) = false := by
    rw [decide_eq_false_iff_not]
    omega
  have hword : (ofNat object.payload.length).toUInt32 =
      UInt32.ofNat object.payload.length := by
    simp
  unfold decodeRecordHeader
  simp (disch := decide) only [slice_recordImage]
  simp (disch := decide) only [encodeRecordHeader, slice_splice_same,
    slice_splice_of_disjoint, fromLe32_toLe32, fromLe64_toLe64, bne_self_eq_false, hlength,
    hinside, hword]
  rfl

theorem holds_of_image {object : Object} (hfits : object.payload.length ≤ maxObjectPayload)
    (himage : ∀ i (hi : i < (recordImage object.objType object.payload
        (sha256 object.payload) (sectorsOf object.payload.length)).length),
      disk (lba + i) = (recordImage object.objType object.payload (sha256 object.payload)
        (sectorsOf object.payload.length))[i]) :
    Holds sha256 disk lba object := by
  have hcount : (recordImage object.objType object.payload (sha256 object.payload)
      (sectorsOf object.payload.length)).length = sectorsOf object.payload.length := by
    simp [recordImage]
  have hsectors : (range' lba (sectorsOf object.payload.length)).map disk =
      recordImage object.objType object.payload (sha256 object.payload)
        (sectorsOf object.payload.length) := by
    apply ext_getElem
    · simp [recordImage]
    · intro i _ hi
      rw [← himage i hi]
      simp
  refine ⟨hfits, ?_, ?_⟩
  · have hfirst := himage 0 (by rw [hcount]; exact sectorsOf_pos _)
    rw [add_zero] at hfirst
    rw [hfirst]
    simp only [recordImage, getElem_map, getElem_range, Nat.zero_mul]
    exact decodeRecordHeader_recordImage object _ hfits
  · have hlength := length_recordBytes object (sha256 object.payload)
    rw [payloadAt, hsectors, recordImage, flatMap_field _ _ _ (le_of_eq hlength.symm), ← hlength,
      take_length, recordBytes, append_assoc, drop_left' (by simp), take_left' rfl]

end Recording

end SlimeOs.StoredObjects
