import SlimeOs.ExtentAliasing

/-!
Extents never alias over whole runs: splits, merges, assignments, releases and adoptions in any
order, with the kernel refusing any of them. A split that fails may have adopted extents for the
root's own records while it secured what it needs; otherwise it changes nothing.
-/

namespace SlimeOs.ExtentBuddy

open FallibleCall FallibleCall.Call List ObjectAllocator Option RootSlotRoom TableSum ExtentRecord

variable {maxKernelUntypeds : Nat} {s s' : Backing maxKernelUntypeds}

def KeepsSound (s s' : Backing maxKernelUntypeds) : Prop := Sound s → Sound s'

instance : IsPreorder (Backing maxKernelUntypeds) KeepsSound where
  refl _ h := h
  trans _ _ _ h h' := h' ∘ h

theorem keepsSound_of_aside {α : Type} {x : BackingCall maxKernelUntypeds α} (h : Moves Aside x) :
    Moves KeepsSound x := fun s hsound => hsound.aside (h s)

section Operations

variable (kernel : BackingKernel) (maxTaskExtents : Nat)

theorem acquired_keepsSound (sizeBits : Nat) {change : ExtentRecord → ExtentRecord}
    (hchange : ∀ record, SameBlock record (change record)) :
    Moves KeepsSound (do
      let index ← acquireExtentRecord kernel maxTaskExtents sizeBits
      updateExtent index change
      pure index : BackingCall maxKernelUntypeds Nat) := by
  intro s hsound
  change Ensures (_ >>= _) s fun _ s' => Sound s'
  refine ensures_bind (acquireExtentRecord_ensures kernel maxTaskExtents hsound sizeBits) ?_
    fun _ _ hfault => hfault.1
  rintro index s' ⟨hsound', hfree⟩
  obtain ⟨record, hfound, hcommon⟩ := hfree index rfl
  refine ensures_bind_ok (updateExtent_eq hfound _) (ensures_pure ?_)
  exact hsound'.update hfound (isCommonFree_iff.mp hcommon).2.1 (hchange record)

variable (id : TaskArenaId) {index : Nat}

theorem Sound.rewrite (h : Sound s)
    {entry : Option ExtentRecord} (hfound : s.extents.records[index]? = some entry) :
    Sound { s with extents := s.extents.commit index entry } := by
  have hrecords : (s.extents.commit index entry).records = s.extents.records := by
    obtain ⟨hlt, rfl⟩ := List.getElem_of_getElem? hfound
    rw [ExtentTable.commit_records]
    exact set_getElem_self hlt
  refine ⟨?_, ?_, counted_commit h.counted hfound _, h.room⟩
  · rw [hrecords]
    exact h.forest
  · rw [hrecords]
    exact h.covered

/-- A split extent has no origin to give up. -/
theorem returnReservedExtent_keepsSound (index : Nat) :
    Moves KeepsSound (returnReservedExtent index : BackingCall maxKernelUntypeds Unit) := by
  intro s hsound
  change Sound { s with extents := s.extents.updatePresent index unreserve }
  unfold ExtentTable.updatePresent
  split
  · exact hsound
  rename_i record hread
  have hfound := read_eq_some.mp hread
  rcases hsplit : record.split with _ | _
  · exact hsound.update hfound hsplit ⟨rfl, rfl, rfl, rfl⟩
  have horigin := (hsound.forest.unowned index record hfound hsplit).2
  have hsame : record.unreserve = record := by
    unfold unreserve
    rw [← horigin]
  rw [hsame]
  exact hsound.rewrite hfound

theorem Sound.whole_of_owner (h : Sound s)
    {record : ExtentRecord} (hfound : s.extents.records[index]? = some (some record))
    (howner : record.owner ≠ none ∨ record.origin ≠ none) : record.split = false := by
  rcases hsplit : record.split with _ | _
  · rfl
  obtain ⟨hnone, hnone'⟩ := h.forest.unowned index record hfound hsplit
  rcases howner with howner | howner
  · exact absurd hnone howner
  · exact absurd hnone' howner

theorem borrowReserved_keepsSound (reservation : Nat) (id : TaskArenaId) (kind : ExtentKind)
    (sizeBits : Nat) :
    Moves KeepsSound (borrowReserved reservation id kind sizeBits :
      BackingCall maxKernelUntypeds (Option Nat)) := by
  intro s hsound
  change Ensures (borrowReserved reservation id kind sizeBits) s fun _ s' => Sound s'
  unfold borrowReserved
  refine ensures_read (ensures_lift (fun _ _ => ?_) fun _ => hsound)
  split
  · exact hsound
  rename_i index hindex
  have hat := find?_some hindex
  obtain ⟨record, hread, htest⟩ := (any_eq_true _ _).mp hat
  have hfound := read_eq_some.mp hread
  have hreserved : record.origin ≠ none := by
    rintro horigin
    simp [reservedBy, isReserved, horigin] at htest
  refine ensures_bind_ok (updateExtent_eq hfound _) (ensures_pure ?_)
  exact hsound.update hfound (hsound.whole_of_owner hfound (.inr hreserved))
    (sameBlock_assign record id kind)

theorem revokeExtent_keepsSound (index : Nat) :
    Moves KeepsSound (revokeExtent kernel id index : BackingCall maxKernelUntypeds Unit) := by
  intro s hsound
  change Ensures (revokeExtent kernel id index) s fun _ s' => Sound s'
  unfold revokeExtent
  apply ensures_read
  split
  · exact hsound
  rename_i record hfilter
  obtain ⟨hread, htest⟩ := filter_eq_some_iff.mp hfilter
  have howner : record.owner ≠ none := by
    rintro hnone
    simp [belongsTo, hnone] at htest
  refine ensures_moves (invoke_aside _ _) ?_ fun _ _ haside => hsound.aside haside
  intro _ s' haside
  have hfound : s'.extents.records[index]? = some (some record) := by
    rw [haside.records]
    exact read_eq_some.mp hread
  have hsound' := hsound.aside haside
  unfold Ensures
  rw [updateExtent_eq hfound]
  exact hsound'.update hfound (hsound'.whole_of_owner hfound (.inl howner)) ⟨rfl, rfl, rfl, rfl⟩

theorem settleExtent_keepsSound (index : Nat) :
    Moves KeepsSound (settleExtent id index : BackingCall maxKernelUntypeds Unit) := by
  intro s hsound
  change Ensures (settleExtent id index) s fun _ s' => Sound s'
  unfold settleExtent
  apply ensures_read
  split
  next hany =>
    obtain ⟨record, hread, htest⟩ := (any_eq_true _ _).mp hany
    have howner : record.owner ≠ none := by
      rintro hnone
      simp [belongsTo, hnone] at htest
    have hfound := read_eq_some.mp hread
    change Sound { s with extents := s.extents.updatePresent index settle }
    unfold ExtentTable.updatePresent
    rw [hread]
    exact hsound.update hfound (hsound.whole_of_owner hfound (.inl howner)) ⟨rfl, rfl, rfl, rfl⟩
  · exact hsound

theorem forgetArena_aside (s : Backing maxKernelUntypeds) : Aside s (forgetArena id s) := by
  unfold forgetArena
  refine ⟨?_, ?_, rfl, fun hroom => hroom⟩
  · dsimp only
    split <;> rfl
  · dsimp only
    split <;> rfl

theorem provisionExtent_keepsSound (sizeBits : Nat) (kind : ExtentKind) :
    Moves KeepsSound (provisionExtent kernel maxTaskExtents id sizeBits kind :
      BackingCall maxKernelUntypeds Nat) := by
  refine moves_bind moves_read fun s => moves_bind moves_lift fun _ => ?_
  exact acquired_keepsSound kernel maxTaskExtents sizeBits
    fun record => sameBlock_assign record id kind

theorem orForget_keepsSound {provisioned : BackingCall maxKernelUntypeds Nat}
    (h : Moves KeepsSound provisioned) : Moves KeepsSound (orForget id provisioned) := by
  intro s hsound
  have hsound' := h s hsound
  unfold orForget
  rcases hprovisioned : provisioned s with ⟨_ | _, s'⟩
  · rw [hprovisioned] at hsound'
    exact hsound'.aside (forgetArena_aside id s')
  · rw [hprovisioned] at hsound'
    exact hsound'

theorem beginTaskArena_keepsSound (sizeBits : Nat) :
    Moves KeepsSound (beginTaskArena kernel maxTaskExtents sizeBits :
      BackingCall maxKernelUntypeds TaskArenaId) := by
  have hdescriptors : Moves KeepsSound
      (ensureAllocationDescriptors kernel : BackingCall maxKernelUntypeds Unit) := by
    refine moves_bind (keepsSound_of_aside nextAnswer_aside) fun now => ?_
    exact moves_fold _ _ fun _ page s hsound => hsound.secured (fund_secured kernel _ s)
  refine moves_bind hdescriptors fun _ => moves_bind moves_read fun backing => ?_
  refine moves_bind moves_lift fun index => moves_bind (fun s hsound => ?_) fun _ => ?_
  · exact hsound.aside ((forgetArena_aside _ s).trans ⟨rfl, rfl, rfl, id⟩)
  · exact orForget_keepsSound _ (provisionExtent_keepsSound kernel maxTaskExtents _ sizeBits .static)

theorem releaseTaskArena_keepsSound :
    Moves KeepsSound (releaseTaskArena kernel id : BackingCall maxKernelUntypeds Unit) := by
  refine moves_bind moves_read fun s => moves_bind moves_lift fun _ => ?_
  apply moves_bind (moves_fold _ _ fun _ index => revokeExtent_keepsSound kernel id index)
  intro _
  refine moves_bind (keepsSound_of_aside (invoke_aside _ _)) fun _ => ?_
  apply moves_bind (moves_fold _ _ fun _ index => settleExtent_keepsSound id index)
  exact fun _ s hsound => hsound.aside (forgetArena_aside id s)

theorem perform_keepsSound (operation : BackingOperation) :
    Moves KeepsSound (operation.perform kernel maxTaskExtents :
      BackingCall maxKernelUntypeds Unit) := by
  cases operation with
  | split index =>
    refine moves_bind (fun s hsound => ?_) fun _ => moves_pure _
    rcases splitExtentWith_ensures kernel maxTaskExtents hsound index with
      ⟨hsecured, -⟩ | ⟨_, -, hsound', -⟩
    · exact hsound.secured hsecured
    · exact hsound'
  | coalesce => exact fun s hsound => (coalesceExtentsWith_ensures kernel hsound).1.sound
  | begin sizeBits =>
    exact moves_bind (beginTaskArena_keepsSound kernel maxTaskExtents sizeBits)
      fun _ => moves_pure _
  | provision id sizeBits kind =>
    exact moves_bind (provisionExtent_keepsSound kernel maxTaskExtents id sizeBits kind)
      fun _ => moves_pure _
  | reserve reservation kind sizeBits =>
    exact moves_bind (acquired_keepsSound kernel maxTaskExtents sizeBits
      fun _ => ⟨rfl, rfl, rfl, rfl⟩) fun _ => moves_pure _
  | unreserve index => exact returnReservedExtent_keepsSound index
  | borrow reservation id kind sizeBits =>
    exact moves_bind (borrowReserved_keepsSound reservation id kind sizeBits)
      fun _ => moves_pure _
  | release id => exact releaseTaskArena_keepsSound kernel id
  | adopt bytes => exact fun s hsound => hsound.secured (adoptReturnedExtent_secured kernel bytes s)

end Operations

/-- No extent is split yet, and there is one for each range. -/
structure AtRoots (s : Backing maxKernelUntypeds) : Prop where
  whole : ∀ (i : Nat) (record : ExtentRecord), s.extents.records[i]? = some (some record) →
    record.split = false
  roots : s.roots = s.extents.records.filterMap fun entry =>
    entry.map fun record => (record.paddr, record.sizeBits)
  counted : s.extents.freeBytes = freeTotal s.extents.records
  room : Roomy s.slots

theorem coverage_of_whole {records : Records}
    (h : ∀ (i : Nat) (record : ExtentRecord), records[i]? = some (some record) →
      record.split = false) (x : Nat) :
    coverage records x = rootCoverage (records.filterMap fun entry =>
      entry.map fun record => (record.paddr, record.sizeBits)) x := by
  induction records with
  | nil => rfl
  | cons entry records ih =>
    have hrest := ih fun i record hi => h (i + 1) record hi
    rcases entry with _ | record
    · simpa [coverage, covers] using hrest
    · have hwhole := h 0 record rfl
      simpa [coverage, covers, rootCoverage, hwhole] using hrest

theorem AtRoots.sound (h : AtRoots s) : Sound s := by
  have hnone {i : Nat} {record : ExtentRecord}
      (hi : s.extents.records[i]? = some (some record)) (hsplit : record.split = true) : False := by
    rw [h.whole i record hi] at hsplit
    nomatch hsplit
  refine ⟨⟨?_, ?_, ?_⟩, ?_, h.counted, h.room⟩
  · exact fun i record hi hsplit => (hnone hi hsplit).elim
  · exact fun i record hi hsplit => (hnone hi hsplit).elim
  · exact fun i _ _ _ _ _ _ hi _ hsplit => (hnone hi hsplit).elim
  · intro x
    rw [h.roots]
    exact coverage_of_whole h.whole x

theorem run_sound (kernel : BackingKernel) (maxTaskExtents : Nat)
    {start : Backing maxKernelUntypeds} (hstart : AtRoots start)
    (operations : List BackingOperation) :
    Sound (run (backingStep kernel maxTaskExtents) start operations) :=
  run_invariant _ Sound
    (fun s operation hsound => perform_keepsSound kernel maxTaskExtents operation s hsound)
    start operations hstart.sound

/-- Exactly the extents listed changed hands: each was free and is the root's own now. The free
bytes fell by theirs. -/
structure Adopted (adopted : List Nat) (s s' : Backing maxKernelUntypeds) : Prop where
  distinct : adopted.Nodup
  owner : ∀ index ∈ adopted, ∃ record, s.extents.read index = some record ∧
    record.isCommonFree = true ∧
    s'.extents.read index = some (record.assign infrastructureOwner .infrastructure)
  same : ∀ index, index ∉ adopted → s'.extents.read index = s.extents.read index
  freeBytes : s'.extents.freeBytes +
    (adopted.map fun index => ExtentTable.freeWeight (s.extents.read index)).sum =
      s.extents.freeBytes

theorem Secured.adopted (h : Sound s) (hmove : Secured s s') : ∃ adopted, Adopted adopted s s' := by
  induction hmove with
  | refl => exact ⟨[], nodup_nil, by simp, fun _ _ => rfl, rfl⟩
  | @tail middle last hmoved hstep ih =>
    obtain ⟨adopted, hadopted⟩ := ih
    have hsound := h.secured hmoved
    cases hstep with
    | aside haside =>
      have hread (index : Nat) : last.extents.read index = middle.extents.read index := by
        simp only [ExtentTable.read, haside.records]
      refine ⟨adopted, hadopted.distinct, ?_, ?_, ?_⟩
      · intro index hindex
        rw [hread]
        exact hadopted.owner index hindex
      · intro index hindex
        rw [hread]
        exact hadopted.same index hindex
      · rw [haside.freeBytes]
        exact hadopted.freeBytes
    | @adopt index record hfound hfree =>
      -- An extent adopted before is owned, so this one is new.
      have hnew : index ∉ adopted := by
        intro hindex
        obtain ⟨old, -, -, hread⟩ := hadopted.owner index hindex
        obtain rfl : old.assign infrastructureOwner .infrastructure = record := by
          simpa [read_eq_some.mpr hfound] using hread.symm
        cases hfree
      have hlast (after : Option ExtentRecord) (j : Nat) (hj : j ≠ index) :
          (middle.extents.commit index after).read j = middle.extents.read j := by
        simp only [ExtentTable.read, ExtentTable.commit_records]
        rw [getElem?_set_ne hj.symm]
      have hstart := (hadopted.same index hnew).symm.trans (read_eq_some.mpr hfound)
      refine ⟨index :: adopted, nodup_cons.mpr ⟨hnew, hadopted.distinct⟩, ?_, ?_, ?_⟩
      · intro j hj
        rcases mem_cons.mp hj with rfl | hold
        · refine ⟨record, hstart, hfree, read_eq_some.mpr ?_⟩
          rw [ExtentTable.commit_records,
            getElem?_set_self (List.getElem_of_getElem? hfound).1]
        have hne : j ≠ index := by
          rintro rfl
          exact hnew hold
        rw [hlast _ j hne]
        exact hadopted.owner j hold
      · intro j hj
        rw [mem_cons, not_or] at hj
        rw [hlast _ j hj.1]
        exact hadopted.same j hj.2
      · have hle := le_sum_map ExtentTable.freeWeight hfound
        have hbefore := hadopted.freeBytes
        have hcounted := hsound.counted
        rw [ExtentTable.commit_freeBytes, map_cons, sum_cons, hstart,
          read_eq_some.mpr hfound]
        have hassigned : ExtentTable.freeWeight
            (some (record.assign infrastructureOwner .infrastructure)) = 0 :=
          ExtentTable.freeWeight_of_held rfl
        unfold freeTotal at hcounted
        omega
    | append =>
      have hread (index : Nat) :
          middle.extents.append.read index = middle.extents.read index := by
        unfold ExtentTable.read ExtentTable.append
        rw [getElem?_append]
        split
        · rfl
        next hge =>
          rw [getElem?_eq_none (Nat.le_of_not_lt hge), getElem?_replicate]
          split <;> rfl
      refine ⟨adopted, hadopted.distinct, ?_, ?_, hadopted.freeBytes⟩
      · intro index hindex
        rw [hread]
        exact hadopted.owner index hindex
      · intro index hindex
        rw [hread]
        exact hadopted.same index hindex

structure Unaliased (kernel : BackingKernel) (maxTaskExtents : Nat)
    (s : Backing maxKernelUntypeds) : Prop where
  disjoint : ∀ (i j : Nat) (record record' : ExtentRecord), i ≠ j →
    s.extents.read i = some record → s.extents.read j = some record' →
    record.split = false → record'.split = false →
    Disjoint (blockRange record.paddr record.sizeBits) (blockRange record'.paddr record'.sizeBits)
  union : ∀ x, (∃ i record, s.extents.read i = some record ∧ record.split = false ∧
      x ∈ blockRange record.paddr record.sizeBits) ↔
    ∃ root ∈ s.roots, x ∈ blockRange root.1 root.2
  splitHeld : ∀ (i : Nat) (record : ExtentRecord), s.extents.read i = some record →
    record.split = true → record.owner = none ∧ record.origin = none ∧
      record.isCommonFree = false ∧ ∃ low high, record.children = some (low, high) ∧
        (s.extents.read low).isSome ∧ (s.extents.read high).isSome
  handsOut : ∀ (sizeBits index : Nat) (s' : Backing maxKernelUntypeds),
    acquireExtentRecord kernel maxTaskExtents sizeBits s = (.ok index, s') →
    ∃ record, s'.extents.read index = some record ∧ record.isCommonFree = true
  counted : s.extents.freeBytes = (s.extents.records.map ExtentTable.freeWeight).sum
  failedSplit : ∀ (index : Nat) (fault : Fault AllocError) (s' : Backing maxKernelUntypeds),
    splitExtentWith kernel maxTaskExtents index s = (.error fault, s') →
    ∃ adopted, Adopted adopted s s'
  failedCoalesce : ∀ (fault : Fault AllocError) (s' : Backing maxKernelUntypeds),
    coalesceExtentsWith kernel s = (.error fault, s') →
    s'.extents.freeBytes = s.extents.freeBytes ∧
      OwnedSame s.extents.records s'.extents.records
  coalesceEnds : (coalesceExtentsWith kernel s).1 = .ok () ∨
    ∃ error, (coalesceExtentsWith kernel s).1 = .error (.returned error)

/-- Two free extents of ordinary memory. Every slot is taken and the root has no memory of its
own left. -/
def exhaustedBacking : Backing 64 where
  extents :=
    ((ExtentTable.empty.append.commit 0 (some (.new 900 21 0x200000))).commit 1
      (some (.new 901 17 0x600000)))
  extentsReused := 0
  slots := RootSlots.SlotPool.empty
  slotsAllocated := 0
  slotsReused := 0
  infrastructureSlotNext := 2 ^ 12
  reservedSlots := 0
  operationalResources := ⟨0, 0, 0, 0, 0⟩
  operationalLent := false
  untypeds := []
  infrastructure := ⟨none, [], 0, true⟩
  adaptiveFunding := none
  adaptiveReserve := none
  arenas := fun _ => none
  nextArenaSerial := 1
  roots := [(0x200000, 21), (0x600000, 17)]
  clock := 0

/-- A kernel that answers every retype in the one way, with no ordinary memory behind it. A page
asks for a frame and its tables and finds the tables there; a leaf asks for two nodes. -/
def retypingKernel (retypeFailure : Option KernelError) : BackingKernel where
  retypeFailure _ := retypeFailure
  revokeFailure _ := none
  deleteFailure _ := none
  page _ := ⟨[20480], 4096, none⟩
  leaf _ := ⟨[65536], 32768, none⟩
  descriptors _ := []
  inventory _ := 0
  placement _ := .error (.untypedExhausted 12 0)

theorem atRoots_exhaustedBacking : AtRoots exhaustedBacking := by
  refine ⟨?_, by decide +kernel, by decide +kernel, Nat.zero_le _⟩
  intro i record hi
  have hall : ∀ entry ∈ exhaustedBacking.extents.records, entry.all (!·.split) = true := by
    decide +kernel
  simpa using hall _ (mem_of_getElem? hi)

theorem apart_exhaustedBacking : Apart exhaustedBacking.roots := by
  refine pairwise_pair.mpr (Set.disjoint_left.mpr ?_)
  intro x hfirst hsecond
  simp only [blockRange, Set.mem_Ico] at hfirst hsecond
  omega

/-- The refused split of the large extent has taken the small one for the root's own slots. -/
theorem failed_split_adopts_extent :
    AtRoots exhaustedBacking ∧ Apart exhaustedBacking.roots ∧
      (splitExtentWith (retypingKernel (some .notEnoughMemory)) 64 0 exhaustedBacking).1 =
        .error (.returned (.retype 20 .notEnoughMemory)) ∧
      (exhaustedBacking.extents.read 1).map ExtentRecord.owner = some none ∧
      ((splitExtentWith (retypingKernel (some .notEnoughMemory)) 64 0
        exhaustedBacking).2.extents.read 1).map ExtentRecord.owner =
          some (some infrastructureOwner) ∧
      exhaustedBacking.extents.freeBytes = 2 ^ 21 + 2 ^ 17 ∧
      (splitExtentWith (retypingKernel (some .notEnoughMemory)) 64 0
        exhaustedBacking).2.extents.freeBytes = 2 ^ 21 := by
  refine ⟨atRoots_exhaustedBacking, apart_exhaustedBacking, ?_⟩
  decide +kernel

/-- From extents that do not overlap, no run makes two records of the same memory or loses any.
A failed split may have adopted extents for the root's own records and changes nothing else. -/
theorem extents_never_alias (kernel : BackingKernel) (maxTaskExtents : Nat)
    (start : Backing maxKernelUntypeds) (operations : List BackingOperation)
    (hstart : AtRoots start)
    (hroots : Apart (run (backingStep kernel maxTaskExtents) start operations).roots) :
    Unaliased kernel maxTaskExtents (run (backingStep kernel maxTaskExtents) start operations) := by
  have hsound := run_sound kernel maxTaskExtents hstart operations
  generalize run (backingStep kernel maxTaskExtents) start operations = s at hroots hsound
  refine ⟨?_, ?_, ?_, ?_, hsound.counted, ?_, ?_, (coalesceExtentsWith_ensures kernel hsound).2⟩
  · intro i j record record' hne hi hj hwhole hwhole'
    refine disjoint_of_coverage_le_one ?_ (read_eq_some.mp hi) (read_eq_some.mp hj) hne hwhole
      hwhole'
    intro x
    rw [hsound.covered]
    exact rootCoverage_le_one hroots x
  · intro x
    rw [← rootCoverage_pos_iff, ← hsound.covered, coverage_pos_iff]
    simp only [Holds, read_eq_some]
  · intro i record hi hsplit
    have hfound := read_eq_some.mp hi
    obtain ⟨howner, horigin⟩ := hsound.forest.unowned i record hfound hsplit
    obtain ⟨low, high, hchildren, -, ⟨lower, hlower, -⟩, upper, hupper, -⟩ :=
      hsound.forest.halves i record hfound hsplit
    refine ⟨howner, horigin, by simp [isCommonFree, hsplit], low, high, hchildren, ?_⟩
    rw [read_eq_some.mpr hlower, read_eq_some.mpr hupper]
    exact ⟨rfl, rfl⟩
  · intro sizeBits index s' hacquire
    have hhands := acquireExtentRecord_ensures kernel maxTaskExtents hsound sizeBits
    unfold Ensures at hhands
    rw [hacquire] at hhands
    obtain ⟨record, hfound, hfree⟩ := hhands.2 index rfl
    exact ⟨record, read_eq_some.mpr hfound, hfree⟩
  · intro index fault s' hfailed
    have hsplit := splitExtentWith_ensures kernel maxTaskExtents hsound index
    unfold Ensures at hsplit
    rw [hfailed] at hsplit
    rcases hsplit with ⟨hsecured, -⟩ | ⟨child, hok, -⟩
    · exact hsecured.adopted hsound
    · cases hok
  · intro fault s' hfailed
    have hmerged := (coalesceExtentsWith_ensures kernel hsound).1
    rw [hfailed] at hmerged
    exact ⟨hmerged.freeBytes, hmerged.owned⟩

/-- An arena begins with half of the large extent and returns it, and the halves are merged. -/
theorem returned_half_never_aliases :
    AtRoots exhaustedBacking ∧
      Apart (run (backingStep (retypingKernel none) 64) exhaustedBacking
        [.begin 20, .release ⟨0, 1⟩, .coalesce]).roots ∧
      Unaliased (retypingKernel none) 64
        (run (backingStep (retypingKernel none) 64) exhaustedBacking
          [.begin 20, .release ⟨0, 1⟩, .coalesce]) := by
  have hroots : (run (backingStep (retypingKernel none) 64) exhaustedBacking
      [.begin 20, .release ⟨0, 1⟩, .coalesce]).roots = exhaustedBacking.roots := by
    decide +kernel
  have hapart : Apart (run (backingStep (retypingKernel none) 64) exhaustedBacking
      [.begin 20, .release ⟨0, 1⟩, .coalesce]).roots := by
    rw [hroots]
    exact apart_exhaustedBacking
  refine ⟨atRoots_exhaustedBacking, hapart, ?_⟩
  exact extents_never_alias (retypingKernel none) 64 exhaustedBacking _ atRoots_exhaustedBacking
    hapart

end SlimeOs.ExtentBuddy
