import SlimeOs.ExtentSecuring

/-!
Every call keeps the extent records a forest that tiles the ranges retyped from ordinary memory,
and the free bytes what the free records add up to, also when the kernel refuses.
-/

namespace SlimeOs.ExtentBuddy

open Bool Except FallibleCall FallibleCall.Call List ObjectAllocator Option RootSlotRoom TableSum

variable {maxKernelUntypeds high index low : Nat} {s s' : Backing maxKernelUntypeds}
  {table : ExtentTable}

/-- The records form a forest over the ranges retyped from ordinary memory and the free bytes
are counted. -/
structure Sound (s : Backing maxKernelUntypeds) : Prop where
  forest : Forest s.extents.records
  covered : ∀ x, coverage s.extents.records x = rootCoverage s.roots x
  counted : s.extents.freeBytes = freeTotal s.extents.records
  room : Roomy s.slots

theorem Sound.aside (h : Sound s) (hmove : Aside s s') : Sound s' := by
  refine ⟨?_, ?_, ?_, hmove.room h.room⟩
  · rw [hmove.records]
    exact h.forest
  · rw [hmove.records, hmove.roots]
    exact h.covered
  · rw [hmove.records, hmove.freeBytes]
    exact h.counted

theorem counted_commit (h : table.freeBytes = freeTotal table.records)
    {entry : Option ExtentRecord} (hfound : table.records[index]? = some entry)
    (after : Option ExtentRecord) :
    (table.commit index after).freeBytes = freeTotal (table.commit index after).records := by
  have hread : table.read index = entry := by simp [ExtentTable.read, hfound]
  have hsum := sum_map_set (b := after) ExtentTable.freeWeight hfound
  have hle := le_sum_map ExtentTable.freeWeight hfound
  rw [ExtentTable.commit_freeBytes, ExtentTable.commit_records, hread, h]
  unfold freeTotal
  omega

theorem Sound.update (h : Sound s)
    {record record' : ExtentRecord} (hfound : s.extents.records[index]? = some (some record))
    (hwhole : record.split = false) (hsame : SameBlock record record') :
    Sound { s with extents := s.extents.commit index (some record') } := by
  refine ⟨?_, ?_, counted_commit h.counted hfound _, h.room⟩
  · rw [ExtentTable.commit_records]
    exact h.forest.update hfound hwhole hsame
  intro x
  change coverage (s.extents.commit index _).records x = rootCoverage s.roots x
  have hsum := sum_map_set (b := some record') (covers x) hfound
  have hcovers : covers x (some record') = covers x (some record) := by
    simp only [covers, hsame.split, hsame.paddr, hsame.sizeBits]
  have hcovered := h.covered x
  rw [ExtentTable.commit_records]
  unfold coverage at hcovered ⊢
  omega

theorem Sound.append (h : Sound s) : Sound { s with extents := s.extents.append } := by
  refine ⟨h.forest.append _, ?_, ?_, h.room⟩
  · intro x
    simpa [ExtentTable.append, coverage, covers] using h.covered x
  · simpa [ExtentTable.append, freeTotal, ExtentTable.freeWeight] using h.counted

theorem sameBlock_assign (record : ExtentRecord) (id : TaskArenaId) (kind : ExtentKind) :
    SameBlock record (record.assign id kind) := ⟨rfl, rfl, rfl, rfl⟩

theorem Sound.secured (h : Sound s) (hmove : Secured s s') : Sound s' := by
  induction hmove with
  | refl => exact h
  | tail _ hstep ih =>
    cases hstep with
    | aside haside => exact ih.aside haside
    | adopt hfound hfree =>
      exact ih.update hfound (isCommonFree_iff.mp hfree).2.1 (sameBlock_assign _ _ _)
    | append => exact ih.append

theorem Secured.vacant (h : Secured s s') (hvacant : s.extents.records[index]? = some none) :
    s'.extents.records[index]? = some none := by
  induction h with
  | refl => exact hvacant
  | @tail middle last _ hstep ih =>
    cases hstep with
    | aside haside =>
      rw [haside.records]
      exact ih
    | @adopt index' record hfound hfree =>
      have hne : index' ≠ index := by
        rintro rfl
        simpa using hfound.symm.trans ih
      rw [ExtentTable.commit_records, getElem?_set_ne hne]
      exact ih
    | append =>
      change (middle.extents.records ++ _)[index]? = some none
      rw [getElem?_append_left (List.getElem_of_getElem? ih).1]
      exact ih

/-- It is sound and, if the call completes, its answer is a free extent. -/
def HandsOut (outcome : Outcome AllocError Nat) (s : Backing maxKernelUntypeds) : Prop :=
  Sound s ∧ ∀ index, outcome = .ok index → FreeAt s.extents.records index

theorem FreeAt.aside (hmove : Aside s s')
    (h : FreeAt s.extents.records index) : FreeAt s'.extents.records index := by
  rw [hmove.records]
  exact h

section Operations

variable (kernel : BackingKernel) (maxTaskExtents : Nat)

theorem vacantPair_spec (h : s.vacantPair = some (low, high)) :
    s.extents.records[low]? = some none ∧ s.extents.records[high]? = some none ∧ low ≠ high := by
  unfold Backing.vacantPair at h
  split at h
  next first second rest hfilter =>
    obtain ⟨rfl, rfl⟩ : first = low ∧ second = high := by simpa using h
    have hvacant : ∀ index ∈ (List.range s.extents.records.length).filter s.extents.vacantAt,
        s.extents.records[index]? = some none := by
      intro index hindex
      have hat := (mem_filter.mp hindex).2
      simpa [ExtentTable.vacantAt] using hat
    have hnodup := (nodup_range (n := s.extents.records.length)).filter s.extents.vacantAt
    rw [hfilter] at hvacant hnodup
    refine ⟨hvacant first (by simp), hvacant second (by simp), ?_⟩
    rintro rfl
    simp at hnodup
  · nomatch h

variable {parent lower upper : ExtentRecord} {sizeBits : Nat}

theorem split_writes (h : Sound s) (hs : Splittable s.extents.records index low high parent)
    (first : Nat) :
    Ensures (do
      setExtent low (some (half parent first 0))
      setExtent high (some (half parent (first + 1) 1))
      updateExtent index fun record => { record with split := true, children := some (low, high) }
      pure (some low) : BackingCall maxKernelUntypeds (Option Nat)) s fun outcome s' =>
        outcome = .ok (some low) ∧ Sound s' ∧ FreeAt s'.extents.records low := by
  have hlow := (List.getElem_of_getElem? hs.lowVacant).1
  have hhigh := (List.getElem_of_getElem? hs.highVacant).1
  apply ensures_bind_ok (setExtent_eq hlow _)
  apply ensures_bind_ok (setExtent_eq (by simpa using hhigh) _)
  have hplaced : (s.extents.commit low (some (half parent first 0))).records[high]? =
      some none := by
    rw [ExtentTable.commit_records]
    exact (getElem?_set_ne hs.ne).trans hs.highVacant
  have hfound : ((s.extents.commit low (some (half parent first 0))).commit high
      (some (half parent (first + 1) 1))).records[index]? = some (some parent) := by
    rw [ExtentTable.commit_records, ExtentTable.commit_records]
    exact ((getElem?_set_ne hs.high_ne).trans (getElem?_set_ne hs.low_ne)).trans hs.found
  apply ensures_bind_ok (updateExtent_eq hfound _)
  have hrecords : (((s.extents.commit low (some (half parent first 0))).commit high
      (some (half parent (first + 1) 1))).commit index
        (some { parent with split := true, children := some (low, high) })).records =
      splitRecords s.extents.records index low high first parent := by
    simp [splitRecords]
  refine ensures_pure ⟨rfl, ⟨?_, ?_, ?_, h.room⟩, ?_⟩
  · rw [hrecords]
    exact h.forest.split hs
  · intro x
    rw [hrecords]
    exact (hs.coverage x).trans (h.covered x)
  · exact counted_commit (counted_commit (counted_commit h.counted hs.lowVacant _) hplaced _)
      hfound _
  · rw [hrecords]
    exact ⟨_, hs.getElem?_low, rfl⟩

theorem retypeHalves_aside (parent : ExtentRecord) (first : Nat) :
    Moves Aside (retypeHalves kernel parent first : BackingCall maxKernelUntypeds Unit) := by
  refine moves_bind (moves_attempt (invoke_aside _ _)) fun answer => ?_
  rcases answer with - | _
  · refine moves_bind (releaseRootSlot_aside _) fun _ => moves_bind (releaseRootSlot_aside _) ?_
    exact fun _ => moves_lift
  · exact moves_pure _

theorem splitExtentWith_ensures (h : Sound s) (index : Nat) :
    Ensures (splitExtentWith kernel maxTaskExtents index) s fun outcome s' =>
      (Secured s s' ∧ ∀ child, outcome ≠ .ok (some child)) ∨
        ∃ child, outcome = .ok (some child) ∧ Sound s' ∧ FreeAt s'.extents.records child := by
  refine ensures_moves (ensureExtentDescriptors_secured kernel maxTaskExtents 2) ?_
    fun _ _ hsecured => .inl ⟨hsecured, nofun⟩
  intro _ s₁ hsecured₁
  refine ensures_moves (ensureContiguousRootSlots_secured kernel 2) ?_
    fun _ _ hsecured => .inl ⟨hsecured₁.trans hsecured, nofun⟩
  intro _ s₂ hsecured₂
  have hsecured : Secured s s₂ := hsecured₁.trans hsecured₂
  refine ensures_bind (extentAt_ensures s₂ index) ?_
    fun _ _ hsame => .inl ⟨hsame.1 ▸ hsecured, nofun⟩
  rintro parent s' ⟨rfl, hparent⟩
  have hfound := hparent parent rfl
  split
  · exact ensures_pure (.inl ⟨hsecured, nofun⟩)
  rename_i hfree
  refine ensures_rejectIf (fun hbits => ensures_read ?_) fun _ => .inl ⟨hsecured, nofun⟩
  refine ensures_okOr ?_ fun _ => .inl ⟨hsecured, nofun⟩
  rintro ⟨low, high⟩ hpair
  obtain ⟨hlow, hhigh, hne⟩ := vacantPair_spec hpair
  refine ensures_moves (onSlots_aside (allocateContiguous_keepsRoom _ _)) ?_
    fun _ _ haside => .inl ⟨hsecured.trans haside.secured, nofun⟩
  rintro ⟨first, reused⟩ s₃ haside₃
  refine ensures_moves (retypeHalves_aside kernel parent first) ?_
    fun _ _ haside => .inl ⟨hsecured.trans (haside₃.trans haside).secured, nofun⟩
  intro _ s₄ haside₄
  apply ensures_modify
  have haside : Aside s' { s₄ with
      slotsAllocated := s₄.slotsAllocated + 2
      slotsReused := s₄.slotsReused + reused } :=
    (haside₃.trans haside₄).trans ⟨rfl, rfl, rfl, id⟩
  have hsplittable : Splittable s₄.extents.records index low high parent := by
    rw [haside₄.records, haside₃.records]
    refine ⟨hfound, by simpa using hfree, hlow, hhigh, hne, ?_⟩
    have hbits' := of_decide_eq_false hbits
    omega
  apply ensures_weaken (split_writes ((h.secured hsecured).aside haside) hsplittable first)
  rintro outcome s'' ⟨hok, hsound, hchild⟩
  exact .inr ⟨low, hok, hsound, hchild⟩

theorem mergeableExtent_spec (h : Sound s) (hindex : s.mergeableExtent = some index) :
    ∃ low high parent lower upper,
      Mergeable s.extents.records index low high parent lower upper := by
  have hat := find?_some hindex
  obtain ⟨parent, hread, htest⟩ := (any_eq_true _ _).mp hat
  rw [and_eq_true] at htest
  have hfound := read_eq_some.mp hread
  obtain ⟨low, high, hchildren, -⟩ := h.forest.halves index parent hfound htest.1
  have hboth := htest.2
  rw [hchildren, all_some, and_eq_true] at hboth
  obtain ⟨lower, hlower, hlowFree⟩ := (any_eq_true _ _).mp hboth.1
  obtain ⟨upper, hupper, hhighFree⟩ := (any_eq_true _ _).mp hboth.2
  exact ⟨low, high, parent, lower, upper, hfound, htest.1, hchildren, read_eq_some.mp hlower,
    read_eq_some.mp hupper, hlowFree, hhighFree⟩

theorem dropHalf_ensures (hroom : Roomy s.slots)
    (hcounted : s.extents.freeBytes = freeTotal s.extents.records) {child : Nat}
    {extent : ExtentRecord} (hfound : s.extents.records[child]? = some (some extent)) :
    Ensures (dropHalf child) s fun outcome s' => outcome = .ok () ∧
      s'.extents.records = s.extents.records.set child none ∧
      s'.extents.freeBytes = freeTotal s'.extents.records ∧ s'.roots = s.roots ∧
      Roomy s'.slots := by
  apply ensures_bind_ok (extentAt_eq hfound)
  have haside := releaseRootSlot_aside extent.parent s
  have hok := releaseRootSlot_ok hroom extent.parent
  rcases hstep : releaseRootSlot extent.parent s with ⟨outcome, s₁⟩
  rw [hstep] at haside hok
  obtain rfl := hok
  apply ensures_bind_ok hstep
  have hlt : child < s₁.extents.records.length := by
    rw [haside.records]
    exact (List.getElem_of_getElem? hfound).1
  have hfound₁ : s₁.extents.records[child]? = some (some extent) := by
    rw [haside.records]
    exact hfound
  have hcounted₁ : s₁.extents.freeBytes = freeTotal s₁.extents.records := by
    rw [haside.freeBytes, haside.records]
    exact hcounted
  unfold Ensures
  rw [setExtent_eq hlt]
  refine ⟨rfl, ?_, counted_commit hcounted₁ hfound₁ _, haside.roots, haside.room hroom⟩
  rw [ExtentTable.commit_records, haside.records]

theorem mergeExtent_ensures (h : Sound s)
    (hm : Mergeable s.extents.records index low high parent lower upper) :
    Ensures (mergeExtent kernel index) s
      (Leads (fun fault s' => (∃ error, fault = .returned error) ∧ Aside s s')
        fun _ s' => Sound s' ∧
          s'.extents.records = mergeRecords s.extents.records index low high parent) := by
  have hne := (hm.halves h.forest).ne
  apply ensures_bind_ok (extentAt_eq hm.found)
  refine ensures_bind (invoke_ensures _ _ s) ?_ fun _ _ hfault => hfault
  intro _ s₁ haside
  have hsound₁ := h.aside haside
  rw [← haside.records] at hm ⊢
  apply ensures_unwrap hm.children
  refine ensures_bind (dropHalf_ensures hsound₁.room hsound₁.counted hm.lowFound) ?_
    fun _ _ hfault => absurd hfault.1 nofun
  rintro _ s₂ ⟨-, hrecords₂, hcounted₂, hroots₂, hroom₂⟩
  have hhigh : s₂.extents.records[high]? = some (some upper) := by
    rw [hrecords₂, getElem?_set_ne hne]
    exact hm.highFound
  refine ensures_bind (dropHalf_ensures hroom₂ hcounted₂ hhigh) ?_
    fun _ _ hfault => absurd hfault.1 nofun
  rintro _ s₃ ⟨-, hrecords₃, hcounted₃, hroots₃, hroom₃⟩
  have hparent : s₃.extents.records[index]? = some (some parent) := by
    rw [hrecords₃, getElem?_set_ne hm.high_ne, hrecords₂, getElem?_set_ne hm.low_ne]
    exact hm.found
  unfold Ensures
  rw [updateExtent_eq hparent]
  have hrecords : (s₃.extents.commit index
      (some { parent with split := false, children := none })).records =
      mergeRecords s₁.extents.records index low high parent := by
    rw [ExtentTable.commit_records, hrecords₃, hrecords₂, mergeRecords]
  refine ⟨⟨?_, ?_, counted_commit hcounted₃ hparent _, hroom₃⟩, hrecords⟩
  · rw [hrecords]
    exact hsound₁.forest.merge hm
  intro x
  rw [hrecords]
  rw [hroots₃, hroots₂]
  exact (hm.coverage hsound₁.forest x).trans (hsound₁.covered x)

def OwnedSame (records records' : Records) : Prop :=
  ∀ (i : Nat) (record : ExtentRecord), (record.owner.isSome || record.origin.isSome) = true →
    (records[i]? = some (some record) ↔ records'[i]? = some (some record))

structure Coalesced (s s' : Backing maxKernelUntypeds) : Prop where
  sound : Sound s'
  freeBytes : s'.extents.freeBytes = s.extents.freeBytes
  owned : OwnedSame s.extents.records s'.extents.records

theorem OwnedSame.merge {records : Records} (h : Forest records)
    (hm : Mergeable records index low high parent lower upper) :
    OwnedSame records (mergeRecords records index low high parent) := by
  have hfree {record : ExtentRecord} (hfree : record.isCommonFree = true)
      (howned : (record.owner.isSome || record.origin.isSome) = true) : False := by
    obtain ⟨howner, -, horigin⟩ := isCommonFree_iff.mp hfree
    simp [howner, horigin] at howned
  obtain ⟨howner, horigin⟩ := h.unowned index parent hm.found hm.split
  intro i record howned
  constructor
  · intro hi
    have hindex : i ≠ index := by
      rintro rfl
      obtain rfl : parent = record := by simpa using hm.found.symm.trans hi
      simp [howner, horigin] at howned
    have hlow : i ≠ low := by
      rintro rfl
      obtain rfl : lower = record := by simpa using hm.lowFound.symm.trans hi
      exact hfree hm.lowFree howned
    have hhigh : i ≠ high := by
      rintro rfl
      obtain rfl : upper = record := by simpa using hm.highFound.symm.trans hi
      exact hfree hm.highFree howned
    rw [hm.getElem?_other hindex hlow hhigh]
    exact hi
  · intro hi
    rcases hm.present_cases hi with ⟨-, rfl⟩ | ⟨-, hi⟩
    · simp [howner, horigin] at howned
    · exact hi

/-- Each merge leaves fewer records, so the loop ends before its fuel does. -/
theorem coalesceLoop_ensures (h : Sound s) {fuel : Nat}
    (hfuel : presentCount s.extents.records < fuel) :
    Ensures (coalesceLoop kernel fuel) s fun outcome s' =>
      Coalesced s s' ∧ (outcome = .ok () ∨ ∃ error, outcome = .error (.returned error)) := by
  induction fuel generalizing s with
  | zero => exact absurd hfuel (Nat.not_lt_zero _)
  | succ fuel ih =>
    apply ensures_read
    split
    · exact ensures_pure ⟨⟨h, rfl, fun _ _ _ => Iff.rfl⟩, .inl rfl⟩
    rename_i index hindex
    obtain ⟨low, high, parent, lower, upper, hm⟩ := mergeableExtent_spec h hindex
    apply ensures_bind (mergeExtent_ensures kernel h hm)
    · rintro _ s₁ ⟨hsound₁, hrecords⟩
      have hfewer := hm.presentCount h.forest
      have hfuel₁ : presentCount s₁.extents.records < fuel := by
        rw [hrecords]
        omega
      apply ensures_weaken (ih hsound₁ hfuel₁)
      rintro outcome s₂ ⟨hrest, houtcome⟩
      have hmerged : OwnedSame s.extents.records s₁.extents.records := by
        rw [hrecords]
        exact .merge h.forest hm
      have hbytes : s₁.extents.freeBytes = s.extents.freeBytes := by
        rw [hsound₁.counted, h.counted, hrecords]
        exact hm.freeTotal h.forest
      refine ⟨⟨hrest.sound, hrest.freeBytes.trans hbytes, ?_⟩, houtcome⟩
      intro i record howned
      exact (hmerged i record howned).trans (hrest.owned i record howned)
    · rintro - s₁ ⟨⟨error, rfl⟩, haside⟩
      refine ⟨⟨h.aside haside, haside.freeBytes, ?_⟩, .inr ⟨error, rfl⟩⟩
      intro i record _
      rw [haside.records]

theorem coalesceExtentsWith_ensures (h : Sound s) :
    Ensures (coalesceExtentsWith kernel) s fun outcome s' =>
      Coalesced s s' ∧ (outcome = .ok () ∨ ∃ error, outcome = .error (.returned error)) := by
  refine ensures_read (coalesceLoop_ensures kernel h ?_)
  have hle := presentCount_le s.extents.records
  omega

theorem reusable_free
    (h : (table.reusable sizeBits).1 = some index) : FreeAt table.records index := by
  have hat : table.reusableAt sizeBits index = true := by
    unfold ExtentTable.reusable at h
    split at h
    · exact find?_some h
    split at h
    · nomatch h
    split at h
    · nomatch h
    rename_i found hfound
    obtain rfl := some.inj h
    rcases or_eq_some_iff.mp hfound with hfound | ⟨-, hfound⟩
    · exact find?_some hfound
    · exact find?_some hfound
  obtain ⟨record, hread, htest⟩ := (any_eq_true _ _).mp hat
  rw [and_eq_true] at htest
  exact ⟨record, read_eq_some.mp hread, htest.1⟩

theorem reusableExtent_ensures (s : Backing maxKernelUntypeds) (sizeBits : Nat) :
    Ensures (reusableExtent sizeBits) s fun outcome s' => Aside s s' ∧
      ∃ found, outcome = .ok found ∧ ∀ index, found = some index → FreeAt s.extents.records index :=
  ⟨reusableExtent_aside sizeBits s, _, rfl, fun _ hfound => reusable_free hfound⟩

theorem takeCommon_ensures (h : Sound s) (sizeBits : Nat) (hfree : FreeAt s.extents.records index) :
    Ensures (takeCommon kernel sizeBits index) s HandsOut := by
  refine ensures_moves (checkCommonFunding_aside kernel _) ?_ fun _ _ haside =>
    ⟨h.aside haside, nofun⟩
  intro _ s₁ haside₁
  refine ensures_moves (consumeFunding_aside _) ?_ fun _ _ haside =>
    ⟨h.aside (haside₁.trans haside), nofun⟩
  intro _ s₂ haside₂
  have haside : Aside s { s₂ with extentsReused := s₂.extentsReused + 1 } :=
    (haside₁.trans haside₂).trans ⟨rfl, rfl, rfl, id⟩
  refine ensures_modify (ensures_pure ⟨h.aside haside, ?_⟩)
  intro index' hindex
  obtain rfl := ok.inj hindex
  exact FreeAt.aside haside hfree

theorem splitDown_ensures (h : Sound s) (sizeBits : Nat)
    {fuel : Nat} (hfree : FreeAt s.extents.records index) :
    Ensures (splitDown kernel maxTaskExtents sizeBits fuel index) s fun outcome s' =>
      Sound s' ∧ ∀ child, outcome = .ok (some child) → FreeAt s'.extents.records child := by
  induction fuel generalizing s index with
  | zero => exact ⟨h, nofun⟩
  | succ fuel ih =>
    obtain ⟨extent, hfound, -⟩ := id hfree
    apply ensures_bind_ok (extentAt_eq hfound)
    split
    · refine ensures_bind (takeCommon_ensures kernel h sizeBits hfree) ?_
        fun _ _ hfault => ⟨hfault.1, nofun⟩
      rintro taken s' ⟨hsound, htaken⟩
      refine ensures_pure ⟨hsound, ?_⟩
      intro child hchild
      obtain rfl := some.inj (ok.inj hchild)
      exact htaken taken rfl
    · apply ensures_bind (splitExtentWith_ensures kernel maxTaskExtents h index)
      · rintro answer s' (⟨hsecured, hnone⟩ | ⟨child, hanswer, hsound, hchild⟩)
        · rcases answer with _ | child
          · exact ensures_pure ⟨h.secured hsecured, nofun⟩
          · exact absurd rfl (hnone child)
        · obtain rfl := ok.inj hanswer
          exact ih hsound hchild
      · rintro fault s' (⟨hsecured, -⟩ | ⟨child, hfault, -⟩)
        · exact ⟨h.secured hsecured, nofun⟩
        · nomatch hfault

theorem selectSplit_ensures (h : Sound s) (sizeBits tries : Nat) :
    Ensures (selectSplit kernel maxTaskExtents sizeBits tries) s HandsOut := by
  induction tries generalizing s with
  | zero => exact ⟨h, nofun⟩
  | succ tries ih =>
    refine ensures_bind (reusableExtent_ensures s sizeBits) ?_
      fun _ _ hfault => ⟨h.aside hfault.1, nofun⟩
    rintro answer s₁ ⟨haside, found, hanswer, hfree⟩
    obtain rfl := ok.inj hanswer
    have hsound₁ := h.aside haside
    rcases answer with _ | index
    · refine ensures_read (ensures_okOr ?_ fun _ => ⟨hsound₁, nofun⟩)
      rintro ⟨index, extent⟩ hchosen
      obtain ⟨hfound, hfree⟩ := mem_freeExtents (mem_firstMinBy hchosen)
      refine ensures_bind (splitDown_ensures kernel maxTaskExtents hsound₁ sizeBits
        ⟨extent, hfound, hfree⟩) ?_ fun _ _ hfault => ⟨hfault.1, nofun⟩
      rintro answer s₂ ⟨hsound₂, hchild⟩
      rcases answer with _ | child
      · exact ih hsound₂
      refine ensures_pure ⟨hsound₂, ?_⟩
      intro index' hindex
      obtain rfl := ok.inj hindex
      exact hchild child rfl
    · exact takeCommon_ensures kernel hsound₁ sizeBits (FreeAt.aside haside (hfree index rfl))

theorem acquireSplitExtentWith_ensures (h : Sound s) (sizeBits : Nat) :
    Ensures (acquireSplitExtentWith kernel maxTaskExtents sizeBits) s HandsOut := by
  apply ensures_attempt (coalesceExtentsWith_ensures kernel h)
  · intro _ s' hmerged
    exact selectSplit_ensures kernel maxTaskExtents hmerged.1.sound sizeBits _
  · intro _ s' hmerged
    exact selectSplit_ensures kernel maxTaskExtents hmerged.1.sound sizeBits _
  · intro s' hmerged
    exact ⟨hmerged.1.sound, nofun⟩
  · intro s' hmerged
    exact ⟨hmerged.1.sound, nofun⟩

/-- A range that ordinary memory gave up, before its extent is recorded. -/
structure Placed (s : Backing maxKernelUntypeds) (sizeBits paddr : Nat)
    (s' : Backing maxKernelUntypeds) : Prop where
  records : s'.extents.records = s.extents.records
  freeBytes : s'.extents.freeBytes = s.extents.freeBytes
  roots : s'.roots = s.roots ++ [(paddr, sizeBits)]
  room : KeepsRoom s.slots s'.slots

theorem allocateFromGlobal_ensures (sizeBits : Nat) : Ensures (allocateFromGlobal kernel sizeBits) s
      (Leads (fun _ s' => Aside s s') fun paddr s' => Placed s sizeBits paddr s') := by
  refine ensures_moves nextAnswer_aside ?_ fun _ _ haside => haside
  intro now s₁ haside₁
  split
  · exact haside₁
  refine ensures_moves (checkCommonFunding_aside kernel _) ?_ fun _ _ haside =>
    haside₁.trans haside
  intro _ s₂ haside₂
  refine ensures_moves (consumeFunding_aside _) ?_ fun _ _ haside =>
    (haside₁.trans haside₂).trans haside
  intro _ s₃ haside₃
  have haside := (haside₁.trans haside₂).trans haside₃
  refine ensures_modify (ensures_pure ⟨haside.records, haside.freeBytes, ?_, haside.room⟩)
  rw [← haside.roots]

theorem Sound.place (h : Sound s) {paddr : Nat} (hplaced : Placed s sizeBits paddr s')
    (hvacant : s'.extents.records[index]? = some none) (slot : Nat) :
    Sound { s' with extents := s'.extents.commit index (some (.new slot sizeBits paddr)) } := by
  have hcounted : s'.extents.freeBytes = freeTotal s'.extents.records := by
    rw [hplaced.freeBytes, hplaced.records]
    exact h.counted
  have hforest : Forest s'.extents.records := by
    rw [hplaced.records]
    exact h.forest
  refine ⟨?_, ?_, counted_commit hcounted hvacant _, hplaced.room h.room⟩
  · rw [ExtentTable.commit_records]
    exact hforest.place hvacant rfl
  intro x
  have hsum := sum_map_set (b := some (.new slot sizeBits paddr)) (covers x) hvacant
  have hcovered := h.covered x
  rw [ExtentTable.commit_records, hplaced.roots]
  rw [hplaced.records] at hsum ⊢
  have hnew : covers x (some (.new slot sizeBits paddr)) = blockCovers x paddr sizeBits := rfl
  have hnone : covers x none = 0 := rfl
  simp only [coverage, rootCoverage, map_append, sum_append, map_cons,
    map_nil, sum_cons, sum_nil] at hcovered ⊢
  omega

theorem firstVacancy_keeps (table : ExtentTable) : table.firstVacancy.2.records = table.records ∧
      table.firstVacancy.2.freeBytes = table.freeBytes := by
  unfold ExtentTable.firstVacancy
  split
  · exact ⟨rfl, rfl⟩
  · split <;> exact ⟨rfl, rfl⟩

theorem firstVacancy_vacant
    (h : table.firstVacancy.1 = some index) : table.records[index]? = some none := by
  have hat : table.vacantAt index = true := by
    unfold ExtentTable.firstVacancy at h
    split at h
    · nomatch h
    split at h
    · nomatch h
    rename_i found hfound
    obtain rfl := some.inj h
    rcases or_eq_some_iff.mp hfound with hfound | ⟨-, hfound⟩
    · exact find?_some hfound
    · exact find?_some hfound
  simpa [ExtentTable.vacantAt] using hat

theorem acquireExtentRecord_ensures (h : Sound s) (sizeBits : Nat) :
    Ensures (acquireExtentRecord kernel maxTaskExtents sizeBits) s HandsOut := by
  refine ensures_moves (checkCommonFunding_aside kernel _) ?_ fun _ _ haside =>
    ⟨h.aside haside, nofun⟩
  intro _ s₁ haside₁
  have hsound₁ := h.aside haside₁
  refine ensures_bind (reusableExtent_ensures s₁ sizeBits) ?_
    fun _ _ hfault => ⟨hsound₁.aside hfault.1, nofun⟩
  rintro answer s₂ ⟨haside₂, found, hanswer, hfree⟩
  obtain rfl := ok.inj hanswer
  have hsound₂ := hsound₁.aside haside₂
  rcases answer with _ | index
  · refine ensures_moves (ensureExtentDescriptors_secured kernel maxTaskExtents 1) ?_
      fun _ _ hsecured => ⟨hsound₂.secured hsecured, nofun⟩
    intro _ s₃ hsecured₃
    have hsound₃ := hsound₂.secured hsecured₃
    apply ensures_read
    have hkeeps := firstVacancy_keeps s₃.extents
    rcases hfirst : s₃.extents.firstVacancy with ⟨vacancy, extents⟩
    rw [hfirst] at hkeeps
    apply ensures_modify
    have haside₄ : Aside s₃ { s₃ with extents := extents } := ⟨hkeeps.1, hkeeps.2, rfl, id⟩
    have hsound₄ := hsound₃.aside haside₄
    refine ensures_okOr ?_ fun _ => ⟨hsound₄, nofun⟩
    intro index hindex
    refine ensures_moves (takeSlot_secured kernel) ?_ fun _ _ hsecured =>
      ⟨hsound₄.secured hsecured, nofun⟩
    intro slot s₅ hsecured₅
    have hsound₅ := hsound₄.secured hsecured₅
    have hvacant : s₅.extents.records[index]? = some none := by
      apply hsecured₅.vacant
      rw [haside₄.records]
      exact firstVacancy_vacant (by rw [hfirst]; exact hindex)
    apply ensures_attempt (allocateFromGlobal_ensures kernel sizeBits)
    · intro paddr s₆ hplaced
      have hvacant₆ : s₆.extents.records[index]? = some none := by
        rw [hplaced.records]
        exact hvacant
      apply ensures_bind_ok (setExtent_eq (List.getElem_of_getElem? hvacant₆).1 _)
      refine ensures_pure ⟨hsound₅.place hplaced hvacant₆ slot, ?_⟩
      intro index' hindex'
      obtain rfl := ok.inj hindex'
      refine ⟨.new slot sizeBits paddr, ?_, rfl⟩
      rw [ExtentTable.commit_records,
        getElem?_set_self (List.getElem_of_getElem? hvacant₆).1]
    · intro error s₆ haside₆
      have hsound₆ := hsound₅.aside haside₆
      refine ensures_moves (releaseRootSlot_aside slot) ?_ fun _ _ haside =>
        ⟨hsound₆.aside haside, nofun⟩
      intro _ s₇ haside₇
      have hsound₇ := hsound₆.aside haside₇
      split
      · exact ⟨hsound₇, nofun⟩
      · refine ensures_wrapErr (acquireSplitExtentWith_ensures kernel maxTaskExtents hsound₇
          sizeBits) ?_ fun _ _ _ hfault => ⟨hfault.1, nofun⟩
        exact fun _ _ hdone => hdone
    · intro s₆ haside₆
      exact ⟨hsound₅.aside haside₆, nofun⟩
    · intro s₆ haside₆
      exact ⟨hsound₅.aside haside₆, nofun⟩
  · refine ensures_moves (consumeFunding_aside _) ?_ fun _ _ haside =>
      ⟨hsound₂.aside haside, nofun⟩
    intro _ s₃ haside₃
    have haside : Aside s₁ { s₃ with extentsReused := s₃.extentsReused + 1 } :=
      (haside₂.trans haside₃).trans ⟨rfl, rfl, rfl, id⟩
    refine ensures_modify (ensures_pure ⟨hsound₁.aside haside, ?_⟩)
    intro index' hindex
    obtain rfl := ok.inj hindex
    exact FreeAt.aside haside (hfree index rfl)

end Operations

end SlimeOs.ExtentBuddy
