import SlimeOs.SharedBufferPages

/-!
Carrying out a teardown plan. The batch unmaps every marked mapping before it
retires the frames of a marked region, and orphans of those frames are settled
before all of it. So a frame is retired only once nothing maps it, and the batch
always fits.
-/

namespace SlimeOs.SharedBuffers

open FallibleCall List SlotTable FallibleCall.Call SharedBufferTable AdapterAction

variable {actions : List AdapterAction} {slot : Nat}

section Batch

variable {table : SharedBufferTable} {plan : TeardownPlan}

/-- The two halves of a batch: unmaps of the marked mappings, and then the retirement of the
frames of the marked regions. -/
structure Batch (table : SharedBufferTable) (plan : TeardownPlan)
    (unmaps retires : List AdapterAction) : Prop where
  harmless : ∀ action ∈ unmaps, ∀ frame, action.retires frame = false
  pages : ∀ i mapping, plan.removeMappings[i]? = some true → Holds table.mappings i mapping →
    ∀ j region, Holds table.regions j region → region.id = mapping.buffer →
    ∀ page held, page < mapping.pageCount → IsPage region.anchors mapping page held →
    .unmap held.frame held.vspace held.vaddr ∈ unmaps
  retired : ∀ action ∈ retires, ∀ frame, action.retires frame = true →
    ∃ j region, plan.removeRegions[j]? = some true ∧ Holds table.regions j region ∧
      frame ∈ region.anchors.caps
  frames : ∀ j region, plan.removeRegions[j]? = some true → Holds table.regions j region →
    ∀ frame ∈ region.anchors.caps, .revoke frame ∈ retires

theorem push_ok (action : AdapterAction)
    (h : actions.length < maxTeardownActions) :
    push actions action = .ok (actions ++ [action]) := by
  unfold push
  simpa using Nat.ne_of_lt h

structure Unmaps (region : Region) (mapping : MappingRecord) (pages : Nat)
    (added : List AdapterAction) : Prop where
  length : added.length = pages
  harmless : ∀ action ∈ added, ∀ frame, action.retires frame = false
  pages : ∀ page held, page < pages → IsPage region.anchors mapping page held →
    .unmap held.frame held.vspace held.vaddr ∈ added

theorem appendMappingActions_ok (h : Sound table) {j : Nat} {mapping : MappingRecord}
    {region : Region} (hmapping : Holds table.mappings slot mapping)
    (hregion : Holds table.regions j region) (hbuffer : region.id = mapping.buffer)
    (actions : List AdapterAction)
    (hroom : actions.length + mapping.pageCount ≤ maxTeardownActions) :
    ∃ added, table.appendMappingActions actions slot = .ok (actions ++ added) ∧
      Unmaps region mapping mapping.pageCount added := by
  obtain ⟨_, other, hother, hsame, hrange⟩ := h.mappingRegion slot mapping hmapping
  rw [← h.regionIds.entry_eq hregion hother (hbuffer.trans hsame.symm)] at hrange
  unfold appendMappingActions
  rw [hmapping.join]
  change ∃ added, (table.liveRegionAny mapping.buffer >>= _) = _ ∧ _
  rw [← hbuffer, h.liveRegionAny hregion]
  have hloop : ∃ state, (range mapping.pageCount).foldlM (pushPage region mapping) actions =
      pure state ∧ ∃ added, state = actions ++ added ∧
        Unmaps region mapping mapping.pageCount added := by
    apply loop_invariant
      (fun i state => ∃ added, state = actions ++ added ∧ Unmaps region mapping i added)
      ⟨[], by simp, rfl, by simp, fun page _ hpage => absurd hpage (Nat.not_lt_zero page)⟩
    rintro i _ hi ⟨added, rfl, hlength, hharmless, hpages⟩
    obtain ⟨frame, hframe⟩ := @get_of_lt region.anchors (mapping.offsetPages + i) (by omega)
    refine ⟨actions ++ added ++ [.unmap frame mapping.vspace (mapping.base + i * pageSize)], ?_,
      added ++ [.unmap frame mapping.vspace (mapping.base + i * pageSize)],
      append_assoc _ _ _, ?_, ?_, ?_⟩
    · unfold pushPage
      rw [hframe]
      apply push_ok _
      rw [length_append]
      omega
    · simp [hlength]
    · intro action haction frame'
      rcases mem_append.mp haction with haction | haction
      · exact hharmless action haction frame'
      · rw [mem_singleton.mp haction]
        rfl
    · intro page held hpage hheld
      rcases Nat.lt_succ_iff_lt_or_eq.mp hpage with hlt | rfl
      · exact mem_append_left _ (hpages page held hlt hheld)
      · rw [hheld.eq hframe]
        exact mem_append_right _ (mem_singleton.mpr rfl)
  obtain ⟨_, hloop, added, rfl, hadded⟩ := hloop
  exact ⟨added, hloop, hadded⟩

/-- The unmaps of the marked mappings in the slots seen so far. What is still to come is the
total of the slots that are left. -/
structure UnmapsBelow (table : SharedBufferTable) (plan : TeardownPlan) (bound : Nat)
    (actions : List AdapterAction) : Prop where
  length : actions.length +
      total MappingRecord.pageCount (clearBelow plan.removeMappings table.mappings bound) ≤
    total MappingRecord.pageCount table.mappings
  harmless : ∀ action ∈ actions, ∀ frame, action.retires frame = false
  pages : ∀ i mapping, i < bound → plan.removeMappings[i]? = some true →
    Holds table.mappings i mapping →
    ∀ j region, Holds table.regions j region → region.id = mapping.buffer →
    ∀ page held, page < mapping.pageCount → IsPage region.anchors mapping page held →
    .unmap held.frame held.vspace held.vaddr ∈ actions

theorem unmapActions_ok (h : Sound table) (hplan : Occupied plan table) :
    ∃ unmaps, (range maxMappings).foldlM (table.appendMarkedMapping plan) [] = .ok unmaps ∧
      UnmapsBelow table plan maxMappings unmaps := by
  apply loop_invariant (UnmapsBelow table plan)
  · exact ⟨by simp [clearBelow], by simp, fun i _ hi => absurd hi (Nat.not_lt_zero i)⟩
  intro i actions hi hactions
  unfold appendMarkedMapping
  by_cases hmark : plan.removeMappings[i]? = some true
  · obtain ⟨mapping, hmapping⟩ := hplan.mappings i hmark
    obtain ⟨j, region, hregion, hbuffer, -⟩ := h.mappingRegion i mapping hmapping
    have hstep := adds_take (hmapping.clearBelow plan.removeMappings) MappingRecord.pageCount
    have hlength := hactions.length
    have hbudget := h.retained.budget
    obtain ⟨added, happend, hadded⟩ := appendMappingActions_ok h hmapping hregion hbuffer
      actions (by unfold maxTeardownActions; omega)
    rw [if_pos (by rw [hmark]; rfl)]
    refine ⟨actions ++ added, happend, ?_, ?_, ?_⟩
    · rw [length_append, hadded.length]
      unfold clearBelow
      rw [if_pos hmark]
      omega
    · intro action haction frame
      rcases mem_append.mp haction with haction | haction
      · exact hactions.harmless action haction frame
      · exact hadded.harmless action haction frame
    intro k other hk hmark' hother j' region' hregion' hbuffer' page held hpage hheld'
    rcases Nat.lt_succ_iff_lt_or_eq.mp hk with hlt | rfl
    · exact mem_append_left _ (hactions.pages k other hlt hmark' hother j' region' hregion'
        hbuffer' page held hpage hheld')
    obtain rfl := hother.unique hmapping
    have hsame := h.regionIds.entry_eq hregion hregion' (hbuffer.trans hbuffer'.symm)
    rw [← hsame] at hheld'
    exact mem_append_right _ (hadded.pages page held hpage hheld')
  · rw [if_neg (by simpa using hmark)]
    refine ⟨actions, rfl, ?_, hactions.harmless, ?_⟩
    · unfold clearBelow
      rw [if_neg hmark]
      exact hactions.length
    intro k other hk hmark' hother
    rcases Nat.lt_succ_iff_lt_or_eq.mp hk with hlt | rfl
    · exact hactions.pages k other hlt hmark' hother
    · exact absurd hmark' hmark

/-- The actions for the frames of the marked regions in the slots seen so far. -/
structure FramesBelow (table : SharedBufferTable) (plan : TeardownPlan)
    (action : FrameCap → AdapterAction) (bound : Nat) (added : List AdapterAction) : Prop where
  length : added.length + total (fun region => region.anchors.len)
      (clearBelow plan.removeRegions table.regions bound) ≤
    total (fun region => region.anchors.len) table.regions
  sound : ∀ a ∈ added, ∃ frame j region, a = action frame ∧ plan.removeRegions[j]? = some true ∧
    Holds table.regions j region ∧ frame ∈ region.anchors.caps
  complete : ∀ j region, j < bound → plan.removeRegions[j]? = some true →
    Holds table.regions j region → ∀ frame ∈ region.anchors.caps, action frame ∈ added

theorem regionFrames_ok (region : Region) (action : FrameCap → AdapterAction)
    {actions : List AdapterAction}
    (hroom : actions.length + region.anchors.len ≤ maxTeardownActions) :
    (range region.anchors.len).foldlM (pushFrame region action) actions =
      .ok (actions ++ region.anchors.caps.map action) := by
  have hloop : ∃ state, (range region.anchors.len).foldlM (pushFrame region action) actions =
      pure state ∧
        state = actions ++ (region.anchors.caps.take region.anchors.len).map action := by
    apply loop_invariant
      (fun i state => state = actions ++ (region.anchors.caps.take i).map action) (by simp)
    rintro i _ hi rfl
    obtain ⟨frame, hframe⟩ := get_of_lt hi
    refine ⟨_, ?_, rfl⟩
    unfold pushFrame
    rw [hframe]
    refine (push_ok _ ?_).trans ?_
    · have hle : (region.anchors.caps.take i).length ≤ i := by simp
      rw [length_append, length_map]
      omega
    · rw [take_add_one, show region.anchors.caps[i]? = some frame from hframe]
      simp [pure, Except.pure]
  obtain ⟨_, hloop, rfl⟩ := hloop
  rw [hloop]
  unfold FrameAnchors.len
  rw [take_length]
  rfl

theorem appendFrames_ok (h : Sound table) (hplan : Occupied plan table)
    (action : FrameCap → AdapterAction) (actions : List AdapterAction)
    (hroom : actions.length + maxFrameAnchors ≤ maxTeardownActions) :
    ∃ added, (range maxSharedBuffers).foldlM (table.appendFrames plan action) actions =
        .ok (actions ++ added) ∧ FramesBelow table plan action maxSharedBuffers added := by
  have hloop : ∃ state, (range maxSharedBuffers).foldlM (table.appendFrames plan action)
      actions = pure state ∧ ∃ added, state = actions ++ added ∧
        FramesBelow table plan action maxSharedBuffers added := by
    apply loop_invariant
      (fun i state => ∃ added, state = actions ++ added ∧ FramesBelow table plan action i added)
      ⟨[], by simp, by simp [clearBelow], by simp, fun j _ hj => absurd hj (Nat.not_lt_zero j)⟩
    rintro i _ - ⟨added, rfl, hlength, hsound, hcomplete⟩
    unfold appendFrames
    by_cases hmark : plan.removeRegions[i]? = some true
    · obtain ⟨region, hregion⟩ := hplan.regions i hmark
      have hstep := adds_take (hregion.clearBelow plan.removeRegions) fun region =>
        region.anchors.len
      have hpages := h.pages_le
      rw [h.balanced.pages] at hpages
      have hbound : maxFrameAnchors = maxTotalPages := rfl
      have hframes := @regionFrames_ok region action (actions ++ added) (by
        rw [length_append]
        omega)
      rw [if_pos (by rw [hmark]; rfl), hregion.join]
      refine ⟨_, hframes, added ++ region.anchors.caps.map action, append_assoc _ _ _, ?_, ?_,
        ?_⟩
      · rw [length_append, length_map]
        unfold clearBelow
        rw [if_pos hmark]
        change added.length + region.anchors.len + _ ≤ _
        omega
      · intro a ha
        rcases mem_append.mp ha with ha | ha
        · exact hsound a ha
        · obtain ⟨frame, hframe, rfl⟩ := mem_map.mp ha
          exact ⟨frame, i, region, rfl, hmark, hregion, hframe⟩
      · intro j other hj hmark' hother frame hframe
        rcases Nat.lt_succ_iff_lt_or_eq.mp hj with hlt | rfl
        · exact mem_append_left _ (hcomplete j other hlt hmark' hother frame hframe)
        · rw [hother.unique hregion] at hframe
          exact mem_append_right _ (mem_map.mpr ⟨frame, hframe, rfl⟩)
    · rw [if_neg (by simpa using hmark)]
      refine ⟨_, rfl, added, rfl, ?_, hsound, ?_⟩
      · unfold clearBelow
        rw [if_neg hmark]
        exact hlength
      intro j other hj hmark' hother
      rcases Nat.lt_succ_iff_lt_or_eq.mp hj with hlt | rfl
      · exact hcomplete j other hlt hmark' hother
      · exact absurd hmark' hmark
  obtain ⟨_, hloop, added, rfl, hadded⟩ := hloop
  exact ⟨added, hloop, hadded⟩

theorem buildActions_ok (h : Sound table) (hplan : Occupied plan table) :
    ∃ unmaps retires, table.buildActions plan = .ok (unmaps ++ retires) ∧
      Batch table plan unmaps retires := by
  obtain ⟨unmaps, hunmaps, hbelow⟩ := unmapActions_ok h hplan
  have hlength := hbelow.length
  have hbudget := h.retained.budget
  have hpages := h.pages_le
  rw [h.balanced.pages] at hpages
  have hroom : maxTeardownActions = maxMappingPages + maxFrameAnchors * 2 := rfl
  have hframes : maxFrameAnchors = maxTotalPages := rfl
  obtain ⟨revokes, hrevokes, hrevoked⟩ := appendFrames_ok h hplan .revoke unmaps
    (by omega)
  have hrevokedLength := hrevoked.length
  obtain ⟨releases, hreleases, hreleased⟩ := appendFrames_ok h hplan .releaseFrame
    (unmaps ++ revokes) (by rw [length_append]; omega)
  refine ⟨unmaps, revokes ++ releases, ?_, hbelow.harmless, ?_, ?_, ?_⟩
  · refine Outcome.bind_eq_ok_iff.mpr ⟨unmaps, hunmaps, ?_⟩
    refine Outcome.bind_eq_ok_iff.mpr ⟨unmaps ++ revokes, hrevokes, ?_⟩
    rw [hreleases, append_assoc]
  · exact fun i mapping hmark hmapping => hbelow.pages i mapping hmapping.lt hmark hmapping
  · intro action haction frame hretires
    rcases mem_append.mp haction with haction | haction
    · obtain ⟨cap, j, region, rfl, hmark, hregion, hcap⟩ := hrevoked.sound action haction
      obtain rfl : cap = frame := by simpa [retires] using hretires
      exact ⟨j, region, hmark, hregion, hcap⟩
    · obtain ⟨cap, j, region, rfl, hmark, hregion, hcap⟩ := hreleased.sound action haction
      obtain rfl : cap = frame := by simpa [retires] using hretires
      exact ⟨j, region, hmark, hregion, hcap⟩
  · intro j region hmark hregion frame hframe
    exact mem_append_left _ (hrevoked.complete j region hregion.lt hmark hregion frame hframe)

end Batch

section Execute

variable {answers : Nat → Option AdapterError} {world : World} {plan : TeardownPlan}
  {unmaps retires : List AdapterAction} {held : Orphan} {orphans : Slots Orphan maxOrphans}

/-- What carrying out a plan does: the adapter fails, or everything marked is reclaimed. -/
def Carried {α : Type} (answers : Nat → Option AdapterError) (plan : TeardownPlan)
    (table : SharedBufferTable) (outcome : Outcome SharedBufferError α) (world : World) : Prop :=
  Tidy (Covers world.table) world.adapter ∧
    Call.Leads (fun fault table' => Faulty answers ∧ Failed table fault table')
      (fun _ => Reclaimed plan table) outcome world.table

theorem Covers.without {orphan : Orphan}
    (h : Covers table held) (horphan : Holds table.orphans slot orphan) (hne : held ≠ orphan) :
    Covers { table with orphans := table.orphans.setIfInBounds slot none } held := by
  cases h with
  | mapping i j mapping region page hmapping hregion hbuffer hpage hheld =>
    exact .mapping i j mapping region page hmapping hregion hbuffer hpage hheld
  | orphan i hheld =>
    refine .orphan i (holds_set_none.mpr ⟨?_, hheld⟩)
    rintro rfl
    exact hne (hheld.unique horphan)

theorem Retained.sub (h : Retained table)
    (hsub : ∀ i orphan, Holds orphans i orphan → Holds table.orphans i orphan) :
    Retained { table with orphans := orphans } := by
  refine ⟨Nat.le_trans (Nat.add_le_add_right ?_ _) h.budget,
    fun i orphan horphan => h.anchored i orphan (hsub i orphan horphan)⟩
  unfold orphanCount
  rw [length_entries, length_entries]
  exact total_mono _ hsub

theorem performOrFail_ensures {P : Orphan → Prop} (h : Tidy P world.adapter)
    (action : AdapterAction)
    (hsafe : ∀ frame, action.retires frame = true → ∀ held, P held → held.frame ≠ frame) :
    Ensures (performOrFail answers action) world
      (Call.Leads (fun fault world' => (∃ error, fault = .returned error ∧ Reported error) ∧
          Faulty answers ∧ world'.table = world.table ∧ Tidy P world'.adapter)
        fun _ world' => world'.table = world.table ∧
          Tidy (fun held => P held ∧ action.Spares held) world'.adapter) := by
  apply ensures_bind (perform_ensures h action hsafe)
  · rintro answer world' ⟨htable, ⟨error, hfaulty, hanswer, htidy⟩ | ⟨hanswer, htidy⟩⟩
    · obtain rfl := Except.ok.inj hanswer
      exact ⟨⟨_, rfl, trivial⟩, hfaulty, htable, htidy⟩
    · obtain rfl := Except.ok.inj hanswer
      exact ⟨htable, htidy⟩
  · rintro fault world' ⟨-, ⟨error, -, hfault, -⟩ | ⟨hfault, -⟩⟩
    · cases hfault
    · cases hfault

/-- The orphans left after some of the slots: those of a retiring frame are gone. -/
structure OrphansSettled (table : SharedBufferTable) (actions : List AdapterAction) (bound : Nat)
    (world : World) : Prop where
  table_eq : ∃ orphans, world.table = { table with orphans := orphans }
  sub : ∀ i orphan, Holds world.table.orphans i orphan → Holds table.orphans i orphan
  gone : ∀ i orphan, i < bound → Holds world.table.orphans i orphan →
    actions.any (AdapterAction.retires orphan.frame) = false
  tidy : Tidy (Covers world.table) world.adapter

theorem OrphansSettled.failed
    {bound : Nat} (h : OrphansSettled table actions bound world) (hretained : Retained table)
    {error : SharedBufferError} (herror : Reported error) :
    Failed table (.returned error) world.table := by
  obtain ⟨orphans, heq⟩ := h.table_eq
  refine ⟨⟨error, rfl, herror⟩, orphans, heq, ?_⟩
  rw [heq]
  refine hretained.sub fun i orphan horphan => h.sub i orphan ?_
  rw [heq]
  exact horphan

theorem settleOrphan_ensures (hretained : Retained table)
    (h : OrphansSettled table actions slot world) :
    Ensures (settleOrphan answers actions () slot) world
      (Call.Leads (fun fault world' => Tidy (Covers world'.table) world'.adapter ∧
          Faulty answers ∧ Failed table fault world'.table)
        fun _ => OrphansSettled table actions (slot + 1)) := by
  have hnext : (∀ orphan, Holds world.table.orphans slot orphan →
      actions.any (retires orphan.frame) = false) →
      OrphansSettled table actions (slot + 1) world := by
    intro hslot
    refine ⟨h.table_eq, h.sub, fun i orphan hi horphan => ?_, h.tidy⟩
    rcases Nat.lt_succ_iff_lt_or_eq.mp hi with hlt | rfl
    · exact h.gone i orphan hlt horphan
    · exact hslot orphan horphan
  apply ensures_read
  split
  next hnone =>
    exact hnext fun orphan horphan => absurd (hnone.symm.trans horphan.join) nofun
  rename_i orphan horphan
  have horphan := holds_of_join horphan
  split
  · refine ensures_bind (performOrFail_ensures h.tidy _ fun _ hretires =>
      absurd hretires nofun) ?_ ?_
    · rintro _ ⟨table', adapter⟩ ⟨rfl, htidy⟩
      obtain ⟨orphans, heq⟩ := h.table_eq
      refine ⟨⟨world.table.orphans.setIfInBounds slot none, ?_⟩, ?_, ?_, htidy.weaken ?_⟩
      · change { world.table with orphans := world.table.orphans.setIfInBounds slot none } = _
        rw [heq]
      · exact fun i other hother => h.sub i other (holds_set_none.mp hother).2
      · intro i other hi hother
        obtain ⟨hne, hother⟩ := holds_set_none.mp hother
        exact h.gone i other (by omega) hother
      · rintro held ⟨hcovers, hspared⟩
        exact hcovers.without horphan hspared
    · rintro fault ⟨table', adapter⟩ ⟨⟨error, rfl, herror⟩, hfaulty, rfl, htidy⟩
      exact ⟨htidy, hfaulty, h.failed hretained herror⟩
  next hspared =>
    refine hnext fun other hother => ?_
    rw [hother.unique horphan]
    simpa using hspared

/-- A retired frame is not mapped: its orphans are settled and its region's mappings unmapped
before. -/
theorem not_mapped_of_retires (h : Sound table)
    (hclosed : Closed plan table) (hbatch : Batch table plan unmaps retires)
    (hgone : ∀ i orphan, Holds orphans i orphan →
      (unmaps ++ retires).any (AdapterAction.retires orphan.frame) = false)
    {i : Nat} {action : AdapterAction} (haction : (unmaps ++ retires)[i]? = some action)
    {frame : FrameCap} (hretires : action.retires frame = true)
    (hcovers : Covers { table with orphans := orphans } held)
    (hspared : ∀ j earlier, j < i → (unmaps ++ retires)[j]? = some earlier →
      earlier.Spares held) : held.frame ≠ frame := by
  rintro rfl
  have hmem := mem_of_getElem? haction
  cases hcovers with
  | orphan k horphan =>
    have hnone := hgone k held horphan
    rw [List.any_eq_false] at hnone
    exact hnone action hmem hretires
  | mapping k j mapping region page hmapping hregion hbuffer hpage hheld =>
    have hlate : unmaps.length ≤ i := by
      by_contra hlt
      rw [getElem?_append_left (by omega)] at haction
      have hharmless := hbatch.harmless action (mem_of_getElem? haction) held.frame
      exact absurd (hretires.symm.trans hharmless) nofun
    have hretired : action ∈ retires := by
      rw [getElem?_append_right hlate] at haction
      exact mem_of_getElem? haction
    obtain ⟨j', region', hmark, hregion', hcap⟩ :=
      hbatch.retired action hretired held.frame hretires
    obtain rfl := h.anchors j j' region region' held.frame hregion hregion'
      (mem_of_get hheld.frame) hcap
    have hmarked : plan.removeMappings[k]? = some true := by
      by_contra hunmarked
      exact hclosed.mappingRegion k mapping hmapping hunmarked j region hregion hbuffer hmark
    have hunmap := hbatch.pages k mapping hmarked hmapping j region hregion hbuffer page held
      hpage hheld
    obtain ⟨e, he⟩ := getElem?_of_mem hunmap
    have hearly : e < unmaps.length := (List.getElem_of_getElem? he).1
    have hspare := hspared e _ (by omega) (by rw [getElem?_append_left hearly]; exact he)
    exact hspare rfl

structure Performed (table : SharedBufferTable) (actions : List AdapterAction) (bound : Nat)
    (world : World) : Prop where
  table_eq : ∃ orphans, world.table = { table with orphans := orphans }
  sub : ∀ i orphan, Holds world.table.orphans i orphan → Holds table.orphans i orphan
  gone : ∀ i orphan, Holds world.table.orphans i orphan →
    actions.any (AdapterAction.retires orphan.frame) = false
  tidy : Tidy (fun held => Covers world.table held ∧ ∀ j action, j < bound →
    actions[j]? = some action → action.Spares held) world.adapter

theorem runActions_ensures (h : Safe world) (hclosed : Closed plan world.table)
    (hbatch : Batch world.table plan unmaps retires) :
    Ensures (runActions answers (unmaps ++ retires)) world
      (Call.Leads (fun fault world' => Tidy (Covers world'.table) world'.adapter ∧
          Faulty answers ∧ Failed world.table fault world'.table)
        fun _ => Performed world.table (unmaps ++ retires) (unmaps ++ retires).length) := by
  refine ensures_bind (ensures_fold
    (fun fault world' => Tidy (Covers world'.table) world'.adapter ∧
      Faulty answers ∧ Failed world.table fault world'.table)
    (fun i _ => OrphansSettled world.table (unmaps ++ retires) i) (range maxOrphans)
    ⟨⟨world.table.orphans, rfl⟩, fun _ _ horphan => horphan,
      fun i _ hi => absurd hi (Nat.not_lt_zero i), h.tidy⟩ ?_) ?_ fun fault world' hfault => hfault
  · intro i slot _ world' hslot hsettled
    obtain ⟨-, rfl⟩ : i < maxOrphans ∧ i = slot := by
      simpa [getElem?_eq_some_iff] using hslot
    exact settleOrphan_ensures h.sound.retained hsettled
  rintro _ settled hsettled
  have hsettled : OrphansSettled world.table (unmaps ++ retires) maxOrphans settled := by
    rw [← @length_range maxOrphans]
    exact hsettled
  have hgone : ∀ i orphan, Holds settled.table.orphans i orphan →
      (unmaps ++ retires).any (AdapterAction.retires orphan.frame) = false :=
    fun i orphan horphan => hsettled.gone i orphan horphan.lt horphan
  apply ensures_fold _
    (fun i _ => Performed world.table (unmaps ++ retires) i) (unmaps ++ retires)
    ⟨hsettled.table_eq, hsettled.sub, hgone, hsettled.tidy.weaken fun held hheld =>
      ⟨hheld, fun j _ hj => absurd hj (Nat.not_lt_zero j)⟩⟩
  rintro i action _ world' haction hperformed
  obtain ⟨orphans, heq⟩ := hperformed.table_eq
  refine ensures_weaken (performOrFail_ensures hperformed.tidy action ?_) ?_
  · rintro frame hretires held ⟨hcovers, hspared⟩
    rw [heq] at hcovers
    refine not_mapped_of_retires h.sound hclosed hbatch (fun k orphan horphan => ?_) haction
      hretires hcovers hspared
    apply hperformed.gone k orphan
    rw [heq]
    exact horphan
  · rintro (fault | _) after hafter
    · obtain ⟨⟨error, rfl, herror⟩, hfaulty, htable, htidy⟩ := hafter
      refine ⟨?_, hfaulty, ⟨error, rfl, herror⟩, orphans, htable.trans heq, ?_⟩
      · rw [htable]
        exact htidy.weaken fun held hheld => hheld.1
      rw [htable, heq]
      refine h.sound.retained.sub fun k orphan horphan => hperformed.sub k orphan ?_
      rw [heq]
      exact horphan
    · obtain ⟨htable, htidy⟩ := hafter
      refine ⟨⟨orphans, htable.trans heq⟩, by rw [htable]; exact hperformed.sub,
        by rw [htable]; exact hperformed.gone, ?_⟩
      rw [htable]
      apply htidy.weaken
      rintro held ⟨⟨hcovers, hspared⟩, hspare⟩
      refine ⟨hcovers, fun j earlier hj hearlier => ?_⟩
      rcases Nat.lt_succ_iff_lt_or_eq.mp hj with hlt | rfl
      · exact hspared j earlier hlt hearlier
      · rw [haction] at hearlier
        rw [← Option.some.inj hearlier]
        exact hspare

theorem executeTeardown_ensures (h : Safe world) (hclosed : Closed plan world.table)
    (hbatch : Batch world.table plan unmaps retires) :
    Ensures (executeTeardown answers (unmaps ++ retires) plan) world
      (Carried answers plan world.table) := by
  refine ensures_bind (runActions_ensures h hclosed hbatch) ?_ fun fault world' hfault => hfault
  rintro _ ⟨-, adapter⟩ ⟨⟨orphans, rfl⟩, hsub, hgone, htidy⟩
  have hbalanced : Balanced { world.table with orphans := orphans } :=
    ⟨h.sound.balanced.records, h.sound.balanced.pages⟩
  have hoccupied : Occupied plan { world.table with orphans := orphans } :=
    ⟨hclosed.mappings, hclosed.loans, hclosed.regions⟩
  apply ensures_bind (ensures_onTable (commitTeardown_ensures hbalanced hoccupied))
  · rintro _ _ ⟨torn, rfl, -, htorn⟩
    refine ⟨htidy.weaken ?_, hclosed, orphans, ⟨hsub, ?_⟩, htorn⟩
    · -- What was marked is no longer mapped, so what is still mapped was kept.
      obtain ⟨-, -, -, rfl⟩ := htorn
      rintro held ⟨hcovers, hspared⟩
      cases hcovers with
      | orphan i horphan => exact .orphan i horphan
      | mapping i j mapping region page hmapping hregion hbuffer hpage hheld =>
        have hkept : plan.removeMappings[i]? ≠ some true := by
          intro hmark
          have hunmap := hbatch.pages i mapping hmark hmapping j region hregion hbuffer page held
            hpage hheld
          obtain ⟨e, he⟩ := getElem?_of_mem (mem_append_left retires hunmap)
          exact hspared e _ (List.getElem_of_getElem? he).1 he rfl
        exact .mapping i j mapping region page (holds_cleared.mpr ⟨hmapping, hkept⟩)
          (holds_cleared.mpr ⟨hregion,
            hclosed.mappingRegion i mapping hmapping hkept j region hregion hbuffer⟩)
          hbuffer hpage hheld
    · intro i orphan horphan j region hregion hmark hframe
      have hnone := hgone i orphan horphan
      rw [List.any_eq_false] at hnone
      apply hnone (.revoke orphan.frame) (mem_append_right _
        (hbatch.frames j region hmark hregion orphan.frame hframe))
      simp [AdapterAction.retires]
  · rintro fault _ ⟨_, -, hfault, -⟩
    cases hfault

theorem settle_ensures (h : Safe world) (hclosed : Closed plan world.table) :
    Ensures (settle answers plan) world (Carried answers plan world.table) := by
  obtain ⟨unmaps, retires, hbuild, hbatch⟩ := buildActions_ok h.sound hclosed.toOccupied
  apply ensures_read
  rw [hbuild]
  exact ensures_bind_ok rfl (executeTeardown_ensures h hclosed hbatch)

end Execute

end SlimeOs.SharedBuffers
