import SlimeOs.SharedBufferTeardown

/-!
The plans the operations make. Each of them is closed: whatever refers to
something marked is marked itself, and a released region goes with its last loan.
So every operation on the table fails without a trace or makes one of the changes
that keep the invariant.
-/

namespace SlimeOs.SharedBuffers

open Bool FallibleCall Option SlotTable FallibleCall.Call SharedBufferTable

section Marks

variable {α : Type} {n : Nat} {marks : Vector Bool n} {slots : Slots α n} {p : α → Bool} {i : Nat}

theorem marked_markWhere : (markWhere marks slots p)[i]? = some true ↔
      marks[i]? = some true ∨ ∃ a, Holds slots i a ∧ p a = true := by
  unfold markWhere Holds
  rw [Vector.getElem?_ofFn]
  by_cases hi : i < n
  · rw [dif_pos hi, Vector.getElem?_eq_getElem hi, Vector.getElem?_eq_getElem hi]
    simp [any_eq_true]
    rfl
  · rw [dif_neg hi, Vector.getElem?_eq_none (by omega), Vector.getElem?_eq_none (by omega)]
    simp

theorem any_slots_iff {q : Nat → Bool} :
    ((List.range n).any fun i => q i && slots[i]?.join.any p) = true ↔
      ∃ i a, q i = true ∧ Holds slots i a ∧ p a = true := by
  rw [List.any_eq_true]
  constructor
  · rintro ⟨i, -, hi⟩
    obtain ⟨hmark, hentry⟩ := and_eq_true_iff.mp hi
    obtain ⟨a, ha, hp⟩ := (any_eq_true _ _).mp hentry
    exact ⟨i, a, hmark, holds_of_join ha, hp⟩
  · rintro ⟨i, a, hmark, ha, hp⟩
    exact ⟨i, List.mem_range.mpr ha.lt, by simp [hmark, ha.join, hp]⟩

theorem anyMarked_iff : anyMarked marks slots p = true ↔
      ∃ i a, marks[i]? = some true ∧ Holds slots i a ∧ p a = true := by
  unfold anyMarked
  simp only [any_slots_iff, beq_iff_eq]

theorem anyUnmarked_iff : anyUnmarked marks slots p = true ↔
      ∃ i a, marks[i]? ≠ some true ∧ Holds slots i a ∧ p a = true := by
  unfold anyUnmarked
  rw [any_slots_iff]
  refine exists₂_congr fun i a => and_congr_left fun ha => ?_
  simp [Vector.getElem?_eq_getElem ha.1.lt]

theorem not_marked_replicate : (Vector.replicate n false)[i]? ≠ some true := by
  rw [Vector.getElem?_replicate]
  split <;> simp

theorem held_of_replicate (h : (Vector.replicate n false)[i]? = some true) :
    ∃ a, Holds slots i a := absurd h not_marked_replicate

theorem held_of_markWhere (hmarks : marks[i]? = some true → ∃ a, Holds slots i a)
    (h : (markWhere marks slots p)[i]? = some true) : ∃ a, Holds slots i a :=
  (marked_markWhere.mp h).elim hmarks fun ⟨a, ha, _⟩ => ⟨a, ha⟩

theorem marked_mark {slot : Nat} :
    (mark (Vector.replicate n false) slot)[i]? = some true ↔ slot = i ∧ i < n := by
  unfold mark
  by_cases hi : slot = i
  · subst hi
    by_cases hlt : slot < n
    · simp [hlt]
    · simp [hlt]
  · simp [hi, not_marked_replicate]

end Marks

section Plans

variable {table : SharedBufferTable} {plan : TeardownPlan} {region : Region}
  {mapping : MappingRecord} {loan : Loan} {holder : HolderId}

theorem marked_complete_region {j : Nat} (hregion : Holds table.regions j region) :
    (table.completeRegionRemovals plan).removeRegions[j]? = some true ↔
      plan.removeRegions[j]? = some true ∨ region.released = true ∧
        ∀ k loan, Holds table.loans k loan → loan.buffer = region.id →
          plan.removeLoans[k]? = some true := by
  unfold completeRegionRemovals
  rw [marked_markWhere]
  refine or_congr_right ⟨?_, ?_⟩
  · rintro ⟨other, hother, hcond⟩
    obtain rfl := hother.unique hregion
    obtain ⟨hreleased, hnone⟩ := and_eq_true_iff.mp hcond
    refine ⟨hreleased, fun k loan hloan hbuffer => ?_⟩
    by_contra hmark
    have hany : anyUnmarked plan.removeLoans table.loans (fun loan => loan.buffer == other.id) =
        true := anyUnmarked_iff.mpr ⟨k, loan, hmark, hloan, by simpa using hbuffer⟩
    simp [hany] at hnone
  · rintro ⟨hreleased, hall⟩
    refine ⟨region, hregion, and_eq_true_iff.mpr ⟨hreleased, ?_⟩⟩
    rw [not_eq_true', ← not_eq_true]
    intro hany
    obtain ⟨k, loan, hmark, hloan, hbuffer⟩ := anyUnmarked_iff.mp hany
    exact hmark (hall k loan hloan (by simpa using hbuffer))

theorem marked_complete_mapping {i : Nat} (hmapping : Holds table.mappings i mapping) :
    (table.completeRegionRemovals plan).removeMappings[i]? = some true ↔
      plan.removeMappings[i]? = some true ∨ ∃ j region, Holds table.regions j region ∧
        region.id = mapping.buffer ∧
        (table.completeRegionRemovals plan).removeRegions[j]? = some true := by
  unfold completeRegionRemovals
  rw [marked_markWhere]
  refine or_congr_right ⟨?_, ?_⟩
  · rintro ⟨other, hother, hany⟩
    obtain rfl := hother.unique hmapping
    obtain ⟨j, region, hmark, hregion, hbuffer⟩ := anyMarked_iff.mp hany
    exact ⟨j, region, hregion, (by simpa using hbuffer : other.buffer = region.id).symm, hmark⟩
  · rintro ⟨j, region, hregion, hbuffer, hmark⟩
    exact ⟨mapping, hmapping, anyMarked_iff.mpr ⟨j, region, hmark, hregion, by simp [hbuffer]⟩⟩

theorem completeRegionRemovals_closed (hoccupied : Occupied plan table)
    (hmappingLoan : ∀ i mapping, Holds table.mappings i mapping →
      plan.removeMappings[i]? ≠ some true → ∀ k loan, Holds table.loans k loan →
      mapping.loan = some loan.id → plan.removeLoans[k]? ≠ some true)
    (hloanRegion : ∀ k loan, Holds table.loans k loan → plan.removeLoans[k]? ≠ some true →
      ∀ j region, Holds table.regions j region → region.id = loan.buffer →
      plan.removeRegions[j]? ≠ some true) :
    Closed (table.completeRegionRemovals plan) table := by
  refine ⟨⟨?_, hoccupied.loans, ?_⟩, ?_, ?_, ?_, ?_⟩
  · exact fun i => held_of_markWhere (hoccupied.mappings i)
  · exact fun j => held_of_markWhere (hoccupied.regions j)
  · exact fun i mapping hheld hunmarked j region hregion hbuffer hmark =>
      hunmarked ((marked_complete_mapping hheld).mpr (.inr ⟨j, region, hregion, hbuffer, hmark⟩))
  · exact fun i mapping hheld hunmarked => hmappingLoan i mapping hheld fun hmark =>
      hunmarked ((marked_complete_mapping hheld).mpr (.inl hmark))
  · intro k loan hloan hunmarked j region hheld hbuffer hmark
    rcases (marked_complete_region hheld).mp hmark with hmark | ⟨-, hall⟩
    · exact hloanRegion k loan hloan hunmarked j region hheld hbuffer hmark
    · exact hunmarked (hall k loan hloan hbuffer.symm)
  intro j region hheld hunmarked hreleased
  by_contra hnone
  refine hunmarked ((marked_complete_region hheld).mpr
    (.inr ⟨hreleased, fun k loan hloan hbuffer => ?_⟩))
  by_contra hmark
  exact hnone ⟨k, loan, hloan, hbuffer, hmark⟩

theorem planSettleLoans_closed (predicate : Loan → Bool) :
    Closed (table.planSettleLoans predicate) table := by
  refine completeRegionRemovals_closed ⟨?_, ?_, ?_⟩ ?_ ?_
  · exact fun i => held_of_markWhere held_of_replicate
  · exact fun k => held_of_markWhere held_of_replicate
  · exact fun j => held_of_replicate
  · intro i mapping hmapping hunmarked k loan hloan hmade hmark
    refine hunmarked (marked_markWhere.mpr (.inr ⟨mapping, hmapping, ?_⟩))
    rw [hmade]
    exact anyMarked_iff.mpr ⟨k, loan, hmark, hloan, by simp⟩
  · exact fun k loan hloan hunmarked j region hregion hbuffer => not_marked_replicate

theorem marked_settle_loan {predicate : Loan → Bool} {k : Nat} (hloan : Holds table.loans k loan) :
    (table.planSettleLoans predicate).removeLoans[k]? = some true ↔ predicate loan = true := by
  unfold planSettleLoans completeRegionRemovals
  rw [marked_markWhere]
  constructor
  · rintro (hmark | ⟨other, hother, hcond⟩)
    · exact absurd hmark not_marked_replicate
    · rw [← hother.unique hloan]
      exact hcond
  · exact fun hcond => .inr ⟨loan, hloan, hcond⟩

theorem marked_reclaim_loan {k : Nat} (hloan : Holds table.loans k loan) :
    (table.planReclaim holder).removeLoans[k]? = some true ↔
      loan.lender = holder ∨ loan.receiver = holder := by
  apply (marked_settle_loan hloan).trans
  simp

theorem planReclaim_closed (h : Sound table) (holder : HolderId) :
    Closed (table.planReclaim holder) table := by
  have hsettle := @planSettleLoans_closed table
    fun loan => loan.lender == holder || loan.receiver == holder
  refine completeRegionRemovals_closed ⟨?_, hsettle.loans, ?_⟩ ?_ ?_
  · exact fun i => held_of_markWhere (hsettle.mappings i)
  · exact fun j => held_of_markWhere (hsettle.regions j)
  · exact fun i mapping hmapping hunmarked => hsettle.mappingLoan i mapping hmapping
      fun hmark => hunmarked (marked_markWhere.mpr (.inl hmark))
  intro k loan hloan hunmarked j region hregion hbuffer hmark
  rcases marked_markWhere.mp hmark with hmark | ⟨other, hother, howner⟩
  · exact hsettle.loanRegion k loan hloan hunmarked j region hregion hbuffer hmark
  -- The region's owner lent it, so the loan goes too.
  rw [hother.unique hregion] at howner
  obtain ⟨j', owned, howned, hid, hlender⟩ := h.loanRegion k loan hloan
  rw [h.regionIds.entry_eq howned hregion (hid.trans hbuffer.symm)] at hlender
  refine hunmarked ((marked_reclaim_loan hloan).mpr (.inl ?_))
  exact hlender.symm.trans (by simpa using howner)

theorem marked_reclaim_region {j : Nat} (hregion : Holds table.regions j region) :
    (table.planReclaim holder).removeRegions[j]? = some true ↔
      region.owner = holder ∨ region.released = true ∧
        ∀ k loan, Holds table.loans k loan → loan.buffer = region.id →
          loan.lender = holder ∨ loan.receiver = holder := by
  have hloans : (∀ k loan, Holds table.loans k loan → loan.buffer = region.id →
      (table.planReclaim holder).removeLoans[k]? = some true) ↔
      ∀ k loan, Holds table.loans k loan → loan.buffer = region.id →
        loan.lender = holder ∨ loan.receiver = holder :=
    forall₃_congr fun k loan hloan => imp_congr_right fun _ => marked_reclaim_loan hloan
  apply (marked_complete_region hregion).trans
  rw [← hloans]
  constructor
  · rintro (hmark | hsettled)
    · rcases marked_markWhere.mp hmark with hmark | ⟨other, hother, howner⟩
      · rcases (marked_complete_region hregion).mp hmark with hmark | hsettled
        · exact absurd hmark not_marked_replicate
        · exact .inr hsettled
      · rw [← hother.unique hregion]
        exact .inl (by simpa using howner)
    · exact .inr hsettled
  · rintro (howner | hsettled)
    · exact .inl (marked_markWhere.mpr (.inr ⟨region, hregion, by simpa using howner⟩))
    · exact .inr hsettled

theorem marked_reclaim_mapping {i : Nat} (hmapping : Holds table.mappings i mapping)
    (hmark : (table.planReclaim holder).removeMappings[i]? = some true) :
    mapping.holder = holder ∨
      (∃ j region, Holds table.regions j region ∧ region.id = mapping.buffer ∧
        (table.planReclaim holder).removeRegions[j]? = some true) ∨
      ∃ k loan, Holds table.loans k loan ∧ mapping.loan = some loan.id ∧
        (table.planReclaim holder).removeLoans[k]? = some true := by
  rcases (marked_complete_mapping hmapping).mp hmark with hmark | hregion
  · rcases marked_markWhere.mp hmark with hmark | ⟨other, hother, hholder⟩
    · rcases (marked_complete_mapping hmapping).mp hmark with hmark |
        ⟨j, region, hregion, hid, hmark⟩
      · rcases marked_markWhere.mp hmark with hmark | ⟨other, hother, hloan⟩
        · exact absurd hmark not_marked_replicate
        rw [hother.unique hmapping] at hloan
        obtain ⟨id, hid, hany⟩ := (any_eq_true _ _).mp hloan
        obtain ⟨k, loan, hmark, hloan, hsame⟩ := anyMarked_iff.mp hany
        refine .inr (.inr ⟨k, loan, hloan, ?_, hmark⟩)
        rw [hid, show loan.id = id by simpa using hsame]
      · refine .inr (.inl ⟨j, region, hregion, hid, (marked_complete_region hregion).mpr (.inl ?_)⟩)
        exact marked_markWhere.mpr (.inl hmark)
    · rw [← hother.unique hmapping]
      exact .inl (by simpa using hholder)
  · exact .inr (.inl hregion)

theorem hasRegionLoans_iff {id : BufferId} :
    table.hasRegionLoans id = true ↔ ∃ k loan, Holds table.loans k loan ∧ loan.buffer = id := by
  unfold hasRegionLoans
  rw [List.any_eq_true]
  constructor
  · rintro ⟨loan, hloan, hbuffer⟩
    obtain ⟨k, hk⟩ := mem_entries.mp hloan
    exact ⟨k, loan, hk, by simpa using hbuffer⟩
  · rintro ⟨k, loan, hloan, hbuffer⟩
    exact ⟨loan, mem_entries.mpr ⟨k, hloan⟩, by simpa using hbuffer⟩

/-- A plan that takes mappings only is closed. -/
theorem closed_of_mappings (h : Sound table) {marks : Vector Bool maxMappings}
    (hheld : ∀ i, marks[i]? = some true → ∃ mapping, Holds table.mappings i mapping) :
    Closed { TeardownPlan.new with removeMappings := marks } table := by
  refine ⟨⟨hheld, fun k => held_of_replicate, fun j => held_of_replicate⟩, ?_, ?_, ?_, ?_⟩
  · exact fun i mapping hmapping hunmarked j other hother hbuffer => not_marked_replicate
  · exact fun i mapping hmapping hunmarked k loan hloan hmade => not_marked_replicate
  · exact fun k loan hloan hunmarked j other hother hbuffer => not_marked_replicate
  · intro j other hother hunmarked hreleased
    obtain ⟨k, loan, hloan, hbuffer⟩ := h.released j other hother hreleased
    exact ⟨k, loan, hloan, hbuffer, not_marked_replicate⟩

theorem planRelease_closed (h : Sound table) {slot : Nat}
    (hregion : Holds table.regions slot region) (hloans : table.hasRegionLoans region.id = false) :
    Closed (table.planRelease region slot false) table := by
  have hnone : ∀ k loan, Holds table.loans k loan → loan.buffer ≠ region.id := by
    intro k loan hloan hbuffer
    have hsome := hasRegionLoans_iff.mpr ⟨k, loan, hloan, hbuffer⟩
    exact absurd (hsome.symm.trans hloans) nofun
  have hmarked : ∀ {j}, (table.planRelease region slot false).removeRegions[j]? = some true →
      slot = j := fun hmark => (marked_mark.mp hmark).1
  refine ⟨⟨?_, fun k => held_of_replicate, ?_⟩, ?_, ?_, ?_, ?_⟩
  · exact fun i => held_of_markWhere held_of_replicate
  · intro j hmark
    obtain rfl := hmarked hmark
    exact ⟨region, hregion⟩
  · intro i mapping hmapping hunmarked j other hother hbuffer hmark
    obtain rfl := hmarked hmark
    rw [hother.unique hregion] at hbuffer
    refine hunmarked (marked_markWhere.mpr (.inr ⟨mapping, hmapping, ?_⟩))
    simp [hbuffer]
  · exact fun i mapping hmapping hunmarked k loan hloan hmade => not_marked_replicate
  · intro k loan hloan hunmarked j other hother hbuffer hmark
    obtain rfl := hmarked hmark
    rw [hother.unique hregion] at hbuffer
    exact hnone k loan hloan hbuffer.symm
  · intro j other hother hunmarked hreleased
    obtain ⟨k, loan, hloan, hbuffer⟩ := h.released j other hother hreleased
    exact ⟨k, loan, hloan, hbuffer, not_marked_replicate⟩

theorem planAll_closed : Closed table.planAll table := by
  have hall : ∀ {α : Type} {n : Nat} {marks : Vector Bool n} {slots : Slots α n} {i : Nat} {a : α},
      Holds slots i a → (markWhere marks slots fun _ => true)[i]? = some true :=
    fun ha => marked_markWhere.mpr (.inr ⟨_, ha, rfl⟩)
  exact
    { mappings := fun i => held_of_markWhere held_of_replicate
      loans := fun k => held_of_markWhere held_of_replicate
      regions := fun j => held_of_markWhere held_of_replicate
      mappingRegion := fun i mapping hmapping hunmarked => absurd (hall hmapping) hunmarked
      mappingLoan := fun i mapping hmapping hunmarked => absurd (hall hmapping) hunmarked
      loanRegion := fun k loan hloan hunmarked => absurd (hall hloan) hunmarked
      released := fun j region hregion hunmarked => absurd (hall hregion) hunmarked }

end Plans

section Operations

variable {answers : Nat → Option AdapterError} {world : World}
  {table : SharedBufferTable} {plan : TeardownPlan}

theorem Carried.effect {α : Type}
    {outcome : Outcome SharedBufferError α} (h : Carried answers plan table outcome world) :
    Effect none table outcome world := by
  obtain ⟨htidy, hleads⟩ := h
  refine ⟨htidy, ?_⟩
  cases outcome with
  | error fault => exact hleads.2
  | ok answer => exact Change.reclaimed plan _ hleads

section

variable (h : Safe world)
include h

theorem settle_effect (hclosed : Closed plan world.table) :
    Ensures (settle answers plan) world (Effect none world.table) :=
  ensures_weaken (settle_ensures h hclosed) fun _ _ hcarried => hcarried.effect

theorem unmapAuthorized_ensures (holder : HolderId) (handle : BufferHandle)
    (vspace : VSpaceCap) (base : Nat) (throughLoan : Bool) :
    Ensures (unmapAuthorized answers holder handle vspace base throughLoan) world
      (Effect none world.table) := by
  have hchecked : Checked (world.table.authorizeUnmap holder handle throughLoan) := by
    unfold authorizeUnmap
    split
    · exact checked_pure ()
    · exact checked_bind checked_authorize fun _ _ => checked_pure ()
  refine ensures_read (ensures_checked hchecked (fun _ _ => ?_) fun error => h.refused)
  refine ensures_okOr trivial (fun slot hslot => ?_) fun error => h.refused
  obtain ⟨mapping, hmapping, -⟩ := findSlot_eq_some hslot
  obtain ⟨j, region, hregion, hbuffer, hrange⟩ := h.sound.mappingRegion slot mapping hmapping
  have hroom : ([] : List AdapterAction).length + mapping.pageCount ≤ maxTeardownActions := by
    have hlen : region.anchors.len ≤ maxBufferPages := region.anchors.length_le
    have hmax : maxBufferPages ≤ maxTeardownActions := by decide
    rw [List.length_nil]
    omega
  obtain ⟨added, happend, hadded⟩ :=
    appendMappingActions_ok h.sound hmapping hregion hbuffer [] hroom
  rw [happend]
  refine ensures_bind_ok rfl (discard_effect ?_)
  have hbatch : Batch world.table
      { TeardownPlan.new with removeMappings := mark TeardownPlan.new.removeMappings slot }
      added [] := by
    refine ⟨hadded.harmless, ?_, fun action haction => absurd haction List.not_mem_nil,
      fun j region hmark => absurd hmark not_marked_replicate⟩
    intro i other hmark hother j' region' hregion' hbuffer' page held hpage hheld
    obtain ⟨rfl, -⟩ := marked_mark.mp hmark
    obtain rfl := hother.unique hmapping
    rw [← h.sound.regionIds.entry_eq hregion hregion' (hbuffer.trans hbuffer'.symm)] at hheld
    exact hadded.pages page held hpage hheld
  have hclosed := closed_of_mappings h.sound fun i hmark => by
    obtain ⟨rfl, -⟩ := marked_mark.mp hmark
    exact ⟨mapping, hmapping⟩
  have hcarried := @executeTeardown_ensures answers world _ added [] h hclosed hbatch
  rw [List.append_nil] at hcarried
  exact ensures_weaken hcarried fun _ _ hdone => hdone.effect

theorem unmapLoan_ensures (receiver : HolderId) (handle : LoanHandle)
    (vspace : VSpaceCap) (base : Nat) :
    Ensures (unmapLoan answers receiver handle vspace base) world (Effect none world.table) := by
  refine ensures_read (ensures_checked checked_authorizeLoan (fun loan _ => ?_)
    fun error => h.refused)
  exact unmapAuthorized_ensures h _ _ _ _ _

theorem returnLoan_ensures (receiver : HolderId) (handle : LoanHandle) :
    Ensures (returnLoan answers receiver handle) world (Effect none world.table) := by
  refine ensures_read (ensures_checked checked_authorizeLoan (fun loan _ => ?_)
    fun error => h.refused)
  exact discard_effect (settle_effect h (planSettleLoans_closed _))

theorem revokeLoan_ensures (lender : HolderId) (handle : LoanHandle) :
    Ensures (revokeLoan answers lender handle) world (Effect none world.table) := by
  refine ensures_read (ensures_checked (checked_rejectIf trivial) (fun _ _ => ?_)
    fun error => h.refused)
  refine ensures_checked checked_liveLoan (fun loan _ => ?_) fun error => h.refused
  refine ensures_rejectIf trivial (fun _ => ?_) fun error => h.refused
  refine ensures_rejectIf trivial (fun _ => ?_) fun error => h.refused
  exact discard_effect (settle_effect h (planSettleLoans_closed _))

theorem release_ensures (owner : HolderId) (handle : BufferHandle) :
    Ensures (release answers owner handle) world (Effect none world.table) := by
  refine ensures_read (ensures_checked checked_authorize (fun region hregion => ?_)
    fun error => h.refused)
  refine ensures_checked (checked_okOr trivial) (fun slot hslot => ?_) fun error => h.refused
  obtain ⟨i, hregion, hid, -⟩ := authorize_ok hregion
  obtain ⟨found, hfound, hfoundId⟩ := liveRegionSlot_ok hslot
  obtain rfl := h.sound.regionIds _ _ _ _ hfound hregion (hfoundId.trans hid.symm)
  cases hloans : world.table.hasRegionLoans region.id with
  | false =>
    refine ensures_bind (settle_effect h (planRelease_closed h.sound hregion hloans)) ?_
      fun _ _ hfault => hfault
    exact fun _ _ heffect => heffect
  | true =>
    refine ensures_bind (settle_ensures h (closed_of_mappings h.sound fun _ =>
      held_of_markWhere held_of_replicate)) ?_
      fun _ _ hfault => ⟨hfault.1, hfault.2.2⟩
    rintro _ ⟨table', adapter⟩ ⟨htidy, hreclaimed⟩
    have hplan := hreclaimed
    obtain ⟨-, orphans, -, -, charges, totalPages, rfl⟩ := hplan
    obtain ⟨k, loan, hloan, hbuffer⟩ := hasRegionLoans_iff.mp hloans
    have hkept := holds_cleared.mpr ⟨hregion, not_marked_replicate⟩
    have hlent := holds_cleared.mpr ⟨hloan, not_marked_replicate⟩
    refine ensures_read (ensures_present hkept.join ⟨htidy.weaken ?_, ?_⟩)
    · refine fun held hheld => hheld.mono (fun i mapping hmapping => ⟨mapping.rights, hmapping⟩) ?_
        fun _ _ horphan => horphan
      exact exists_holds_put hkept ⟨rfl, rfl⟩ fun _ => ⟨rfl, rfl⟩
    · exact Change.released _ _ slot k region loan hreclaimed hkept hlent hbuffer

theorem advanceEpoch_ensures (next : GenerationEpoch) :
    Ensures (advanceEpoch answers next) world (Effect none world.table) := by
  refine ensures_read (ensures_rejectIf trivial (fun _ => ?_) fun error => h.refused)
  refine ensures_bind (settle_ensures h planAll_closed) ?_
    fun _ _ hfault => ⟨hfault.1, hfault.2.2⟩
  rintro actions ⟨table', adapter⟩ ⟨htidy, hreclaimed⟩
  refine ⟨htidy.weaken fun held hheld => hheld.mono (fun i mapping hmapping =>
    ⟨mapping.rights, hmapping⟩) (fun j region hregion => ⟨region, hregion, rfl, rfl⟩)
    fun _ _ horphan => horphan, ?_⟩
  refine Change.retired _ _ next hreclaimed fun i region hregion => ?_
  obtain ⟨-, orphans, -, -, charges, totalPages, rfl⟩ := hreclaimed
  obtain ⟨hregion, hunmarked⟩ := holds_cleared.mp hregion
  exact hunmarked (marked_markWhere.mpr (.inr ⟨region, hregion, rfl⟩))

end

structure Retried (table : SharedBufferTable) (world : World) : Prop where
  table_eq : ∃ orphans, world.table = { table with orphans := orphans }
  sub : ∀ i orphan, Holds world.table.orphans i orphan → Holds table.orphans i orphan
  tidy : Tidy (Covers world.table) world.adapter

theorem retryOrphan_ensures (h : Retried table world) (wanted : VSpaceCap → Bool) (slot : Nat) :
    Ensures (retryOrphan answers wanted () slot) world
      (Call.Leads (fun _ _ => False) fun _ => Retried table) := by
  apply ensures_read
  split
  · exact h
  rename_i orphan horphan
  have horphan := holds_of_join horphan
  split
  · apply ensures_bind (unmap_ensures h.tidy _ _ _)
    · rintro answer ⟨-, adapter⟩ ⟨rfl, ⟨error, -, hanswer, htidy⟩ | ⟨hanswer, htidy⟩⟩
      · obtain rfl := Except.ok.inj hanswer
        exact ⟨h.table_eq, h.sub, htidy⟩
      obtain rfl := Except.ok.inj hanswer
      obtain ⟨orphans, heq⟩ := h.table_eq
      refine ⟨⟨world.table.orphans.setIfInBounds slot none, ?_⟩, ?_, htidy.weaken ?_⟩
      · change { world.table with orphans := world.table.orphans.setIfInBounds slot none } = _
        rw [heq]
      · exact fun i other hother => h.sub i other (holds_set_none.mp hother).2
      · rintro held ⟨hcovers, hspared⟩
        exact hcovers.without horphan hspared
    · rintro fault - ⟨-, ⟨error, -, hfault, -⟩ | ⟨hfault, -⟩⟩
      · exact absurd hfault nofun
      · exact absurd hfault nofun
  · exact h

theorem retries_ensures (h : Safe world) (wanted : VSpaceCap → Bool) :
    Ensures ((List.range maxOrphans).foldlM (retryOrphan answers wanted) ()) world
      (Call.Leads (fun _ _ => False) fun _ => Retried world.table) :=
  ensures_fold (fun _ _ => False) (fun _ _ => Retried world.table) (List.range maxOrphans)
    ⟨⟨world.table.orphans, rfl⟩, fun _ _ horphan => horphan, h.tidy⟩
    fun _ slot _ _ _ hretried => retryOrphan_ensures hretried wanted slot

theorem Retried.effect {α : Type} (h : Retried table world)
    (hretained : Retained table) (answer : α) :
    Effect none table (.ok answer : Outcome SharedBufferError α) world := by
  obtain ⟨⟨orphans, heq⟩, hsub, htidy⟩ := h
  refine ⟨htidy, ?_⟩
  rw [heq] at hsub ⊢
  exact Change.orphans orphans (hretained.sub hsub)

theorem retryOrphans_ensures (h : Safe world) :
    Ensures (retryOrphans answers) world (Effect none world.table) := by
  refine ensures_bind (retries_ensures h _) ?_ fun _ _ hfault => hfault.elim
  exact fun _ _ hretried => hretried.effect h.sound.retained _

theorem retryVspaceOrphans_ensures (h : Safe world) (vspace : VSpaceCap) :
    Ensures (retryVspaceOrphans answers vspace) world (Effect none world.table) := by
  refine ensures_bind (retries_ensures h _) ?_ fun _ _ hfault => hfault.elim
  exact fun _ _ hretried => hretried.effect h.sound.retained _

theorem reclaimHolder_ensures (h : Safe world) (holder : HolderId) :
    Ensures (reclaimHolder answers holder) world
      (Carried answers (world.table.planReclaim holder) world.table) := by
  exact ensures_read (settle_ensures h (planReclaim_closed h.sound holder))

def Operation.sealing : Operation → Option BufferId
  | .sealBuffer _ handle => some handle.id
  | _ => none

/-- Every operation fails without a trace or makes a change that keeps the invariant and the pages
covered. -/
theorem invoke_ensures (h : Safe world) (operation : Operation) :
    Ensures (operation.invoke answers) world (Effect operation.sealing world.table) := by
  cases operation with
  | declareQuota holder quota => exact onTable_effect h (declareQuota_ensures holder quota)
  | releaseQuota holder => exact discard_effect (onTable_effect h (releaseQuota_ensures holder))
  | create owner anchors writable =>
    exact discard_effect (onTable_effect h (create_ensures h.sound owner anchors writable))
  | commitCreate plan => exact discard_effect (onTable_effect h (commitCreate_ensures h.sound plan))
  | map holder handle vspace base offset length rights =>
    exact map_ensures h holder handle vspace base offset length rights
  | mapLoan receiver handle vspace base relativeOffset length =>
    exact mapLoan_ensures h receiver handle vspace base relativeOffset length
  | unmap holder handle vspace base =>
    exact unmapAuthorized_ensures h holder handle vspace base false
  | unmapLoan receiver handle vspace base => exact unmapLoan_ensures h receiver handle vspace base
  | sealBuffer owner handle => exact sealBuffer_ensures h owner handle
  | loan lender receiver handle offset length writable =>
    exact discard_effect
      (onTable_effect h (loan_ensures h.sound lender receiver handle offset length writable))
  | returnLoan receiver handle => exact returnLoan_ensures h receiver handle
  | revokeLoan lender handle => exact revokeLoan_ensures h lender handle
  | release owner handle => exact release_ensures h owner handle
  | reclaimHolder holder =>
    exact discard_effect (ensures_weaken (reclaimHolder_ensures h holder)
      fun _ _ hcarried => hcarried.effect)
  | advanceEpoch next => exact discard_effect (advanceEpoch_ensures h next)
  | retryOrphans => exact discard_effect (retryOrphans_ensures h)
  | retryVspaceOrphans vspace => exact discard_effect (retryVspaceOrphans_ensures h vspace)

theorem safe_start (epoch : GenerationEpoch) : Safe (World.start epoch) :=
  ⟨sound_new epoch, fun _ hheld => absurd hheld List.not_mem_nil,
    fun _ _ hattempt => absurd hattempt List.not_mem_nil⟩

theorem safe_run (answers : Nat → Option AdapterError) (epoch : GenerationEpoch)
    (operations : List Operation) : Safe (run (step answers) (World.start epoch) operations) :=
  run_invariant (step answers) Safe (fun _ operation h => h.effect (invoke_ensures h operation))
    _ operations (safe_start epoch)

end Operations

end SlimeOs.SharedBuffers
