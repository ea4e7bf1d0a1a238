import SlimeOs.SharedBufferCharges

/-!
The invariant of the shared-buffer table and the changes that keep it.

Every reference leads somewhere: a mapping names a live region, and the loan it was
made through; a loan names a live region of its lender; a released region is kept
by a loan. The pages of the mappings and the orphans share one budget.
-/

namespace SlimeOs.SharedBuffers

open CheckedWord FallibleCall Option SlotTable MappingRecord SharedBufferTable

/-- Orphans fit the budget beside the mappings, and their frames belong to live regions. -/
structure Retained (table : SharedBufferTable) : Prop where
  budget : table.orphanCount + total MappingRecord.pageCount table.mappings ≤ maxMappingPages
  anchored : ∀ i orphan, Holds table.orphans i orphan →
    ∃ j region, Holds table.regions j region ∧ orphan.frame ∈ region.anchors.caps

structure Sound (table : SharedBufferTable) : Prop where
  balanced : Balanced table
  pages_le : table.totalPages ≤ maxTotalPages
  regionIds : Distinct Region.id table.regions
  regionBelow : ∀ i region, Holds table.regions i region →
    region.id.toNat < table.nextBufferId.toNat
  regionEpoch : ∀ i region, Holds table.regions i region → region.epoch = table.epoch
  anchors : ∀ i j first second cap, Holds table.regions i first → Holds table.regions j second →
    cap ∈ first.anchors.caps → cap ∈ second.anchors.caps → i = j
  loanIds : Distinct Loan.id table.loans
  loanBelow : ∀ i loan, Holds table.loans i loan → loan.id.toNat < table.nextLoanId.toNat
  loanRegion : ∀ i loan, Holds table.loans i loan →
    ∃ j region, Holds table.regions j region ∧ region.id = loan.buffer ∧ region.owner = loan.lender
  mappingRegion : ∀ i mapping, Holds table.mappings i mapping →
    ∃ j region, Holds table.regions j region ∧ region.id = mapping.buffer ∧
      mapping.offsetPages + mapping.pageCount ≤ region.anchors.len
  /-- The addresses of a mapping do not overflow. -/
  mappingRange : ∀ i mapping, Holds table.mappings i mapping →
    mapping.base + mapping.pageCount * pageSize ≤ userAddressCeiling
  mappingLoan : ∀ i mapping id, Holds table.mappings i mapping → mapping.loan = some id →
    ∃ k loan, Holds table.loans k loan ∧ loan.id = id ∧ loan.buffer = mapping.buffer ∧
      loan.receiver = mapping.holder
  released : ∀ i region, Holds table.regions i region → region.released = true →
    ∃ k loan, Holds table.loans k loan ∧ loan.buffer = region.id
  retained : Retained table

/-- One page of a mapping, as the adapter sees it. -/
structure IsPage (anchors : FrameAnchors) (mapping : MappingRecord) (page : Nat) (held : Orphan) :
    Prop where
  frame : anchors.get (mapping.offsetPages + page) = some held.frame
  vspace : held.vspace = mapping.vspace
  vaddr : held.vaddr = mapping.base + page * pageSize

/-- The table accounts for a page the adapter has mapped. -/
inductive Covers (table : SharedBufferTable) (held : Orphan) : Prop where
  | mapping (i j : Nat) (mapping : MappingRecord) (region : Region) (page : Nat)
      (hmapping : Holds table.mappings i mapping) (hregion : Holds table.regions j region)
      (hbuffer : region.id = mapping.buffer) (hpage : page < mapping.pageCount)
      (hheld : IsPage region.anchors mapping page held)
  | orphan (i : Nat) (horphan : Holds table.orphans i held)

theorem Covers.mono {table table' : SharedBufferTable} {held : Orphan} (h : Covers table held)
    (hmappings : ∀ i mapping, Holds table.mappings i mapping →
      ∃ rights, Holds table'.mappings i { mapping with rights := rights })
    (hregions : ∀ j region, Holds table.regions j region →
      ∃ region', Holds table'.regions j region' ∧ region'.id = region.id ∧
        region'.anchors = region.anchors)
    (horphans : ∀ i orphan, Holds table.orphans i orphan → Holds table'.orphans i orphan) :
    Covers table' held := by
  cases h with
  | mapping i j mapping region page hmapping hregion hbuffer hpage hheld =>
    obtain ⟨rights, hmapping'⟩ := hmappings i mapping hmapping
    obtain ⟨region', hregion', hid, hanchors⟩ := hregions j region hregion
    refine .mapping i j _ region' page hmapping' hregion' (hid.trans hbuffer) hpage ?_
    exact ⟨by rw [hanchors]; exact hheld.frame, hheld.vspace, hheld.vaddr⟩
  | orphan i horphan => exact .orphan i (horphans i held horphan)

/-- What allows a mapping: its holder's own region, or a loan it received. -/
inductive Authority (table : SharedBufferTable) (region : Region) (mapping : MappingRecord) :
    Prop where
  | own (hloan : mapping.loan = none) (howner : region.owner = mapping.holder)
      (hwrite : mapping.rights = .readWrite → region.sealed = false)
  | lent (slot : Nat) (loan : Loan) (hheld : Holds table.loans slot loan)
      (hloan : mapping.loan = some loan.id) (hbuffer : loan.buffer = mapping.buffer)
      (hreceiver : loan.receiver = mapping.holder)
      (hwrite : mapping.rights = .readWrite → loan.writable = true)

def narrow (id : BufferId) (mapping : MappingRecord) : MappingRecord :=
  if mapping.buffer = id then { mapping with rights := .readOnly } else mapping

/-- A plan leaves nothing behind that refers to what it takes. -/
structure Closed (plan : TeardownPlan) (table : SharedBufferTable) : Prop
    extends Occupied plan table where
  mappingRegion : ∀ i mapping, Holds table.mappings i mapping →
    plan.removeMappings[i]? ≠ some true → ∀ j region, Holds table.regions j region →
    region.id = mapping.buffer → plan.removeRegions[j]? ≠ some true
  mappingLoan : ∀ i mapping, Holds table.mappings i mapping →
    plan.removeMappings[i]? ≠ some true → ∀ k loan, Holds table.loans k loan →
    mapping.loan = some loan.id → plan.removeLoans[k]? ≠ some true
  loanRegion : ∀ k loan, Holds table.loans k loan → plan.removeLoans[k]? ≠ some true →
    ∀ j region, Holds table.regions j region → region.id = loan.buffer →
    plan.removeRegions[j]? ≠ some true
  released : ∀ j region, Holds table.regions j region → plan.removeRegions[j]? ≠ some true →
    region.released = true → ∃ k loan, Holds table.loans k loan ∧ loan.buffer = region.id ∧
      plan.removeLoans[k]? ≠ some true

/-- Orphans only go, and those of the regions a plan takes are gone. -/
structure Settled (plan : TeardownPlan) (table : SharedBufferTable)
    (orphans : Slots Orphan maxOrphans) : Prop where
  sub : ∀ i orphan, Holds orphans i orphan → Holds table.orphans i orphan
  gone : ∀ i orphan, Holds orphans i orphan → ∀ j region, Holds table.regions j region →
    plan.removeRegions[j]? = some true → orphan.frame ∉ region.anchors.caps

structure Reclaimed (plan : TeardownPlan) (table table' : SharedBufferTable) : Prop where
  closed : Closed plan table
  torn : ∃ orphans, Settled plan table orphans ∧
    TornDown plan { table with orphans := orphans } table'

/-- Everything a completed operation can do to the table. Only the region that is being sealed
is narrowed. -/
inductive Change (sealing : Option BufferId) (table : SharedBufferTable) :
    SharedBufferTable → Prop where
  | quotas (quotas : Slots QuotaEntry maxChargeHolders) :
      Change sealing table { table with quotas := quotas }
  | orphans (orphans : Slots Orphan maxOrphans)
      (hretained : Retained { table with orphans := orphans }) :
      Change sealing table { table with orphans := orphans }
  | created (slot : Nat) (region : Region) (nextId : BufferId)
      (charges : Slots Charge maxChargeHolders) (hfree : table.regions[slot]? = some none)
      (hid : region.id = table.nextBufferId) (hnext : checkedAdd table.nextBufferId 1 = some nextId)
      (hepoch : region.epoch = table.epoch) (hopen : region.sealed = false)
      (hlive : region.released = false)
      (hfresh : ∀ i other cap, Holds table.regions i other → cap ∈ region.anchors.caps →
        cap ∉ other.anchors.caps)
      (hpages : table.totalPages + region.anchors.len ≤ maxTotalPages)
      (hbalanced : Balanced
        { table with
          regions := table.regions.setIfInBounds slot (some region)
          charges := charges
          totalPages := table.totalPages + region.anchors.len
          nextBufferId := nextId }) :
      Change sealing table
        { table with
          regions := table.regions.setIfInBounds slot (some region)
          charges := charges
          totalPages := table.totalPages + region.anchors.len
          nextBufferId := nextId }
  | mapped (slot regionSlot : Nat) (mapping : MappingRecord) (region : Region)
      (charges : Slots Charge maxChargeHolders) (hfree : table.mappings[slot]? = some none)
      (hregion : Holds table.regions regionSlot region) (hbuffer : region.id = mapping.buffer)
      (hrange : mapping.offsetPages + mapping.pageCount ≤ region.anchors.len)
      (haddress : mapping.base + mapping.pageCount * pageSize ≤ userAddressCeiling)
      (hbudget : table.orphanCount + total MappingRecord.pageCount table.mappings +
        mapping.pageCount ≤ maxMappingPages)
      (hauthority : Authority table region mapping)
      (hbalanced : Balanced
        { table with
          mappings := table.mappings.setIfInBounds slot (some mapping)
          charges := charges }) :
      Change sealing table
        { table with
          mappings := table.mappings.setIfInBounds slot (some mapping)
          charges := charges }
  | lent (slot regionSlot : Nat) (loan : Loan) (region : Region) (nextId : LoanId)
      (charges : Slots Charge maxChargeHolders) (hfree : table.loans[slot]? = some none)
      (hid : loan.id = table.nextLoanId) (hnext : checkedAdd table.nextLoanId 1 = some nextId)
      (hregion : Holds table.regions regionSlot region) (hbuffer : region.id = loan.buffer)
      (howner : region.owner = loan.lender)
      (hwrite : loan.writable = true → region.sealed = false)
      (hbalanced : Balanced
        { table with
          loans := table.loans.setIfInBounds slot (some loan)
          charges := charges
          nextLoanId := nextId }) :
      Change sealing table
        { table with
          loans := table.loans.setIfInBounds slot (some loan)
          charges := charges
          nextLoanId := nextId }
  | narrowed (slot : Nat) (region : Region) (hregion : Holds table.regions slot region)
      (hsealing : sealing = some region.id) :
      Change sealing table
        { table with
          mappings := table.mappings.map (Option.map (narrow region.id))
          regions := table.regions.setIfInBounds slot (some { region with sealed := true }) }
  | reclaimed (plan : TeardownPlan) (table' : SharedBufferTable)
      (hreclaimed : Reclaimed plan table table') : Change sealing table table'
  | released (plan : TeardownPlan) (table' : SharedBufferTable) (slot k : Nat) (region : Region)
      (loan : Loan) (hreclaimed : Reclaimed plan table table')
      (hregion : Holds table'.regions slot region) (hloan : Holds table'.loans k loan)
      (hbuffer : loan.buffer = region.id) :
      Change sealing table
        { table' with
          regions := table'.regions.setIfInBounds slot (some { region with released := true }) }
  | retired (plan : TeardownPlan) (table' : SharedBufferTable) (next : GenerationEpoch)
      (hreclaimed : Reclaimed plan table table')
      (hempty : ∀ i region, ¬ Holds table'.regions i region) :
      Change sealing table { table' with epoch := next }

section Sound

variable {table table' : SharedBufferTable} {region : Region}

theorem sound_new (epoch : GenerationEpoch) : Sound (new epoch) := by
  have hempty : ∀ holder, (new epoch).owed holder = HolderOccupancy.empty := by
    intro holder
    unfold owed new
    simp only [total_empty]
    rfl
  have hcount : (new epoch).orphanCount = 0 := by
    refine List.length_eq_zero_iff.mpr (List.eq_nil_iff_forall_not_mem.mpr fun orphan h => ?_)
    obtain ⟨i, hi⟩ := mem_entries.mp h
    exact not_holds_empty hi
  have hpages : total pageCount (new epoch).mappings = 0 :=
    total_empty _
  exact
    { balanced :=
        ⟨⟨distinct_empty, forall_holds_empty, forall_holds_empty,
          fun holder howed => absurd (hempty holder) howed⟩, (total_empty _).symm⟩
      pages_le := Nat.zero_le _
      regionIds := distinct_empty
      regionBelow := forall_holds_empty
      regionEpoch := forall_holds_empty
      anchors := fun _ _ _ _ _ ha => absurd ha not_holds_empty
      loanIds := distinct_empty
      loanBelow := forall_holds_empty
      loanRegion := forall_holds_empty
      mappingRegion := forall_holds_empty
      mappingRange := forall_holds_empty
      mappingLoan := fun _ _ _ ha => absurd ha not_holds_empty
      released := forall_holds_empty
      retained := ⟨by rw [hcount, hpages]; exact Nat.zero_le _, forall_holds_empty⟩ }

section

variable (h : Sound table)
include h

theorem Sound.liveRegionAny {i : Nat}
    (hregion : Holds table.regions i region) : table.liveRegionAny region.id = .ok region := by
  unfold SharedBufferTable.liveRegionAny
  rw [h.regionIds.find hregion]
  · rfl
  · intro other hother
    exact (by simpa using hother : _ ∧ _).1
  · simp [h.regionEpoch i region hregion]

theorem Sound.created {slot : Nat} {nextId : BufferId}
    {charges : Slots Charge maxChargeHolders} (hfree : table.regions[slot]? = some none)
    (hid : region.id = table.nextBufferId) (hnext : checkedAdd table.nextBufferId 1 = some nextId)
    (hepoch : region.epoch = table.epoch) (hlive : region.released = false)
    (hfresh : ∀ i other cap, Holds table.regions i other → cap ∈ region.anchors.caps →
      cap ∉ other.anchors.caps)
    (hpages : table.totalPages + region.anchors.len ≤ maxTotalPages)
    (htable : table' = { table with
      regions := table.regions.setIfInBounds slot (some region)
      charges := charges
      totalPages := table.totalPages + region.anchors.len
      nextBufferId := nextId }) (hbalanced : Balanced table') : Sound table' := by
  subst htable
  have hsucc :=
    checkedAdd_eq_some_iff.mp hnext
  have hkept : ∀ j other, Holds table.regions j other →
      Holds (table.regions.setIfInBounds slot (some region)) j other :=
    fun j other hother => holds_put hfree hother
  exact
    { balanced := hbalanced
      pages_le := hpages
      regionIds := h.regionIds.put fun j other hother heq => by
        have hlt := h.regionBelow j other hother
        rw [heq, hid] at hlt
        exact absurd hlt (lt_irrefl _)
      regionBelow := by
        rw [hsucc]
        exact forall_holds_put (hid ▸ Nat.lt_succ_self _) fun j other hother =>
          Nat.lt_succ_of_lt (h.regionBelow j other hother)
      regionEpoch := forall_holds_put hepoch h.regionEpoch
      anchors := fun i j first second cap hfirst hsecond hcap hcap' => by
        rcases holds_set.mp hfirst with ⟨rfl, -, hf⟩ | ⟨-, hfirst⟩ <;>
          rcases holds_set.mp hsecond with ⟨rfl, -, hs⟩ | ⟨-, hsecond⟩
        · rfl
        · exact absurd hcap' (hfresh j second cap hsecond (some.inj hf ▸ hcap))
        · exact absurd hcap (hfresh i first cap hfirst (some.inj hs ▸ hcap'))
        · exact h.anchors i j first second cap hfirst hsecond hcap hcap'
      loanIds := h.loanIds
      loanBelow := h.loanBelow
      loanRegion := fun i loan hloan =>
        let ⟨j, other, hother, hsame⟩ := h.loanRegion i loan hloan
        ⟨j, other, hkept j other hother, hsame⟩
      mappingRegion := fun i mapping hmapping =>
        let ⟨j, other, hother, hsame⟩ := h.mappingRegion i mapping hmapping
        ⟨j, other, hkept j other hother, hsame⟩
      mappingRange := h.mappingRange
      mappingLoan := h.mappingLoan
      released := forall_holds_put (by rw [hlive]; nofun) h.released
      retained := ⟨h.retained.budget, fun i orphan horphan =>
        let ⟨j, other, hother, hframe⟩ := h.retained.anchored i orphan horphan
        ⟨j, other, hkept j other hother, hframe⟩⟩ }

theorem Sound.rewritten {slot : Nat} (region' : Region)
    (hregion : Holds table.regions slot region) (hid : region'.id = region.id)
    (hepoch : region'.epoch = region.epoch) (howner : region'.owner = region.owner)
    (hanchors : region'.anchors = region.anchors)
    (hreleased : region'.released = true → ∃ k loan, Holds table.loans k loan ∧
      loan.buffer = region.id) :
    Sound { table with regions := table.regions.setIfInBounds slot (some region') } := by
  -- Seen from the rest of the table nothing has changed.
  have hsame : ∀ i other, Holds (table.regions.setIfInBounds slot (some region')) i other →
      ∃ before, Holds table.regions i before ∧ other.id = before.id ∧
        other.epoch = before.epoch ∧ other.anchors = before.anchors :=
    forall_holds_put ⟨region, hregion, hid, hepoch, hanchors⟩ fun i other hother =>
      ⟨other, hother, rfl, rfl, rfl⟩
  have hkept : ∀ i before, Holds table.regions i before →
      ∃ other, Holds (table.regions.setIfInBounds slot (some region')) i other ∧
        other.id = before.id ∧ other.owner = before.owner ∧ other.anchors = before.anchors :=
    exists_holds_put hregion ⟨hid, howner, hanchors⟩ fun _ => ⟨rfl, rfl, rfl⟩
  have howed : ({ table with regions := table.regions.setIfInBounds slot (some region') } :
      SharedBufferTable).owed = table.owed := by
    funext holder
    unfold owed
    rw [total_replace _ hregion (by unfold pagesOwned; rw [howner, hanchors]),
      total_replace _ hregion (by unfold owned; rw [howner])]
  exact
    { h with
      balanced := ⟨by rw [howed]; exact h.balanced.records, by
        rw [total_replace _ hregion (by rw [hanchors])]
        exact h.balanced.pages⟩
      regionIds := h.regionIds.replace hregion hid
      regionBelow := fun i other hother => by
        obtain ⟨before, hbefore, hsameId, -⟩ := hsame i other hother
        rw [hsameId]
        exact h.regionBelow i before hbefore
      regionEpoch := fun i other hother => by
        obtain ⟨before, hbefore, -, hsameEpoch, -⟩ := hsame i other hother
        rw [hsameEpoch]
        exact h.regionEpoch i before hbefore
      anchors := fun i j first second cap hfirst hsecond hcap hcap' => by
        obtain ⟨before, hbefore, -, -, hfirst⟩ := hsame i first hfirst
        obtain ⟨before', hbefore', -, -, hsecond⟩ := hsame j second hsecond
        rw [hfirst] at hcap
        rw [hsecond] at hcap'
        exact h.anchors i j before before' cap hbefore hbefore' hcap hcap'
      loanRegion := fun k loan hloan => by
        obtain ⟨i, before, hbefore, hbuffer, hlender⟩ := h.loanRegion k loan hloan
        obtain ⟨other, hother, hsameId, hsameOwner, -⟩ := hkept i before hbefore
        exact ⟨i, other, hother, hsameId.trans hbuffer, hsameOwner.trans hlender⟩
      mappingRegion := fun k mapping hmapping => by
        obtain ⟨i, before, hbefore, hbuffer, hrange⟩ := h.mappingRegion k mapping hmapping
        obtain ⟨other, hother, hsameId, -, hsameAnchors⟩ := hkept i before hbefore
        exact ⟨i, other, hother, hsameId.trans hbuffer, by rw [hsameAnchors]; exact hrange⟩
      released := forall_holds_put (by rw [hid]; exact hreleased) h.released
      retained := ⟨h.retained.budget, fun i orphan horphan => by
        obtain ⟨j, before, hbefore, hframe⟩ := h.retained.anchored i orphan horphan
        obtain ⟨other, hother, -, -, hsameAnchors⟩ := hkept j before hbefore
        exact ⟨j, other, hother, by rw [hsameAnchors]; exact hframe⟩⟩ }

end

theorem narrow_eq (id : BufferId) (mapping : MappingRecord) :
    ∃ rights, narrow id mapping = { mapping with rights := rights } := by
  unfold narrow
  split
  · exact ⟨.readOnly, rfl⟩
  · exact ⟨mapping.rights, rfl⟩

theorem Sound.narrowed (h : Sound table) (id : BufferId) :
    Sound { table with mappings := table.mappings.map (Option.map (narrow id)) } := by
  have hsame : ∀ i other, Holds (table.mappings.map (Option.map (narrow id))) i other →
      ∃ before rights, Holds table.mappings i before ∧
        other = { before with rights := rights } := by
    intro i other hother
    obtain ⟨before, hbefore, rfl⟩ := holds_map.mp hother
    obtain ⟨rights, hrights⟩ := narrow_eq id before
    exact ⟨before, rights, hbefore, hrights⟩
  have htotal : total pageCount (table.mappings.map (Option.map (narrow id))) =
      total pageCount table.mappings := total_map _ fun mapping => by
    obtain ⟨rights, hrights⟩ := narrow_eq id mapping
    rw [hrights]
  have howed : ({ table with mappings := table.mappings.map (Option.map (narrow id)) } :
      SharedBufferTable).owed = table.owed := by
    funext holder
    unfold owed
    rw [total_map _ fun mapping => ?_]
    obtain ⟨rights, hrights⟩ := narrow_eq id mapping
    rw [hrights]
    rfl
  exact
    { h with
      balanced := ⟨by rw [howed]; exact h.balanced.records, h.balanced.pages⟩
      mappingRegion := fun i other hother => by
        obtain ⟨before, rights, hbefore, rfl⟩ := hsame i other hother
        exact h.mappingRegion i before hbefore
      mappingRange := fun i other hother => by
        obtain ⟨before, rights, hbefore, rfl⟩ := hsame i other hother
        exact h.mappingRange i before hbefore
      mappingLoan := fun i other loan hother hloan => by
        obtain ⟨before, rights, hbefore, rfl⟩ := hsame i other hother
        exact h.mappingLoan i before loan hbefore hloan
      retained := ⟨by
        rw [htotal]
        exact h.retained.budget, h.retained.anchored⟩ }

theorem Sound.reclaimed (h : Sound table) {plan : TeardownPlan}
    (hreclaimed : Reclaimed plan table table') : Sound table' := by
  obtain ⟨hclosed, orphans, hsettled, hbalanced, charges, totalPages, rfl⟩ := hreclaimed
  have hregions := @holds_of_cleared _ _ table.regions plan.removeRegions
  exact
    { balanced := hbalanced
      pages_le := by
        refine le_trans (le_of_eq hbalanced.pages) (le_trans (total_mono _ hregions) ?_)
        rw [← h.balanced.pages]
        exact h.pages_le
      regionIds := h.regionIds.mono hregions
      regionBelow := fun i region hregion => h.regionBelow i region (hregions i region hregion)
      regionEpoch := fun i region hregion => h.regionEpoch i region (hregions i region hregion)
      anchors := fun i j first second cap hfirst hsecond =>
        h.anchors i j first second cap (hregions i first hfirst) (hregions j second hsecond)
      loanIds := h.loanIds.mono holds_of_cleared
      loanBelow := fun i loan hloan => h.loanBelow i loan (holds_of_cleared i loan hloan)
      loanRegion := fun k loan hloan => by
        obtain ⟨hloan, hkept⟩ := holds_cleared.mp hloan
        obtain ⟨j, region, hregion, hbuffer, howner⟩ := h.loanRegion k loan hloan
        exact ⟨j, region, holds_cleared.mpr
          ⟨hregion, hclosed.loanRegion k loan hloan hkept j region hregion hbuffer⟩, hbuffer,
            howner⟩
      mappingRegion := fun i mapping hmapping => by
        obtain ⟨hmapping, hkept⟩ := holds_cleared.mp hmapping
        obtain ⟨j, region, hregion, hbuffer, hrange⟩ := h.mappingRegion i mapping hmapping
        exact ⟨j, region, holds_cleared.mpr ⟨hregion,
          hclosed.mappingRegion i mapping hmapping hkept j region hregion hbuffer⟩, hbuffer, hrange⟩
      mappingRange := fun i mapping hmapping =>
        h.mappingRange i mapping (holds_of_cleared i mapping hmapping)
      mappingLoan := fun i mapping id hmapping hid => by
        obtain ⟨hmapping, hkept⟩ := holds_cleared.mp hmapping
        obtain ⟨k, loan, hloan, hsame, hrest⟩ := h.mappingLoan i mapping id hmapping hid
        have hmade : mapping.loan = some loan.id := by rw [hid, hsame]
        exact ⟨k, loan, holds_cleared.mpr
          ⟨hloan, hclosed.mappingLoan i mapping hmapping hkept k loan hloan hmade⟩, hsame, hrest⟩
      released := fun j region hregion hreleased => by
        obtain ⟨hregion, hkept⟩ := holds_cleared.mp hregion
        obtain ⟨k, loan, hloan, hbuffer, hkept⟩ :=
          hclosed.released j region hregion hkept hreleased
        exact ⟨k, loan, holds_cleared.mpr ⟨hloan, hkept⟩, hbuffer⟩
      retained := ⟨by
        have horphans : (entries orphans).length ≤ table.orphanCount := by
          unfold orphanCount
          rw [length_entries, length_entries]
          exact total_mono _ hsettled.sub
        exact le_trans (add_le_add horphans (total_mono _ holds_of_cleared)) h.retained.budget,
        fun i orphan horphan => by
        obtain ⟨j, region, hregion, hframe⟩ :=
          h.retained.anchored i orphan (hsettled.sub i orphan horphan)
        refine ⟨j, region, holds_cleared.mpr ⟨hregion, fun hmark => ?_⟩, hframe⟩
        exact hsettled.gone i orphan horphan j region hregion hmark hframe⟩ }

theorem Sound.change {sealing : Option BufferId} (h : Sound table)
    (hchange : Change sealing table table') : Sound table' := by
  cases hchange with
  | quotas quotas =>
    exact { h with
      balanced := ⟨h.balanced.records, h.balanced.pages⟩
      retained := ⟨h.retained.budget, h.retained.anchored⟩ }
  | orphans orphans hretained =>
    exact { h with
      balanced := ⟨h.balanced.records, h.balanced.pages⟩
      retained := hretained }
  | created slot region nextId charges hfree hid hnext hepoch hopen hlive hfresh hpages hbalanced =>
    exact h.created hfree hid hnext hepoch hlive hfresh hpages rfl hbalanced
  | mapped slot regionSlot mapping region charges hfree hregion hbuffer hrange haddress hbudget
      hauthority hbalanced =>
    exact { h with
      balanced := hbalanced
      mappingRegion :=
        forall_holds_put ⟨regionSlot, region, hregion, hbuffer, hrange⟩ h.mappingRegion
      mappingRange := forall_holds_put haddress h.mappingRange
      mappingLoan := fun i other id hother hid => by
        rcases holds_set.mp hother with ⟨-, -, heq⟩ | ⟨-, hother⟩
        · obtain rfl := some.inj heq
          cases hauthority with
          | own hloan => exact absurd (hloan.symm.trans hid) nofun
          | lent k loan hheld hloan hsame hreceiver =>
            exact ⟨k, loan, hheld, mem_unique hloan hid, hsame, hreceiver⟩
        · exact h.mappingLoan i other id hother hid
      retained := ⟨by
        change table.orphanCount + total pageCount
          (table.mappings.setIfInBounds slot (some mapping)) ≤ _
        rw [total_put _ hfree]
        omega, h.retained.anchored⟩ }
  | lent slot regionSlot loan region nextId charges hfree hid hnext hregion hbuffer howner hwrite
      hbalanced =>
    have hsucc :=
      checkedAdd_eq_some_iff.mp hnext
    have hkept : ∀ k other, Holds table.loans k other →
        Holds (table.loans.setIfInBounds slot (some loan)) k other :=
      fun k other hother => holds_put hfree hother
    exact { h with
      balanced := hbalanced
      loanIds := h.loanIds.put fun k other hother heq => by
        have hlt := h.loanBelow k other hother
        rw [heq, hid] at hlt
        exact absurd hlt (lt_irrefl _)
      loanBelow := by
        rw [hsucc]
        exact forall_holds_put (hid ▸ Nat.lt_succ_self _) fun k other hother =>
          Nat.lt_succ_of_lt (h.loanBelow k other hother)
      loanRegion := forall_holds_put ⟨regionSlot, region, hregion, hbuffer, howner⟩ h.loanRegion
      mappingLoan := fun i mapping id hmapping hloan =>
        let ⟨k, other, hother, hsame⟩ := h.mappingLoan i mapping id hmapping hloan
        ⟨k, other, hkept k other hother, hsame⟩
      released := fun i other hother hreleased =>
        let ⟨k, held, hheld, hsame⟩ := h.released i other hother hreleased
        ⟨k, held, hkept k held hheld, hsame⟩
      retained := ⟨h.retained.budget, h.retained.anchored⟩ }
  | narrowed slot region hregion _ =>
    refine (h.narrowed region.id).rewritten { region with sealed := true } hregion
      rfl rfl rfl rfl fun hreleased => ?_
    exact h.released slot region hregion hreleased
  | reclaimed plan _ hreclaimed => exact h.reclaimed hreclaimed
  | released plan after slot k region loan hreclaimed hregion hloan hbuffer =>
    exact (h.reclaimed hreclaimed).rewritten { region with released := true } hregion
      rfl rfl rfl rfl fun _ => ⟨k, loan, hloan, hbuffer⟩
  | retired plan after next hreclaimed hempty =>
    have hafter := h.reclaimed hreclaimed
    exact { hafter with
      balanced := ⟨hafter.balanced.records, hafter.balanced.pages⟩
      regionEpoch := fun i region hregion => absurd hregion (hempty i region)
      retained := ⟨hafter.retained.budget, hafter.retained.anchored⟩ }

end Sound

end SlimeOs.SharedBuffers
