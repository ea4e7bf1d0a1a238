import SlimeOs.SharedBufferPlans

/-!
What holds after every sequence of operations on the shared buffers, with any
arguments and over an adapter that may fail at any call.
-/

namespace SlimeOs.SharedBuffers

open FallibleCall SlotTable

section Accounting

/-- Every charge is the recount, and every reference leads somewhere. -/
structure Accounted (table : SharedBufferTable) : Prop where
  oneCharge : Distinct Charge.holder table.charges
  noneEmpty : ∀ i charge, Holds table.charges i charge → charge.isEmpty = false
  recount : ∀ holder, table.holderOccupancy holder = table.owed holder
  pages : table.totalPages = total (fun region => region.anchors.len) table.regions
  pages_le : table.totalPages ≤ maxTotalPages
  anchors : ∀ i j first second k l cap, Holds table.regions i first →
    Holds table.regions j second → first.anchors.get k = some cap →
    second.anchors.get l = some cap → i = j ∧ k = l
  mappingRegion : ∀ i mapping, Holds table.mappings i mapping →
    ∃ j region, Holds table.regions j region ∧ region.id = mapping.buffer
  mappingLoan : ∀ i mapping id, Holds table.mappings i mapping → mapping.loan = some id →
    ∃ k loan, Holds table.loans k loan ∧ loan.id = id ∧ loan.buffer = mapping.buffer ∧
      loan.receiver = mapping.holder
  loanRegion : ∀ k loan, Holds table.loans k loan →
    ∃ j region, Holds table.regions j region ∧ region.id = loan.buffer ∧ region.owner = loan.lender

theorem Sound.accounted {table : SharedBufferTable} (h : Sound table) : Accounted table where
  oneCharge := h.balanced.records.distinct
  noneEmpty i charge hcharge := by
    rw [← Bool.not_eq_true, Charge.isEmpty_iff]
    exact h.balanced.records.nonempty i charge hcharge
  recount := h.balanced.records.holderOccupancy
  pages := h.balanced.pages
  pages_le := h.pages_le
  anchors i j first second k l cap hfirst hsecond hk hl := by
    obtain rfl := h.anchors i j first second cap hfirst hsecond (mem_of_get hk) (mem_of_get hl)
    obtain rfl := hfirst.unique hsecond
    exact ⟨rfl, (List.getElem?_inj (List.getElem_of_getElem? hk).1 first.anchors.nodup).mp
      (hk.trans hl.symm)⟩
  mappingRegion i mapping hmapping :=
    let ⟨j, region, hregion, hbuffer, _⟩ := h.mappingRegion i mapping hmapping
    ⟨j, region, hregion, hbuffer⟩
  mappingLoan := h.mappingLoan
  loanRegion := h.loanRegion

/-- Regions, mappings, loans, charges and the page total are the same. -/
structure Untouched (table table' : SharedBufferTable) : Prop where
  regions : table'.regions = table.regions
  mappings : table'.mappings = table.mappings
  loans : table'.loans = table.loans
  charges : table'.charges = table.charges
  totalPages : table'.totalPages = table.totalPages

/-- After every run the accounts are right, and an operation that does not complete returns
an error and leaves them alone. -/
theorem sharedBuffers_accounted (answers : Nat → Option AdapterError) (epoch : GenerationEpoch)
    (operations : List Operation) :
    Accounted (run (step answers) (World.start epoch) operations).table ∧
      ∀ (operation : Operation) (fault : Fault SharedBufferError),
        (operation.invoke answers (run (step answers) (World.start epoch) operations)).1 =
            .error fault →
          (∃ error, fault = .returned error) ∧
            Untouched (run (step answers) (World.start epoch) operations).table
              (operation.invoke answers
                (run (step answers) (World.start epoch) operations)).2.table := by
  have hsafe := safe_run answers epoch operations
  refine ⟨hsafe.sound.accounted, fun operation fault hfault => ?_⟩
  obtain ⟨-, hleads⟩ := @invoke_ensures answers _ hsafe operation
  rw [hfault] at hleads
  obtain ⟨⟨error, rfl, -⟩, orphans, heq, -⟩ := hleads
  rw [heq]
  exact ⟨⟨error, rfl⟩, rfl, rfl, rfl, rfl, rfl⟩

end Accounting

section Frames

/-- After every run: no frame was retired while it was mapped; every mapped page is covered
by a mapping or by an orphan, and the orphans' frames belong to live regions; no orphan goes
unrecorded, and no batch runs out of room. -/
theorem sharedBuffers_frames_safe (answers : Nat → Option AdapterError) (epoch : GenerationEpoch)
    (operations : List Operation) :
    (∀ action live,
        (action, live) ∈ (run (step answers) (World.start epoch) operations).adapter.attempts →
        ∀ frame, action.retires frame = true → ∀ held ∈ live, held.frame ≠ frame) ∧
      (∀ held ∈ (run (step answers) (World.start epoch) operations).adapter.live,
        Covers (run (step answers) (World.start epoch) operations).table held) ∧
      (∀ i orphan,
        Holds (run (step answers) (World.start epoch) operations).table.orphans i orphan →
        ∃ j region,
          Holds (run (step answers) (World.start epoch) operations).table.regions j region ∧
            orphan.frame ∈ region.anchors.caps) ∧
      ∀ (operation : Operation) (error : SharedBufferError),
        (operation.invoke answers (run (step answers) (World.start epoch) operations)).1 =
            .error (.returned error) →
          error ≠ .actionListExhausted ∧
            ∀ cause rollback orphans unrecorded,
              error = .orphaned cause rollback orphans unrecorded → unrecorded = 0 := by
  have hsafe := safe_run answers epoch operations
  refine ⟨hsafe.tidy.clean, hsafe.tidy.live, hsafe.sound.retained.anchored, ?_⟩
  intro operation error hfault
  obtain ⟨-, hleads⟩ := @invoke_ensures answers _ hsafe operation
  rw [hfault] at hleads
  obtain ⟨⟨_, heq, hreported⟩, -⟩ := hleads
  obtain rfl := Fault.returned.inj heq
  refine ⟨?_, ?_⟩
  · rintro rfl
    exact hreported
  · rintro cause rollback orphans unrecorded rfl
    exact hreported

end Frames

section Reclaim

/-- A holder is gone from the table, and the others keep what does not hang on it. -/
structure Vacated (holder : HolderId) (table table' : SharedBufferTable) : Prop where
  regions : ∀ j region, Holds table'.regions j region → region.owner ≠ holder
  mappings : ∀ i mapping, Holds table'.mappings i mapping → mapping.holder ≠ holder
  loans : ∀ k loan, Holds table'.loans k loan → loan.lender ≠ holder ∧ loan.receiver ≠ holder
  regionsKept : ∀ j region, Holds table.regions j region → region.owner ≠ holder →
    Holds table'.regions j region ∨ region.released = true ∧
      (∃ k loan, Holds table.loans k loan ∧ loan.buffer = region.id) ∧
      ∀ k loan, Holds table.loans k loan → loan.buffer = region.id →
        loan.lender = holder ∨ loan.receiver = holder
  loansKept : ∀ k loan, Holds table.loans k loan → loan.lender ≠ holder →
    loan.receiver ≠ holder → Holds table'.loans k loan
  mappingsKept : ∀ i mapping, Holds table.mappings i mapping → mapping.holder ≠ holder →
    Holds table'.mappings i mapping ∨
      (∃ j region, Holds table.regions j region ∧ region.id = mapping.buffer ∧
        ¬ Holds table'.regions j region) ∨
      ∃ k loan, Holds table.loans k loan ∧ mapping.loan = some loan.id ∧
        ¬ Holds table'.loans k loan

theorem Reclaimed.vacated {table table' : SharedBufferTable} {holder : HolderId} (h : Sound table)
    (hreclaimed : Reclaimed (table.planReclaim holder) table table') :
    Vacated holder table table' := by
  obtain ⟨-, -, -, -, -, -, rfl⟩ := hreclaimed
  constructor
  case regions =>
    intro j region hregion howner
    obtain ⟨hregion, hkept⟩ := holds_cleared.mp hregion
    exact hkept ((marked_reclaim_region hregion).mpr (.inl howner))
  case mappings =>
    intro i mapping hmapping hholder
    obtain ⟨hmapping, hkept⟩ := holds_cleared.mp hmapping
    refine hkept (marked_markWhere.mpr (.inl (marked_markWhere.mpr (.inr ⟨mapping, hmapping, ?_⟩))))
    simpa using hholder
  case loans =>
    intro k loan hloan
    obtain ⟨hloan, hkept⟩ := holds_cleared.mp hloan
    exact not_or.mp fun hinvolved => hkept ((marked_reclaim_loan hloan).mpr hinvolved)
  case regionsKept =>
    intro j region hregion howner
    by_cases hmark : (table.planReclaim holder).removeRegions[j]? = some true
    · rcases (marked_reclaim_region hregion).mp hmark with howner' | ⟨hreleased, hall⟩
      · exact absurd howner' howner
      · exact .inr ⟨hreleased, h.released j region hregion hreleased, hall⟩
    · exact .inl (holds_cleared.mpr ⟨hregion, hmark⟩)
  case loansKept =>
    intro k loan hloan hlender hreceiver
    refine holds_cleared.mpr ⟨hloan, fun hmark => ?_⟩
    rcases (marked_reclaim_loan hloan).mp hmark with hlender' | hreceiver'
    · exact hlender hlender'
    · exact hreceiver hreceiver'
  case mappingsKept =>
    intro i mapping hmapping hholder
    by_cases hmark : (table.planReclaim holder).removeMappings[i]? = some true
    · rcases marked_reclaim_mapping hmapping hmark with hholder' |
        ⟨j, region, hregion, hid, hmark'⟩ | ⟨k, loan, hloan, hmade, hmark'⟩
      · exact absurd hholder' hholder
      · exact .inr (.inl ⟨j, region, hregion, hid, fun hkept => (holds_cleared.mp hkept).2 hmark'⟩)
      · exact .inr (.inr ⟨k, loan, hloan, hmade, fun hkept => (holds_cleared.mp hkept).2 hmark'⟩)
    · exact .inl (holds_cleared.mpr ⟨hmapping, hmark⟩)

theorem reclaimHolder_completes {answers : Nat → Option AdapterError} {world : World}
    (h : Safe world) (hanswers : ∀ n, answers n = none) (holder : HolderId) :
    ∃ actions, (reclaimHolder answers holder world).1 = .ok actions := by
  obtain ⟨-, hleads⟩ := @reclaimHolder_ensures answers _ h holder
  rcases houtcome : (reclaimHolder answers holder world).1 with fault | actions
  · rw [houtcome] at hleads
    obtain ⟨⟨n, error, hfault⟩, -⟩ := hleads
    exact absurd ((hanswers n).symm.trans hfault) nofun
  · exact ⟨actions, rfl⟩

/-- Reclaiming a holder in any reachable state, once it completes, takes all of it and nothing
of the others. -/
theorem reclaimHolder_vacates (answers : Nat → Option AdapterError) (epoch : GenerationEpoch)
    (operations : List Operation) (holder : HolderId) (actions : List AdapterAction)
    (hok : (reclaimHolder answers holder
      (run (step answers) (World.start epoch) operations)).1 = .ok actions) :
    Vacated holder (run (step answers) (World.start epoch) operations).table
      (reclaimHolder answers holder
        (run (step answers) (World.start epoch) operations)).2.table := by
  have hsafe := safe_run answers epoch operations
  obtain ⟨-, hleads⟩ := @reclaimHolder_ensures answers _ hsafe holder
  rw [hok] at hleads
  exact Reclaimed.vacated hsafe.sound hleads

/-- One holder creates a buffer of two pages and lends the first of them. -/
def lendOne : List Operation :=
  [.declareQuota 1 ⟨2, 1, 0, 1⟩, .create 1 ⟨[5, 6], by decide, by decide⟩ true,
    .loan 1 2 ⟨1, 0, .all⟩ 0 4096 true]

theorem reclaimHolder_vacates_lender :
    ((run (step fun _ => none) (World.start 0) lendOne).table.loans[0]?.join.map Loan.lender) =
        some 1 ∧
      ∃ actions,
        (reclaimHolder (fun _ => none) 1
          (run (step fun _ => none) (World.start 0) lendOne)).1 = .ok actions ∧
        Vacated 1 (run (step fun _ => none) (World.start 0) lendOne).table
          (reclaimHolder (fun _ => none) 1
            (run (step fun _ => none) (World.start 0) lendOne)).2.table := by
  refine ⟨by decide +kernel, ?_⟩
  obtain ⟨actions, hok⟩ := reclaimHolder_completes (safe_run _ 0 lendOne) (fun _ => rfl) 1
  exact ⟨actions, hok, reclaimHolder_vacates _ 0 lendOne 1 actions hok⟩

end Reclaim

end SlimeOs.SharedBuffers
