import SlimeOs.SharedBufferPlans

/-!
What sealing a region takes away. Sealing narrows the mappings there are, but a
writable loan made before it stays writable, and its receiver can still map it. So
a seal holds as long as a region is sealed while none of its loans is writable.
-/

namespace SlimeOs.SharedBuffers

open FallibleCall Option SlotTable

/-- Nobody can write a sealed region: no mapping does, and no loan gives its receiver
writable frames. -/
structure SealHeld (table : SharedBufferTable) : Prop where
  mappings : ∀ i j mapping region, Holds table.mappings i mapping →
    Holds table.regions j region → region.id = mapping.buffer → region.sealed = true →
    mapping.rights ≠ .readWrite
  loanFrames : ∀ receiver handle frames j region,
    table.loanFrames receiver handle = .ok frames → Holds table.regions j region →
    region.id = handle.buffer → region.sealed = true → frames.writable = false

/-- A holder lends a page writable, seals the region, and the receiver maps the loan. -/
def lendThenSeal : List Operation :=
  [.declareQuota 1 ⟨1, 1, 0, 1⟩, .declareQuota 2 ⟨0, 0, 1, 0⟩,
    .create 1 ⟨[5], by decide, by decide⟩ true, .loan 1 2 ⟨1, 0, .all⟩ 0 4096 true,
    .sealBuffer 1 ⟨1, 0, .all⟩, .mapLoan 2 ⟨1, 1, 0, 2, true⟩ 7 0 0 4096]

theorem sealed_region_mapped_writable :
    ((run (step fun _ => none) (World.start 0) lendThenSeal).table.regions[0]?.join.map
        fun region => (region.id, region.sealed)) = some (1, true) ∧
      ((run (step fun _ => none) (World.start 0) lendThenSeal).table.mappings[0]?.join.map
        fun mapping => (mapping.buffer, mapping.holder, mapping.rights)) =
          some (1, 2, .readWrite) := by
  decide +kernel

structure SealKept (table : SharedBufferTable) : Prop where
  mappings : ∀ i j mapping region, Holds table.mappings i mapping →
    Holds table.regions j region → region.id = mapping.buffer → region.sealed = true →
    mapping.rights = .readOnly
  loans : ∀ k j loan region, Holds table.loans k loan → Holds table.regions j region →
    region.id = loan.buffer → region.sealed = true → loan.writable = false

section Kept

variable {table table' : SharedBufferTable}

section

variable (h : SealKept table)
include h

theorem SealKept.held : SealHeld table := by
  refine ⟨fun i j mapping region hmapping hregion hbuffer hsealed hrights => ?_, ?_⟩
  · rw [h.mappings i j mapping region hmapping hregion hbuffer hsealed] at hrights
    cases hrights
  intro receiver handle frames j region hframes hregion hbuffer hsealed
  unfold SharedBufferTable.loanFrames at hframes
  simp only [Outcome.bind_eq_ok_iff, Outcome.pure_eq_ok_iff] at hframes
  obtain ⟨loan, hloan, -, -, rfl⟩ := hframes
  obtain ⟨k, hloan, hsame, -⟩ := authorizeLoan_ok hloan
  exact h.loans k j loan region hloan hregion (hbuffer.trans hsame.symm) hsealed

theorem SealKept.mono
    (hmappings : ∀ i mapping, Holds table'.mappings i mapping → Holds table.mappings i mapping)
    (hloans : ∀ k loan, Holds table'.loans k loan → Holds table.loans k loan)
    (hregions : ∀ j region, Holds table'.regions j region →
      ∃ before, Holds table.regions j before ∧ before.id = region.id ∧
        before.sealed = region.sealed) : SealKept table' := by
  constructor
  · intro i j mapping region hmapping hregion hbuffer hsealed
    obtain ⟨before, hbefore, hid, hsame⟩ := hregions j region hregion
    exact h.mappings i j mapping before (hmappings i mapping hmapping) hbefore (hid.trans hbuffer)
      (hsame.trans hsealed)
  intro k j loan region hloan hregion hbuffer hsealed
  obtain ⟨before, hbefore, hid, hsame⟩ := hregions j region hregion
  exact h.loans k j loan before (hloans k loan hloan) hbefore (hid.trans hbuffer)
    (hsame.trans hsealed)

theorem SealKept.reclaimed {plan : TeardownPlan}
    (hreclaimed : Reclaimed plan table table') : SealKept table' := by
  obtain ⟨-, -, -, -, -, -, rfl⟩ := hreclaimed
  exact h.mono holds_of_cleared holds_of_cleared
    fun j region hregion => ⟨region, holds_of_cleared j region hregion, rfl, rfl⟩

theorem SealKept.narrowed {slot : Nat} {region : Region}
    (hloans : ∀ k loan, Holds table.loans k loan → loan.buffer = region.id →
      loan.writable = false) :
    SealKept
      { table with
        mappings := table.mappings.map (Option.map (narrow region.id))
        regions := table.regions.setIfInBounds slot (some { region with sealed := true }) } := by
  constructor
  · intro i j mapping other hmapping hother hbuffer hsealed
    obtain ⟨before, hbefore, rfl⟩ := holds_map.mp hmapping
    unfold narrow at hbuffer ⊢
    split
    · rfl
    rename_i hne
    rw [if_neg hne] at hbuffer
    rcases holds_set.mp hother with ⟨-, -, heq⟩ | ⟨-, hother⟩
    · rw [← some.inj heq] at hbuffer
      exact absurd hbuffer.symm hne
    · exact h.mappings i j before other hbefore hother hbuffer hsealed
  · intro k j loan other hloan hother hbuffer hsealed
    rcases holds_set.mp hother with ⟨-, -, heq⟩ | ⟨-, hother⟩
    · rw [← some.inj heq] at hbuffer
      exact hloans k loan hloan hbuffer.symm
    · exact h.loans k j loan other hloan hother hbuffer hsealed

theorem SealKept.change {sealing : Option BufferId} (hsound : Sound table)
    (hchange : Change sealing table table')
    (hlent : ∀ id, sealing = some id → ∀ k loan, Holds table.loans k loan → loan.buffer = id →
      loan.writable = false) : SealKept table' := by
  have hkept : ∀ j region, Holds table.regions j region →
      ∃ before, Holds table.regions j before ∧ before.id = region.id ∧
        before.sealed = region.sealed := fun j region hregion => ⟨region, hregion, rfl, rfl⟩
  cases hchange with
  | quotas quotas => exact h.mono (fun _ _ => id) (fun _ _ => id) hkept
  | orphans orphans hretained =>
    exact h.mono (fun _ _ => id) (fun _ _ => id) hkept
  | created slot region nextId charges hfree hid hnext hepoch hopen hlive hfresh hpages hbalanced =>
    have hold : ∀ j other, Holds (table.regions.setIfInBounds slot (some region)) j other →
        other.sealed = true → Holds table.regions j other :=
      forall_holds_put (by rw [hopen]; nofun) fun _ _ hother _ => hother
    constructor
    · intro i j mapping other hmapping hother hbuffer hsealed
      exact h.mappings i j mapping other hmapping (hold j other hother hsealed) hbuffer hsealed
    · intro k j loan other hloan hother hbuffer hsealed
      exact h.loans k j loan other hloan (hold j other hother hsealed) hbuffer hsealed
  | mapped slot regionSlot mapping region charges hfree hregion hbuffer hrange haddress hbudget
      hauthority hbalanced =>
      refine ⟨fun i j other held hother hheld hid hsealed => ?_, h.loans⟩
      rcases holds_set.mp hother with ⟨-, -, heq⟩ | ⟨-, hother⟩
      · obtain rfl := some.inj heq
        obtain rfl := hsound.regionIds.entry_eq hregion hheld (hbuffer.trans hid.symm)
        cases hrights : mapping.rights with
        | readOnly => rfl
        | readWrite =>
          cases hauthority with
          | own _ _ hwrite => exact absurd (hsealed.symm.trans (hwrite hrights)) nofun
          | lent k loan hloan _ hsame _ hwrite =>
            have hread := h.loans k j loan region hloan hheld (hbuffer.trans hsame.symm) hsealed
            exact absurd (hread.symm.trans (hwrite hrights)) nofun
      · exact h.mappings i j other held hother hheld hid hsealed
  | lent slot regionSlot loan region nextId charges hfree hid hnext hregion hbuffer howner hwrite
      hbalanced =>
      refine ⟨h.mappings, fun k j other held hother hheld hsame hsealed => ?_⟩
      rcases holds_set.mp hother with ⟨-, -, heq⟩ | ⟨-, hother⟩
      · obtain rfl := some.inj heq
        obtain rfl := hsound.regionIds.entry_eq hregion hheld (hbuffer.trans hsame.symm)
        cases hwritable : loan.writable with
        | false => rfl
        | true => exact absurd (hsealed.symm.trans (hwrite hwritable)) nofun
      · exact h.loans k j other held hother hheld hsame hsealed
  | narrowed slot region hregion hsealing =>
    exact h.narrowed (hlent region.id hsealing)
  | reclaimed plan _ hreclaimed => exact h.reclaimed hreclaimed
  | released plan after slot k region loan hreclaimed hregion hloan hbuffer =>
    refine (h.reclaimed hreclaimed).mono (fun _ _ => id) (fun _ _ => id) ?_
    exact forall_holds_put ⟨region, hregion, rfl, rfl⟩ fun j other hother =>
      ⟨other, hother, rfl, rfl⟩
  | retired plan after next hreclaimed hempty =>
    exact (h.reclaimed hreclaimed).mono (fun _ _ => id) (fun _ _ => id)
      fun j region hregion => absurd hregion (hempty j region)

end

end Kept

/-- A region is sealed only while none of its loans is writable. -/
def sealsUnlent (world : World) : Operation → Bool
  | .sealBuffer _ handle =>
    (entries world.table.loans).all fun loan => loan.buffer != handle.id || !loan.writable
  | _ => true

variable {world : World}

theorem sealsUnlent_loans {operation : Operation} (h : sealsUnlent world operation = true) :
    ∀ id, operation.sealing = some id → ∀ k loan, Holds world.table.loans k loan →
      loan.buffer = id → loan.writable = false := by
  intro id hid k loan hloan hbuffer
  cases operation with
  | sealBuffer owner handle =>
    obtain rfl := some.inj hid
    have hunlent := List.all_eq_true.mp h loan (mem_entries.mpr ⟨k, hloan⟩)
    simpa [hbuffer] using hunlent
  | _ => cases hid

theorem sealKept_step {answers : Nat → Option AdapterError} (hsafe : Safe world)
    (h : SealKept world.table) (operation : Operation)
    (hunlent : sealsUnlent world operation = true) :
    SealKept (step answers world operation).table := by
  obtain ⟨-, hleads⟩ := @invoke_ensures answers world hsafe operation
  unfold step
  rcases houtcome : (operation.invoke answers world).1 with fault | _
  · rw [houtcome] at hleads
    obtain ⟨-, orphans, heq, hretained⟩ := hleads
    rw [heq] at hretained ⊢
    exact h.change hsafe.sound (@Change.orphans none world.table orphans hretained)
      fun _ hnone => absurd hnone nofun
  · rw [houtcome] at hleads
    exact h.change hsafe.sound hleads (sealsUnlent_loans hunlent)

/-- When every region is sealed while none of its loans is writable, seals hold in every
reachable state, and mapping a loan there does not break them. -/
theorem sealed_regions_kept (answers : Nat → Option AdapterError) (epoch : GenerationEpoch)
    (operations : List Operation)
    (hunlent : Permitted (step answers) (fun world operation => sealsUnlent world operation = true)
      (World.start epoch) operations) :
    SealHeld (run (step answers) (World.start epoch) operations).table ∧
      ∀ receiver handle vspace base relativeOffset length,
        SealHeld (mapLoan answers receiver handle vspace base relativeOffset length
          (run (step answers) (World.start epoch) operations)).2.table := by
  have hkept : Safe (run (step answers) (World.start epoch) operations) ∧
      SealKept (run (step answers) (World.start epoch) operations).table := by
    refine run_invariant_permitted (step answers) (fun world => Safe world ∧ SealKept world.table)
      _ ?_ _ operations ⟨safe_start epoch, ?_⟩ hunlent
    · rintro world operation ⟨hsafe, h⟩ hoperation
      exact ⟨hsafe.effect (invoke_ensures hsafe operation),
        sealKept_step hsafe h operation hoperation⟩
    · exact ⟨fun i _ _ _ hmapping => absurd hmapping not_holds_empty,
        fun k _ _ _ hloan => absurd hloan not_holds_empty⟩
  refine ⟨hkept.2.held, fun receiver handle vspace base relativeOffset length => ?_⟩
  exact (sealKept_step hkept.1 hkept.2
    (.mapLoan receiver handle vspace base relativeOffset length) rfl).held

def sealThenLend : List Operation :=
  [.declareQuota 1 ⟨1, 1, 0, 1⟩, .declareQuota 2 ⟨0, 0, 1, 0⟩,
    .create 1 ⟨[5], by decide, by decide⟩ true, .sealBuffer 1 ⟨1, 0, .all⟩,
    .loan 1 2 ⟨1, 0, .all⟩ 0 4096 false, .mapLoan 2 ⟨1, 1, 0, 2, false⟩ 7 0 0 4096]

theorem sealed_region_lent :
    Permitted (step fun _ => none) (fun world operation => sealsUnlent world operation = true)
        (World.start 0) sealThenLend ∧
      SealHeld (run (step fun _ => none) (World.start 0) sealThenLend).table := by
  have hunlent : Permitted (step fun _ => none)
      (fun world operation => sealsUnlent world operation = true) (World.start 0) sealThenLend :=
    ⟨rfl, rfl, rfl, by decide +kernel, rfl, rfl, trivial⟩
  exact ⟨hunlent, (sealed_regions_kept _ 0 sealThenLend hunlent).1⟩

end SlimeOs.SharedBuffers
