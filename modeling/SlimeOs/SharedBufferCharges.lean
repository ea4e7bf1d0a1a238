import SlimeOs.SharedBuffers

/-!
What each holder is charged. The table of charges records, for each holder, the
count of what it holds: the entries are distinct, none is empty, and each of them
is the recount. A charge moves the record up with what is put, and a refund down
with what is taken.
-/

namespace SlimeOs.SharedBuffers

open FallibleCall Option SlotTable FallibleCall.Call HolderOccupancy

namespace HolderOccupancy

instance : Add HolderOccupancy where
  add a b := ⟨a.pages + b.pages, a.buffers + b.buffers, a.mappings + b.mappings, a.loans + b.loans⟩

variable (a b : HolderOccupancy)

@[simp] theorem add_pages : (a + b).pages = a.pages + b.pages := rfl

@[simp] theorem add_buffers : (a + b).buffers = a.buffers + b.buffers := rfl

@[simp] theorem add_mappings : (a + b).mappings = a.mappings + b.mappings := rfl

@[simp] theorem add_loans : (a + b).loans = a.loans + b.loans := rfl

theorem add_ne_empty (a : HolderOccupancy) {b : HolderOccupancy} (hb : b ≠ empty) :
    a + b ≠ empty := by
  intro h
  apply hb
  have hpages := congrArg pages h
  have hbuffers := congrArg buffers h
  have hmappings := congrArg mappings h
  have hloans := congrArg loans h
  rw [add_pages] at hpages
  rw [add_buffers] at hbuffers
  rw [add_mappings] at hmappings
  rw [add_loans] at hloans
  ext <;> simp only [empty] at * <;> omega

structure Fits (a : HolderOccupancy) : Prop where
  pages : a.pages < 2 ^ 32
  buffers : a.buffers < 2 ^ 32
  mappings : a.mappings < 2 ^ 32
  loans : a.loans < 2 ^ 32

end HolderOccupancy

open HolderOccupancy (Fits)

def Charge.amount (charge : Charge) : HolderOccupancy :=
  ⟨charge.pages, charge.buffers, charge.mappings, charge.loans⟩

theorem Charge.isEmpty_iff (charge : Charge) :
    charge.isEmpty = true ↔ charge.amount = empty := by
  simp [Charge.isEmpty, Charge.amount, empty, and_assoc]

theorem Charge.plus_eq {charge : Charge} {amount : HolderOccupancy}
    (hfits : Fits (charge.amount + amount)) :
    ∃ charge', charge.plus amount = some charge' ∧ charge'.holder = charge.holder ∧
      charge'.amount = charge.amount + amount := by
  obtain ⟨hpages, hbuffers, hmappings, hloans⟩ := hfits
  refine ⟨⟨charge.holder, charge.pages + amount.pages, charge.buffers + amount.buffers,
    charge.mappings + amount.mappings, charge.loans + amount.loans⟩, ?_, rfl, rfl⟩
  simp only [add_pages, add_buffers, add_mappings,
    add_loans, Charge.amount] at hpages hbuffers hmappings hloans
  simp only [Charge.plus, addWithin, if_pos hpages, if_pos hbuffers, if_pos hmappings,
    if_pos hloans]
  rfl

theorem subChecked_eq_some {a b c : Nat} (h : a = b + c) : subChecked a c = some b := by
  unfold subChecked
  rw [if_pos (by omega), h, Nat.add_sub_cancel]

structure Records (charges : Slots Charge maxChargeHolders) (owed : HolderId → HolderOccupancy) :
    Prop where
  distinct : Distinct Charge.holder charges
  entry : ∀ i charge, Holds charges i charge → charge.amount = owed charge.holder
  nonempty : ∀ i charge, Holds charges i charge → charge.amount ≠ HolderOccupancy.empty
  charged : ∀ holder, owed holder ≠ HolderOccupancy.empty →
    ∃ i charge, Holds charges i charge ∧ charge.holder = holder

section Records

variable {table : SharedBufferTable} {charges : Slots Charge maxChargeHolders}
  {owed owed' : HolderId → HolderOccupancy} {slot : Nat} {holder : HolderId} {charge : Charge}
  {amount : HolderOccupancy}

theorem Records.owed_eq_empty (h : Records charges owed)
    (hnone : ∀ i charge, Holds charges i charge → charge.holder ≠ holder) :
    owed holder = empty := by
  by_contra howed
  obtain ⟨i, charge, hcharge, heq⟩ := h.charged holder howed
  exact hnone i charge hcharge heq

theorem Records.holderOccupancy (h : Records table.charges owed) (holder : HolderId) :
    table.holderOccupancy holder = owed holder := by
  unfold SharedBufferTable.holderOccupancy SharedBufferTable.charge
  rcases hfind : find (fun charge => charge.holder == holder) table.charges with _ | charge
  · rw [hfind]
    refine (h.owed_eq_empty fun i charge hcharge => ?_).symm
    simpa using find_eq_none hfind hcharge
  · obtain ⟨⟨i, hcharge⟩, heq⟩ := find_eq_some hfind
    rw [hfind, ← show charge.holder = holder by simpa using heq]
    exact h.entry i charge hcharge

/-- The slot is the holder's own, or it is free and the holder has none. -/
def SlotFor (charges : Slots Charge maxChargeHolders) (holder : HolderId) (slot : Nat) : Prop :=
  slot < maxChargeHolders ∧
    ∀ i charge, Holds charges i charge → (charge.holder = holder ↔ i = slot)

theorem Records.put (h : Records charges owed) (hslot : SlotFor charges holder slot)
    (hholder : charge.holder = holder) (hcharge : charge.amount = owed' holder)
    (hne : charge.amount ≠ empty)
    (hothers : ∀ other, other ≠ holder → owed' other = owed other) :
    Records (charges.setIfInBounds slot (some charge)) owed' := by
  obtain ⟨hlt, hslot⟩ := hslot
  constructor
  · exact h.distinct.set fun i a ha heq => (hslot i a ha).mp (heq.trans hholder)
  · intro i a ha
    rw [holds_set] at ha
    rcases ha with ⟨rfl, -, ha⟩ | ⟨hi, ha⟩
    · obtain rfl := some.inj ha
      rw [hcharge, hholder]
    · rw [h.entry i a ha, hothers]
      exact fun heq => hi ((hslot i a ha).mp heq).symm
  · exact forall_holds_put hne h.nonempty
  · intro other howed
    by_cases hother : other = holder
    · exact ⟨slot, charge, by rw [holds_set]; exact .inl ⟨rfl, hlt, rfl⟩, hholder.trans hother.symm⟩
    rw [hothers other hother] at howed
    obtain ⟨i, a, ha, heq⟩ := h.charged other howed
    refine ⟨i, a, ?_, heq⟩
    rw [holds_set]
    refine .inr ⟨?_, ha⟩
    rintro rfl
    exact hother (heq.symm.trans ((hslot slot a ha).mpr rfl))

theorem Records.take (h : Records charges owed) (hslot : SlotFor charges holder slot)
    (howed : owed' holder = empty)
    (hothers : ∀ other, other ≠ holder → owed' other = owed other) :
    Records (charges.setIfInBounds slot none) owed' := by
  have hsub : ∀ i a, Holds (charges.setIfInBounds slot none) i a → Holds charges i a :=
    fun i a ha => (holds_set_none.mp ha).2
  constructor
  · exact h.distinct.mono hsub
  · intro i a ha
    obtain ⟨hi, ha⟩ := holds_set_none.mp ha
    rw [h.entry i a ha, hothers]
    exact fun heq => hi ((hslot.2 i a ha).mp heq).symm
  · exact fun i a ha => h.nonempty i a (hsub i a ha)
  intro other hother
  have hne : other ≠ holder := by
    rintro rfl
    exact hother howed
  rw [hothers other hne] at hother
  obtain ⟨i, a, ha, heq⟩ := h.charged other hother
  refine ⟨i, a, holds_set_none.mpr ⟨?_, ha⟩, heq⟩
  rintro rfl
  exact hne (heq.symm.trans ((hslot.2 slot a ha).mpr rfl))

theorem slotFor_of_holds (hdistinct : Distinct Charge.holder charges)
    (hcharge : Holds charges slot charge) : SlotFor charges charge.holder slot := by
  refine ⟨hcharge.lt, fun i a ha => ⟨fun heq => hdistinct i slot a charge ha hcharge heq, ?_⟩⟩
  rintro rfl
  rw [ha.unique hcharge]

theorem slotFor_of_charge (hdistinct : Distinct Charge.holder table.charges)
    (hslot : (table.chargeSlot holder).or (freeSlot table.charges) = some slot) :
    SlotFor table.charges holder slot ∧
      ((∃ charge, Holds table.charges slot charge ∧ charge.holder = holder) ∨
        table.charges[slot]? = some none ∧
          ∀ i charge, Holds table.charges i charge → charge.holder ≠ holder) := by
  rcases hfind : table.chargeSlot holder with _ | own
  · rw [hfind] at hslot
    have hfree := freeSlot_eq_some hslot
    have hnone : ∀ i charge, Holds table.charges i charge → charge.holder ≠ holder := by
      intro i charge hcharge
      simpa using findSlot_eq_none hfind hcharge
    refine ⟨⟨(Vector.getElem_of_getElem? hfree).1, fun i charge hcharge => ?_⟩, .inr ⟨hfree, hnone⟩⟩
    refine ⟨fun heq => absurd heq (hnone i charge hcharge), ?_⟩
    rintro rfl
    exact absurd (hcharge.symm.trans hfree) nofun
  · rw [hfind] at hslot
    obtain rfl := some.inj hslot
    obtain ⟨charge, hcharge, heq⟩ := findSlot_eq_some hfind
    obtain rfl : charge.holder = holder := by simpa using heq
    exact ⟨slotFor_of_holds hdistinct hcharge, .inl ⟨charge, hcharge, rfl⟩⟩

def Recorded (table : SharedBufferTable) (owed : HolderId → HolderOccupancy)
    (outcome : Outcome SharedBufferError Unit) (table' : SharedBufferTable) : Prop :=
  outcome = .ok () ∧ ∃ charges, table' = { table with charges := charges } ∧ Records charges owed

theorem chargePositive_ensures (h : Records table.charges owed)
    (hslot : table.preflightChargeSlot holder = .ok ()) (hamount : amount ≠ empty)
    (howed : owed' holder = owed holder + amount) (hfits : Fits (owed' holder))
    (hothers : ∀ other, other ≠ holder → owed' other = owed other) :
    Ensures (chargePositive holder amount) table (Recorded table owed') := by
  refine ensures_read (Call.ensures_okOr (fun slot hfound => ?_) fun hnone => ?_)
  · obtain ⟨hfor, hown⟩ := slotFor_of_charge h.distinct hfound
    obtain ⟨held, hheld, hstart, hholder⟩ : ∃ held, table.charges[slot]? = some held ∧
        (held.getD ⟨holder, 0, 0, 0, 0⟩).amount = owed holder ∧
        (held.getD ⟨holder, 0, 0, 0, 0⟩).holder = holder := by
      rcases hown with ⟨charge, hcharge, rfl⟩ | ⟨hfree, hnone⟩
      · exact ⟨some charge, hcharge, h.entry slot charge hcharge, rfl⟩
      · exact ⟨none, hfree, (h.owed_eq_empty hnone).symm, rfl⟩
    apply ensures_unwrap hheld
    have hsum : owed' holder = (held.getD ⟨holder, 0, 0, 0, 0⟩).amount + amount := by
      rw [howed, hstart]
    obtain ⟨charge', hplus, hcharge', hresult⟩ := Charge.plus_eq (hsum ▸ hfits)
    refine ensures_unwrap hplus ⟨rfl, _, rfl, ?_⟩
    refine h.put hfor (hcharge'.trans hholder) (hresult.trans hsum.symm) ?_ hothers
    rw [hresult]
    exact add_ne_empty _ hamount
  · -- The preflight found a slot.
    unfold SharedBufferTable.preflightChargeSlot at hslot
    simp [or_eq_none_iff.mp hnone, Outcome.rejectIf] at hslot

theorem uncharge_ensures (h : Records table.charges owed)
    (hamount : amount ≠ empty) (howed : owed holder = owed' holder + amount)
    (hothers : ∀ other, other ≠ holder → owed' other = owed other) :
    Ensures (uncharge holder amount) table (Recorded table owed') := by
  have hne : owed holder ≠ empty := by
    rw [howed]
    exact add_ne_empty _ hamount
  obtain ⟨slot, charge, hcharge, rfl⟩ := h.charged holder hne
  have hfound : table.chargeSlot charge.holder = some slot :=
    h.distinct.findSlot hcharge _ (fun b hb => by simpa using hb) (by simp)
  have hentry := (h.entry _ _ hcharge).trans howed
  have hfor := slotFor_of_holds h.distinct hcharge
  apply ensures_read
  refine ensures_present hfound (ensures_unwrap hcharge (ensures_present rfl ?_))
  apply ensures_present (subChecked_eq_some (congrArg pages hentry))
  apply ensures_modify
  apply ensures_present (subChecked_eq_some (congrArg buffers hentry))
  apply ensures_modify
  apply ensures_present (subChecked_eq_some (congrArg mappings hentry))
  apply ensures_modify
  apply ensures_present (subChecked_eq_some (congrArg loans hentry))
  apply ensures_modify
  simp only [Vector.setIfInBounds_setIfInBounds]
  split
  next hempty =>
    refine ⟨rfl, _, rfl, ?_⟩
    simp only [Vector.setIfInBounds_setIfInBounds]
    exact h.take hfor ((Charge.isEmpty_iff _).mp hempty) hothers
  next hempty =>
    refine ⟨rfl, _, rfl, h.put hfor rfl rfl ?_ hothers⟩
    exact fun hamount => hempty ((Charge.isEmpty_iff _).mpr hamount)

end Records

section Recount

def pagesOwned (holder : HolderId) (region : Region) : Nat :=
  if region.owner = holder then region.anchors.len else 0

def owned (holder : HolderId) (region : Region) : Nat := if region.owner = holder then 1 else 0

def mapped (holder : HolderId) (mapping : MappingRecord) : Nat :=
  if mapping.holder = holder then 1 else 0

def lent (holder : HolderId) (loan : Loan) : Nat := if loan.lender = holder then 1 else 0

def SharedBufferTable.owed (table : SharedBufferTable) (holder : HolderId) : HolderOccupancy :=
  ⟨total (pagesOwned holder) table.regions, total (owned holder) table.regions,
    total (mapped holder) table.mappings, total (lent holder) table.loans⟩

/-- The charges are the recount, and the page total is that of the anchors. -/
structure Balanced (table : SharedBufferTable) : Prop where
  records : Records table.charges table.owed
  pages : table.totalPages = total (fun region => region.anchors.len) table.regions

variable {table table' : SharedBufferTable} {mapping : MappingRecord} {loan : Loan}
  {region : Region} {slot : Nat} {holder : HolderId}

theorem owed_fits (holder : HolderId) : Fits (table.owed holder) := by
  have hpages : total (pagesOwned holder) table.regions ≤ maxSharedBuffers * maxBufferPages := by
    refine total_le _ fun region => ?_
    unfold pagesOwned
    split
    · exact region.anchors.length_le
    · exact Nat.zero_le _
  have hone : ∀ {p : Prop} [Decidable p], (if p then 1 else 0) ≤ 1 := by
    intro p _
    split <;> omega
  have howned : total (owned holder) table.regions ≤ maxSharedBuffers * 1 :=
    total_le _ fun _ => hone
  have hmapped : total (mapped holder) table.mappings ≤ maxMappings * 1 := total_le _ fun _ => hone
  have hlent : total (lent holder) table.loans ≤ maxLoans * 1 := total_le _ fun _ => hone
  exact ⟨Nat.lt_of_le_of_lt hpages (by decide), Nat.lt_of_le_of_lt howned (by decide),
    Nat.lt_of_le_of_lt hmapped (by decide), Nat.lt_of_le_of_lt hlent (by decide)⟩

def Owes (table table' : SharedBufferTable) (holder : HolderId) (amount : HolderOccupancy) : Prop :=
  table'.owed holder = table.owed holder + amount ∧
    ∀ other, other ≠ holder → table'.owed other = table.owed other

theorem owes_mapping
    (hregions : table'.regions = table.regions) (hloans : table'.loans = table.loans)
    (h : Adds table.mappings table'.mappings mapping) :
    Owes table table' mapping.holder ⟨0, 0, 1, 0⟩ := by
  unfold Owes SharedBufferTable.owed
  rw [hregions, hloans]
  refine ⟨?_, fun other hother => ?_⟩
  · ext <;> simp [h (mapped mapping.holder), mapped]
  · ext <;> simp [h (mapped other), mapped, hother.symm]

theorem owes_loan
    (hregions : table'.regions = table.regions) (hmappings : table'.mappings = table.mappings)
    (h : Adds table.loans table'.loans loan) : Owes table table' loan.lender ⟨0, 0, 0, 1⟩ := by
  unfold Owes SharedBufferTable.owed
  rw [hregions, hmappings]
  refine ⟨?_, fun other hother => ?_⟩
  · ext <;> simp [h (lent loan.lender), lent]
  · ext <;> simp [h (lent other), lent, hother.symm]

theorem owes_region
    (hmappings : table'.mappings = table.mappings) (hloans : table'.loans = table.loans)
    (h : Adds table.regions table'.regions region) :
    Owes table table' region.owner ⟨region.anchors.len, 1, 0, 0⟩ := by
  unfold Owes SharedBufferTable.owed
  rw [hmappings, hloans]
  refine ⟨?_, fun other hother => ?_⟩
  · ext <;> simp [h (owned region.owner), h (pagesOwned region.owner), owned, pagesOwned]
  · ext <;> simp [h (owned other), h (pagesOwned other), owned, pagesOwned, hother.symm]

theorem owes_put_region {totalPages : Nat} {nextId : BufferId}
    (hfree : table.regions[slot]? = some none) :
    Owes table
      { table with
        regions := table.regions.setIfInBounds slot (some region)
        totalPages := totalPages
        nextBufferId := nextId } region.owner ⟨region.anchors.len, 1, 0, 0⟩ :=
  owes_region rfl rfl (adds_put hfree)

theorem owes_put_loan {nextId : LoanId} (hfree : table.loans[slot]? = some none) :
    Owes table
      { table with
        loans := table.loans.setIfInBounds slot (some loan)
        nextLoanId := nextId } loan.lender ⟨0, 0, 0, 1⟩ :=
  owes_loan rfl rfl (adds_put hfree)

theorem owes_put_mapping (hfree : table.mappings[slot]? = some none) :
    Owes table { table with mappings := table.mappings.setIfInBounds slot (some mapping) }
      mapping.holder ⟨0, 0, 1, 0⟩ :=
  owes_mapping rfl rfl (adds_put hfree)

theorem charge_ensures {amount : HolderOccupancy}
    (h : Records table.charges table.owed) (hcharges : table'.charges = table.charges)
    (hslot : table.preflightChargeSlot holder = .ok ())
    (hamount : amount ≠ empty) (howes : Owes table table' holder amount) :
    Ensures (chargePositive holder amount) table' (Recorded table' table'.owed) := by
  refine chargePositive_ensures (hcharges ▸ h) ?_ hamount howes.1 (owed_fits holder) howes.2
  unfold SharedBufferTable.preflightChargeSlot SharedBufferTable.chargeSlot at *
  rw [hcharges]
  exact hslot

theorem refund_ensures {amount : HolderOccupancy}
    (h : Records table'.charges table.owed) (hamount : amount ≠ empty)
    (howes : Owes table' table holder amount) :
    Ensures (uncharge holder amount) table' (Recorded table' table'.owed) :=
  uncharge_ensures h hamount howes.1 fun other hother => (howes.2 other hother).symm

end Recount

section Commit

variable {table table' : SharedBufferTable} {plan : TeardownPlan}

/-- Only slots that hold something are marked. -/
structure Occupied (plan : TeardownPlan) (table : SharedBufferTable) : Prop where
  mappings : ∀ i, plan.removeMappings[i]? = some true → ∃ mapping, Holds table.mappings i mapping
  loans : ∀ i, plan.removeLoans[i]? = some true → ∃ loan, Holds table.loans i loan
  regions : ∀ i, plan.removeRegions[i]? = some true → ∃ region, Holds table.regions i region

/-- The commit has passed the first mappings, loans and regions. -/
def Passed (plan : TeardownPlan) (table : SharedBufferTable) (i j k : Nat)
    (table' : SharedBufferTable) : Prop :=
  Balanced table' ∧ ∃ charges totalPages, table' =
    { table with
      mappings := clearBelow plan.removeMappings table.mappings i
      loans := clearBelow plan.removeLoans table.loans j
      regions := clearBelow plan.removeRegions table.regions k
      charges := charges
      totalPages := totalPages }

section

variable {i j k : Nat} (hplan : Occupied plan table) (h : Passed plan table i j k table')
include hplan h

theorem takeMapping_ensures :
    Ensures (takeMapping plan () i) table' fun outcome after =>
      ∃ u, outcome = .ok u ∧ Passed plan table (i + 1) j k after := by
  obtain ⟨hbalanced, charges, totalPages, rfl⟩ := h
  unfold takeMapping
  by_cases hmark : plan.removeMappings[i]? = some true
  · obtain ⟨mapping, hmapping⟩ := hplan.mappings i hmark
    simp only [Passed, clearBelow, if_pos hmark]
    rw [if_pos (by rw [hmark]; rfl)]
    refine ensures_read (ensures_modify (ensures_present (hmapping.clearBelow _).join ?_))
    refine ensures_weaken (refund_ensures hbalanced.records (by decide)
      (owes_mapping rfl rfl (adds_take (hmapping.clearBelow _)))) ?_
    rintro outcome after ⟨rfl, charges', rfl, hrecords⟩
    exact ⟨(), rfl, ⟨hrecords, hbalanced.pages⟩, charges', totalPages, rfl⟩
  · simp only [Passed, clearBelow, if_neg hmark]
    rw [if_neg (by simpa using hmark)]
    exact ⟨(), rfl, hbalanced, charges, totalPages, rfl⟩

theorem takeLoan_ensures :
    Ensures (takeLoan plan () j) table' fun outcome after =>
      ∃ u, outcome = .ok u ∧ Passed plan table i (j + 1) k after := by
  obtain ⟨hbalanced, charges, totalPages, rfl⟩ := h
  unfold takeLoan
  by_cases hmark : plan.removeLoans[j]? = some true
  · obtain ⟨loan, hloan⟩ := hplan.loans j hmark
    simp only [Passed, clearBelow, if_pos hmark]
    rw [if_pos (by rw [hmark]; rfl)]
    refine ensures_read (ensures_modify (ensures_present (hloan.clearBelow _).join ?_))
    refine ensures_weaken (refund_ensures hbalanced.records (by decide)
      (owes_loan rfl rfl (adds_take (hloan.clearBelow _)))) ?_
    rintro outcome after ⟨rfl, charges', rfl, hrecords⟩
    exact ⟨(), rfl, ⟨hrecords, hbalanced.pages⟩, charges', totalPages, rfl⟩
  · simp only [Passed, clearBelow, if_neg hmark]
    rw [if_neg (by simpa using hmark)]
    exact ⟨(), rfl, hbalanced, charges, totalPages, rfl⟩

theorem takeRegion_ensures :
    Ensures (takeRegion plan () k) table' fun outcome after =>
      ∃ u, outcome = .ok u ∧ Passed plan table i j (k + 1) after := by
  obtain ⟨hbalanced, charges, totalPages, rfl⟩ := h
  unfold takeRegion
  by_cases hmark : plan.removeRegions[k]? = some true
  · obtain ⟨region, hregion⟩ := hplan.regions k hmark
    have hpages := hbalanced.pages.trans (adds_take (hregion.clearBelow _) _)
    simp only [Passed, clearBelow, if_pos hmark]
    rw [if_pos (by rw [hmark]; rfl)]
    refine ensures_read (ensures_modify (ensures_present (hregion.clearBelow _).join ?_))
    refine ensures_present (subChecked_eq_some hpages) (ensures_modify ?_)
    refine ensures_weaken (refund_ensures hbalanced.records (by simp [empty])
      (owes_region rfl rfl (adds_take (hregion.clearBelow _)))) ?_
    rintro outcome after ⟨rfl, charges', rfl, hrecords⟩
    exact ⟨(), rfl, ⟨hrecords, rfl⟩, charges', _, rfl⟩
  · simp only [Passed, clearBelow, if_neg hmark]
    rw [if_neg (by simpa using hmark)]
    exact ⟨(), rfl, hbalanced, charges, totalPages, rfl⟩

end

/-- Everything the plan has marked is taken out and refunded. -/
structure TornDown (plan : TeardownPlan) (table table' : SharedBufferTable) : Prop where
  balanced : Balanced table'
  eq : ∃ charges totalPages, table' =
    { table with
      mappings := cleared plan.removeMappings table.mappings
      loans := cleared plan.removeLoans table.loans
      regions := cleared plan.removeRegions table.regions
      charges := charges
      totalPages := totalPages }

/-- None of the late errors of a commit can happen. -/
theorem commitTeardown_ensures (h : Balanced table) (hplan : Occupied plan table) :
    Ensures (commitTeardown plan) table fun outcome table' => outcome = .ok () ∧
      TornDown plan table table' := by
  apply ensures_answer (ensures_loop (fun i _ => Passed plan table i 0 0)
    ⟨h, table.charges, table.totalPages, rfl⟩ fun i _ _ _ hpassed =>
      takeMapping_ensures hplan hpassed)
  intro _ _ hmappings
  apply ensures_answer (ensures_loop (fun j _ => Passed plan table maxMappings j 0) hmappings
    fun j _ _ _ hpassed => takeLoan_ensures hplan hpassed)
  intro _ _ hloans
  apply ensures_weaken (ensures_loop (fun k _ => Passed plan table maxMappings maxLoans k)
    hloans fun k _ _ _ hpassed => takeRegion_ensures hplan hpassed)
  rintro outcome _ ⟨_, rfl, hbalanced, charges, totalPages, rfl⟩
  refine ⟨rfl, hbalanced, charges, totalPages, ?_⟩
  unfold cleared
  rfl

end Commit

end SlimeOs.SharedBuffers
