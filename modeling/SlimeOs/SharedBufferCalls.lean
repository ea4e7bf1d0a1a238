import SlimeOs.SharedBufferIntegrity

/-!
The checks of the shared-buffer table and the operations that do not touch the
adapter. A check that passes says what it looked up. A refused operation leaves the
table alone, and a completed one makes one of the changes that keep the invariant.
-/

namespace SlimeOs.SharedBuffers

open Bool CheckedWord Except FallibleCall FallibleCall.Outcome SlotTable FallibleCall.Call Change
  SharedBufferTable

/-- The errors an operation may report: the batch of a teardown always fits, and no orphan
goes unrecorded. -/
def Reported : SharedBufferError → Prop
  | .actionListExhausted => False
  | .orphaned _ _ _ unrecorded => unrecorded = 0
  | _ => True

section Checks

variable {α β σ : Type} {error : SharedBufferError} {condition : Bool} {value : Option α}
  {outcome : Outcome SharedBufferError α} {s : σ} {post : Outcome SharedBufferError β → σ → Prop}
  {f : α → Call σ SharedBufferError β}

def Checked (outcome : Outcome SharedBufferError α) : Prop :=
  ∀ fault, outcome = .error fault → ∃ error, fault = .returned error ∧ Reported error

theorem checked_rejectIf (herror : Reported error) : Checked (rejectIf condition error) := by
  intro fault hfault
  cases condition with
  | false => cases hfault
  | true => exact ⟨error, (Except.error.inj hfault).symm, herror⟩

theorem checked_okOr (herror : Reported error) : Checked (okOr value error) := by
  intro fault hfault
  cases value with
  | none => exact ⟨error, (Except.error.inj hfault).symm, herror⟩
  | some a => cases hfault

theorem checked_pure (a : α) : Checked (pure a) := fun _ hfault => absurd hfault nofun

theorem checked_bind {rest : α → Outcome SharedBufferError β} (houtcome : Checked outcome)
    (hrest : ∀ a, outcome = .ok a → Checked (rest a)) : Checked (outcome >>= rest) := by
  intro fault hfault
  rcases hfirst : outcome with first | a
  · rw [hfirst] at hfault
    obtain rfl := error.inj hfault
    exact houtcome first hfirst
  · rw [hfirst] at hfault
    exact hrest a hfirst fault hfault

theorem ensures_checked
    (houtcome : Checked outcome) (hok : ∀ a, outcome = .ok a → Ensures (f a) s post)
    (herror : ∀ error, Reported error → post (.error (.returned error)) s) :
    Ensures (Call.lift outcome >>= f) s post := by
  rcases hresult : outcome with fault | a
  · obtain ⟨error, rfl, hreported⟩ := houtcome fault hresult
    exact herror error hreported
  · exact hok a hresult

theorem ensures_rejectIf {f : Unit → Call σ SharedBufferError β}
    (hreported : Reported error) (hok : condition = false → Ensures (f ()) s post)
    (herror : ∀ error, Reported error → post (.error (.returned error)) s) :
    Ensures (Call.rejectIf condition error >>= f) s post :=
  ensures_check hok fun _ => herror error hreported

theorem ensures_okOr (hreported : Reported error) (hok : ∀ a, value = some a → Ensures (f a) s post)
    (herror : ∀ error, Reported error → post (.error (.returned error)) s) :
    Ensures (Call.lift (okOr value error) >>= f) s post :=
  Call.ensures_okOr hok fun _ => herror error hreported

end Checks

section Lookups

variable {table : SharedBufferTable} {holder : HolderId} {handle : BufferHandle}
  {required : BufferRights} {region : Region} {id : BufferId} {loan : Loan}
  {offset length totalPages pages : Nat} {range : Nat × Nat}

theorem checked_liveRegionAny : Checked (table.liveRegionAny id) := checked_okOr trivial

theorem checked_authorize : Checked (table.authorize holder handle required) :=
  checked_bind (checked_rejectIf trivial) fun _ _ =>
    checked_bind
      (checked_bind checked_liveRegionAny fun _ _ =>
        checked_bind (checked_rejectIf trivial) fun _ _ => checked_pure _) fun _ _ =>
    checked_bind (checked_rejectIf trivial) fun _ _ =>
    checked_bind (checked_rejectIf trivial) fun _ _ =>
    checked_bind (checked_rejectIf trivial) fun _ _ => checked_pure _

theorem liveRegionAny_ok (h : table.liveRegionAny id = .ok region) :
    ∃ i, Holds table.regions i region ∧ region.id = id := by
  obtain ⟨⟨i, hregion⟩, hfound⟩ := find_eq_some (okOr_eq_ok_iff.mp h)
  exact ⟨i, hregion, by simpa using (and_eq_true_iff.mp hfound).1⟩

theorem authorize_ok (h : table.authorize holder handle required = .ok region) :
    ∃ i, Holds table.regions i region ∧ region.id = handle.id ∧ region.owner = holder := by
  unfold authorize liveRegion at h
  simp only [bind_eq_ok_iff, rejectIf_eq_ok_iff, pure_eq_ok_iff] at h
  obtain ⟨-, -, found, ⟨_, hfound, -, -, rfl⟩, -, howner, -, -, -, -, rfl⟩ := h
  obtain ⟨i, hregion, hid⟩ := liveRegionAny_ok hfound
  exact ⟨i, hregion, hid, by simpa using howner⟩

theorem liveRegionSlot_ok {slot : Nat} (h : table.liveRegionSlot id = .ok slot) :
    ∃ region, Holds table.regions slot region ∧ region.id = id := by
  obtain ⟨region, hregion, hfound⟩ := findSlot_eq_some (okOr_eq_ok_iff.mp h)
  exact ⟨region, hregion, by simpa using (and_eq_true_iff.mp hfound).1⟩

variable {id : LoanId}

theorem checked_liveLoan : Checked (table.liveLoan id) := checked_okOr trivial

theorem liveLoan_ok (h : table.liveLoan id = .ok loan) : ∃ k, Holds table.loans k loan :=
  (find_eq_some (okOr_eq_ok_iff.mp h)).1

variable {receiver : HolderId} {handle : LoanHandle}

theorem checked_authorizeLoan : Checked (table.authorizeLoan receiver handle) :=
  checked_bind (checked_rejectIf trivial) fun _ _ =>
    checked_bind (checked_rejectIf trivial) fun _ _ =>
    checked_bind checked_liveLoan fun _ _ =>
    checked_bind (checked_rejectIf trivial) fun _ _ =>
    checked_bind (checked_rejectIf trivial) fun _ _ => checked_pure _

theorem authorizeLoan_ok (h : table.authorizeLoan receiver handle = .ok loan) :
    ∃ k, Holds table.loans k loan ∧ loan.buffer = handle.buffer ∧ loan.receiver = receiver := by
  unfold authorizeLoan at h
  simp only [bind_eq_ok_iff, rejectIf_eq_ok_iff, pure_eq_ok_iff] at h
  obtain ⟨-, -, -, -, found, hfound, -, hsame, -, hreceiver, rfl⟩ := h
  obtain ⟨k, hloan⟩ := liveLoan_ok hfound
  exact ⟨k, hloan, by simpa using (or_eq_false_iff.mp hsame).2, by simpa using hreceiver⟩

theorem checked_validatePageRange : Checked (validatePageRange offset length totalPages) :=
  checked_bind (checked_rejectIf trivial) fun _ _ =>
    checked_bind (checked_rejectIf trivial) fun _ _ =>
    checked_bind (checked_okOr trivial) fun _ _ =>
    checked_bind (checked_rejectIf trivial) fun _ _ => checked_pure _

theorem addWithin_eq_some {width a b c : Nat} (h : addWithin width a b = some c) : c = a + b := by
  unfold addWithin at h
  split at h
  · exact (Option.some.inj h).symm
  · cases h

theorem validatePageRange_ok (h : validatePageRange offset length totalPages = .ok range) :
    range.1 * pageSize = offset ∧ range.2 * pageSize = length ∧ range.1 + range.2 ≤ totalPages := by
  unfold validatePageRange at h
  simp only [bind_eq_ok_iff, rejectIf_eq_ok_iff, pure_eq_ok_iff,
    okOr_eq_ok_iff, or_eq_false_iff, bne_eq_false_iff_eq, decide_eq_false_iff_not] at h
  obtain ⟨-, ⟨⟨-, hoffset⟩, hlength⟩, -, -, stop, hstop, -, hend, rfl⟩ := h
  have hsum := addWithin_eq_some hstop
  unfold pageSize at *
  refine ⟨?_, ?_, ?_⟩ <;> dsimp only <;> omega

theorem checked_validateMappingRange {base : Nat} :
    Checked (validateMappingRange region base offset length) :=
  checked_bind (checked_rejectIf trivial) fun _ _ =>
    checked_bind (checked_okOr trivial) fun _ _ =>
    checked_bind (checked_rejectIf trivial) fun _ _ => checked_validatePageRange

theorem validateMappingRange_ok {base : Nat}
    (h : validateMappingRange region base offset length = .ok range) :
    range.1 * pageSize = offset ∧ range.1 + range.2 ≤ region.anchors.len ∧
      base + range.2 * pageSize ≤ userAddressCeiling := by
  unfold validateMappingRange at h
  simp only [bind_eq_ok_iff, rejectIf_eq_ok_iff, okOr_eq_ok_iff,
    or_eq_false_iff, decide_eq_false_iff_not] at h
  obtain ⟨-, -, stop, hstop, -, ⟨-, hend⟩, hrange⟩ := h
  obtain ⟨hoffset, hlength, hfits⟩ := validatePageRange_ok hrange
  have hsum := addWithin_eq_some hstop
  exact ⟨hoffset, hfits, by omega⟩

theorem checked_preflightChargeSlot : Checked (table.preflightChargeSlot holder) :=
  checked_rejectIf trivial

theorem checked_preflightBufferCharge : Checked (table.preflightBufferCharge holder pages) :=
  checked_bind (checked_rejectIf trivial) fun _ _ =>
    checked_bind (checked_rejectIf trivial) fun _ _ => checked_rejectIf trivial

theorem preflightBufferCharge_ok {answer : Unit}
    (h : table.preflightBufferCharge holder pages = .ok answer) :
    table.totalPages + pages ≤ maxTotalPages := by
  unfold preflightBufferCharge at h
  simp only [bind_eq_ok_iff, rejectIf_eq_ok_iff] at h
  obtain ⟨-, -, -, -, htotal⟩ := h
  obtain ⟨sum, hsum, hle⟩ : ∃ sum, addWithin 64 table.totalPages pages = some sum ∧
      sum ≤ maxTotalPages := by
    rcases hadd : addWithin 64 table.totalPages pages with _ | sum
    · rw [hadd] at htotal
      cases htotal
    · rw [hadd] at htotal
      exact ⟨sum, rfl, by simpa using htotal⟩
  rw [← addWithin_eq_some hsum]
  exact hle

theorem checked_preflightAnchorUniqueness {anchors : FrameAnchors} :
    Checked (table.preflightAnchorUniqueness anchors) := checked_rejectIf trivial

end Lookups

section Calls

variable {table : SharedBufferTable}

/-- A refusal by the table alone leaves it as it was. -/
def Refused (table : SharedBufferTable) (fault : Fault SharedBufferError)
    (table' : SharedBufferTable) : Prop :=
  (∃ error, fault = .returned error ∧ Reported error) ∧ table' = table

theorem refused {error : SharedBufferError} (h : Reported error) :
    Refused table (.returned error) table := ⟨⟨error, rfl, h⟩, rfl⟩

def Grown (table table' : SharedBufferTable) : Prop :=
  Change none table table' ∧ ∀ held, Covers table held → Covers table' held

theorem grown_of_same {table' : SharedBufferTable} (hchange : Change none table table')
    (hmappings : table'.mappings = table.mappings)
    (hregions : ∀ j region, Holds table.regions j region → Holds table'.regions j region)
    (horphans : table'.orphans = table.orphans) : Grown table table' := by
  refine ⟨hchange, fun held h => h.mono ?_ ?_ ?_⟩
  · intro i mapping hmapping
    rw [hmappings]
    exact ⟨mapping.rights, hmapping⟩
  · exact fun j region hregion => ⟨region, hregions j region hregion, rfl, rfl⟩
  · rw [horphans]
    exact fun i orphan horphan => horphan

theorem declareQuota_ensures (holder : HolderId) (quota : HolderQuota) :
    Ensures (declareQuota holder quota) table
      (Call.Leads (Refused table) fun _ => Grown table) := by
  refine ensures_read (ensures_okOr trivial (fun slot _ => ?_) fun error => refused)
  exact grown_of_same (quotas _) rfl (fun _ _ hregion => hregion) rfl

theorem releaseQuota_ensures (holder : HolderId) :
    Ensures (releaseQuota holder) table (Call.Leads (Refused table) fun _ => Grown table) := by
  apply ensures_read
  split
  · exact grown_of_same (quotas table.quotas) rfl (fun _ _ hregion => hregion) rfl
  · exact grown_of_same (quotas _) rfl (fun _ _ hregion => hregion) rfl

theorem commitCreate_ensures (h : Sound table) (plan : CreatePlan) :
    Ensures (commitCreate plan) table (Call.Leads (Refused table) fun _ => Grown table) := by
  refine ensures_read (ensures_rejectIf trivial (fun hepoch => ?_) fun error => refused)
  refine ensures_rejectIf trivial (fun hslot => ?_) fun error => refused
  refine ensures_checked checked_preflightAnchorUniqueness (fun _ hfresh => ?_) fun error => refused
  refine ensures_checked checked_preflightBufferCharge (fun _ hpages => ?_) fun error => refused
  refine ensures_checked checked_preflightChargeSlot (fun _ hcharge => ?_) fun error => refused
  obtain ⟨hid, hfree⟩ := or_eq_false_iff.mp hslot
  have hid : table.nextBufferId = plan.id := by simpa using hid
  have hepoch : plan.epoch = table.epoch := by simpa using hepoch
  have hfree : table.regions[plan.slot]? = some none := by
    rcases hget : table.regions[plan.slot]? with _ | held
    · rw [hget] at hfree
      cases hfree
    · rw [hget] at hfree
      exact congrArg some (by simpa using hfree)
  apply ensures_modify
  refine ensures_bind (charge_ensures h.balanced.records rfl hcharge
    (by simp [HolderOccupancy.empty]) (owes_put_region hfree)) ?_ ?_
  · rintro _ _ ⟨-, charges, rfl, hrecords⟩
    refine grown_of_same ?_ rfl (fun j region hregion => holds_put hfree hregion) rfl
    refine created plan.slot _ plan.nextId charges hfree hid.symm ?_ hepoch rfl rfl
      (fun i other cap hother hcap hlive => ?_) (preflightBufferCharge_ok hpages) ⟨hrecords, ?_⟩
    · rw [hid]
      exact plan.next
    · have hany := rejectIf_eq_ok_iff.mp hfresh
      rw [List.any_eq_false] at hany
      apply hany cap hcap
      exact List.any_eq_true.mpr ⟨other, mem_entries.mpr ⟨i, hother⟩, by simpa using hlive⟩
    · refine Eq.trans (congrArg (· + plan.anchors.len) h.balanced.pages) (Eq.symm ?_)
      exact total_put _ hfree
  · rintro fault _ ⟨hfault, -⟩
    cases hfault

theorem create_ensures (h : Sound table) (owner : HolderId) (anchors : FrameAnchors)
    (writable : Bool) :
    Ensures (create owner anchors writable) table
      (Call.Leads (Refused table) fun _ => Grown table) := by
  have hchecked : Checked (table.preflightCreate owner anchors writable) := by
    unfold preflightCreate
    split
    · refine checked_bind ?_ fun _ _ => checked_bind checked_preflightAnchorUniqueness fun _ _ =>
        checked_bind (checked_okOr trivial) fun _ _ =>
        checked_bind checked_preflightChargeSlot fun _ _ => ?_
      · exact checked_bind (checked_rejectIf trivial) fun _ _ =>
          checked_bind checked_preflightBufferCharge fun _ _ =>
          checked_bind (checked_rejectIf trivial) fun _ _ =>
          checked_bind checked_preflightChargeSlot fun _ _ =>
          checked_bind (checked_okOr trivial) fun _ _ => checked_pure _
      · split
        · exact fun fault hfault => ⟨_, (error.inj hfault).symm, trivial⟩
        · exact checked_pure _
    · exact fun fault hfault => ⟨_, (error.inj hfault).symm, trivial⟩
  refine ensures_read (ensures_checked hchecked (fun plan _ => ?_) fun error => refused)
  exact commitCreate_ensures h plan

theorem loan_ensures (h : Sound table) (lender receiver : HolderId) (handle : BufferHandle)
    (offset length : Nat) (writable : Bool) :
    Ensures (loan lender receiver handle offset length writable) table
      (Call.Leads (Refused table) fun _ => Grown table) := by
  refine ensures_read (ensures_checked checked_authorize (fun region hregion => ?_)
    fun error => refused)
  obtain ⟨i, hregion, hbuffer, howner⟩ := authorize_ok hregion
  have hchecked : Checked (region.checkLoan writable) := by
    unfold Region.checkLoan
    split <;> exact checked_rejectIf trivial
  refine ensures_checked hchecked (fun _ hcheck => ?_) fun error => refused
  refine ensures_checked checked_validatePageRange (fun range hrange => ?_) fun error => refused
  refine ensures_rejectIf trivial (fun _ => ?_) fun error => refused
  refine ensures_okOr trivial (fun slot hslot => ?_) fun error => refused
  refine ensures_checked checked_preflightChargeSlot (fun _ hcharge => ?_) fun error => refused
  refine ensures_okOr trivial (fun nextId hnext => ?_) fun error => refused
  refine ensures_rejectIf trivial (fun _ => ?_) fun error => refused
  refine ensures_rejectIf trivial (fun _ => ?_) fun error => refused
  have hfree := freeSlot_eq_some hslot
  apply ensures_modify
  refine ensures_bind (charge_ensures h.balanced.records rfl hcharge nofun
    (owes_put_loan hfree)) ?_ ?_
  · rintro _ _ ⟨-, charges, rfl, hrecords⟩
    refine grown_of_same ?_ rfl (fun _ _ hregion => hregion) rfl
    refine Change.lent slot i _ region nextId charges hfree rfl hnext hregion hbuffer howner
      (fun hwrite => ?_) ⟨hrecords, h.balanced.pages⟩
    obtain rfl := hwrite
    exact (or_eq_false_iff.mp (rejectIf_eq_ok_iff.mp hcheck)).1
  · rintro fault _ ⟨hfault, -⟩
    cases hfault

end Calls

end SlimeOs.SharedBuffers
