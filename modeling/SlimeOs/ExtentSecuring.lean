import SlimeOs.ExtentForest
import SlimeOs.RootSlotRoom

/-!
What the calls around the extents do to them. Funding checks, kernel calls and the slot pool
leave them alone. Securing descriptors and slots may add vacant entries, and it may adopt a free
extent for the root's own records.
-/

namespace SlimeOs.ExtentBuddy

open FallibleCall FallibleCall.Call ObjectAllocator RootSlotRoom

variable {maxKernelUntypeds index : Nat} {s s' : Backing maxKernelUntypeds} {α : Type}
  {record : ExtentRecord}

structure Aside (s s' : Backing maxKernelUntypeds) : Prop where
  records : s'.extents.records = s.extents.records
  freeBytes : s'.extents.freeBytes = s.extents.freeBytes
  roots : s'.roots = s.roots
  room : KeepsRoom s.slots s'.slots

theorem Aside.trans {s s' s'' : Backing maxKernelUntypeds} (h : Aside s s') (h' : Aside s' s'') :
    Aside s s'' :=
  ⟨h'.records.trans h.records, h'.freeBytes.trans h.freeBytes, h'.roots.trans h.roots,
    h'.room ∘ h.room⟩

instance : IsPreorder (Backing maxKernelUntypeds) Aside where
  refl _ := ⟨rfl, rfl, rfl, id⟩
  trans _ _ _ h h' := h.trans h'

theorem nextAnswer_aside : Moves Aside (nextAnswer : BackingCall maxKernelUntypeds Nat) :=
  fun _ => ⟨rfl, rfl, rfl, id⟩

theorem invoke_aside {ε : Type} (failure : Nat → Option ε) (wrap : ε → AllocError) :
    Moves Aside (invoke failure wrap : BackingCall maxKernelUntypeds Unit) := by
  refine moves_bind nextAnswer_aside fun now => ?_
  split
  · exact moves_lift
  · exact moves_pure _

theorem invoke_ensures {ε : Type} (failure : Nat → Option ε) (wrap : ε → AllocError)
    (s : Backing maxKernelUntypeds) :
    Ensures (invoke failure wrap) s
      (Leads (fun fault s' => (∃ error, fault = .returned error) ∧ Aside s s')
        fun _ s' => Aside s s') := by
  have hmove := nextAnswer_aside s
  apply ensures_bind_ok rfl
  split
  · exact ⟨⟨_, rfl⟩, hmove⟩
  · exact hmove

theorem onSlots_aside {call : RootSlots.PoolCall maxKernelUntypeds α}
    (hcall : Moves KeepsRoom call) : Moves Aside (onSlots call) := by
  intro s
  have hroom := hcall s.slots
  unfold onSlots
  rcases hstep : call s.slots with ⟨(error | _ | _) | a, slots⟩ <;>
    rw [hstep] at hroom <;> exact ⟨rfl, rfl, rfl, hroom⟩

theorem releaseRootSlot_aside (slot : Nat) :
    Moves Aside (releaseRootSlot slot : BackingCall maxKernelUntypeds Unit) :=
  moves_bind (onSlots_aside (release_keepsRoom slot)) fun _ => moves_pure _

theorem releaseRootSlot_ok (hroom : Roomy s.slots) (slot : Nat) :
    (releaseRootSlot slot s).1 = .ok () := by
  obtain ⟨released, hreleased⟩ := release_completes hroom slot
  rcases hstep : RootSlots.release slot s.slots with ⟨outcome, slots⟩
  obtain rfl : outcome = .ok released := by rw [← hreleased, hstep]
  have hcall : onSlots (RootSlots.release slot) s = (.ok released, { s with slots := slots }) := by
    unfold onSlots
    rw [hstep]
  unfold releaseRootSlot
  rw [bind_apply, hcall]
  rfl

section Funding

variable (kernel : BackingKernel)

theorem inventoryNow_aside :
    Moves Aside (inventoryNow kernel : BackingCall maxKernelUntypeds UInt64) :=
  moves_bind nextAnswer_aside fun _ => moves_pure _

theorem checkCommonFunding_aside (bytes : Nat) :
    Moves Aside (checkCommonFunding kernel bytes : BackingCall maxKernelUntypeds Unit) := by
  refine moves_bind (inventoryNow_aside kernel) fun inventory => moves_bind moves_read fun s => ?_
  split <;> exact moves_lift

theorem checkRootFunding_aside (bytes : Nat) :
    Moves Aside (checkRootFunding kernel bytes : BackingCall maxKernelUntypeds Unit) := by
  refine moves_bind (inventoryNow_aside kernel) fun inventory => moves_bind moves_read fun s => ?_
  split <;> exact moves_lift

theorem consumeFunding_aside (take : Funding → Outcome AllocError Funding) :
    Moves Aside (consumeFunding take : BackingCall maxKernelUntypeds Unit) := by
  refine moves_bind moves_read fun s => ?_
  split
  · exact moves_bind moves_lift fun funding => fun _ => ⟨rfl, rfl, rfl, id⟩
  · exact moves_pure _

end Funding

theorem reusable_keeps (table : ExtentTable) (sizeBits : Nat) :
    (table.reusable sizeBits).2.records = table.records ∧
      (table.reusable sizeBits).2.freeBytes = table.freeBytes := by
  unfold ExtentTable.reusable
  split
  · exact ⟨rfl, rfl⟩
  · split
    · exact ⟨rfl, rfl⟩
    · split <;> exact ⟨rfl, rfl⟩

theorem reusableExtent_aside (sizeBits : Nat) :
    Moves Aside (reusableExtent sizeBits : BackingCall maxKernelUntypeds (Option Nat)) := fun s =>
  ⟨(reusable_keeps s.extents sizeBits).1, (reusable_keeps s.extents sizeBits).2, rfl, id⟩

def FreeAt (records : Records) (index : Nat) : Prop :=
  ∃ record, records[index]? = some (some record) ∧ record.isCommonFree = true

/-- What one piece of the root's own bookkeeping does to the extents: nothing, or it adopts a
free one for good, or it adds a page of vacant entries. -/
inductive SecureStep : Backing maxKernelUntypeds → Backing maxKernelUntypeds → Prop
  | aside {s s' : Backing maxKernelUntypeds} (h : Aside s s') : SecureStep s s'
  | adopt {s : Backing maxKernelUntypeds} {index : Nat} {record : ExtentRecord}
      (hfound : s.extents.records[index]? = some (some record))
      (hfree : record.isCommonFree = true) :
      SecureStep s { s with
        extents := s.extents.commit index
          (some (record.assign infrastructureOwner .infrastructure)) }
  | append (s : Backing maxKernelUntypeds) :
      SecureStep s { s with extents := s.extents.append }

def Secured : Backing maxKernelUntypeds → Backing maxKernelUntypeds → Prop :=
  Relation.ReflTransGen SecureStep

instance : IsPreorder (Backing maxKernelUntypeds) Secured where
  refl _ := .refl
  trans _ _ _ h h' := h.trans h'

theorem Aside.secured (h : Aside s s') : Secured s s' := .single (.aside h)

theorem secured_of_aside {x : BackingCall maxKernelUntypeds α} (h : Moves Aside x) :
    Moves Secured x := fun s => (h s).secured

theorem read_eq_some {table : ExtentTable} :
    table.read index = some record ↔ table.records[index]? = some (some record) := by
  unfold ExtentTable.read
  rw [Option.join_eq_some_iff]

theorem mem_firstMinBy {key : α → Nat} {xs : List α} {a : α}
    (h : firstMinBy key xs = some a) : a ∈ xs := by
  induction xs generalizing a with
  | nil => nomatch h
  | cons x xs ih =>
    unfold firstMinBy at h
    split at h
    · obtain rfl := Option.some.inj h
      exact List.mem_cons_self
    rename_i best hbest
    split at h
    · obtain rfl := Option.some.inj h
      exact List.mem_cons_of_mem x (ih hbest)
    · obtain rfl := Option.some.inj h
      exact List.mem_cons_self

theorem mem_freeExtents {accept : ExtentRecord → Bool}
    (h : (index, record) ∈ s.freeExtents accept) :
    s.extents.records[index]? = some (some record) ∧ record.isCommonFree = true := by
  obtain ⟨place, -, hplace⟩ := List.mem_filterMap.mp h
  obtain ⟨found, hfound, hpair⟩ := Option.map_eq_some_iff.mp hplace
  obtain ⟨rfl, rfl⟩ : place = index ∧ found = record := by simpa using hpair
  obtain ⟨hread, haccept⟩ := Option.filter_eq_some_iff.mp hfound
  rw [Bool.and_eq_true] at haccept
  exact ⟨read_eq_some.mp hread, haccept.1⟩

theorem updateExtent_eq (hfound : s.extents.records[index]? = some (some record))
    (change : ExtentRecord → ExtentRecord) :
    updateExtent index change s =
      (.ok (), { s with extents := s.extents.commit index (some (change record)) }) := by
  have hread := read_eq_some.mpr hfound
  simp [updateExtent, setExtents, ExtentTable.update, bind_apply, Call.read, Call.lift, Call.modify,
    hread]

theorem setExtent_eq (hindex : index < s.extents.records.length) (entry : Option ExtentRecord) :
    setExtent index entry s = (.ok (), { s with extents := s.extents.commit index entry }) := by
  simp [setExtent, setExtents, ExtentTable.set, bind_apply, Call.read, Call.lift, Call.modify,
    hindex]

theorem extentAt_eq (hfound : s.extents.records[index]? = some (some record)) :
    extentAt index s = (.ok record, s) := by
  have hread := read_eq_some.mpr hfound
  simp [extentAt, bind_apply, Call.read, Call.lift, Outcome.unwrap, hread]

theorem extentAt_ensures (s : Backing maxKernelUntypeds) (index : Nat) :
    Ensures (extentAt index) s fun outcome s' => s' = s ∧
      ∀ record, outcome = .ok record → s.extents.records[index]? = some (some record) := by
  refine ⟨rfl, ?_⟩
  intro record hok
  exact read_eq_some.mp (Outcome.unwrap_eq_ok_iff.mp hok)

section Secure

variable (kernel : BackingKernel)

theorem adoptReturnedExtent_secured (bytes : Nat) :
    Moves Secured (adoptReturnedExtent kernel bytes : BackingCall maxKernelUntypeds Unit) := by
  intro s
  change Ensures (adoptReturnedExtent kernel bytes) s fun _ s' => Secured s s'
  refine ensures_read (ensures_lift ?_ fun _ => .refl)
  rintro ⟨index, record⟩ hchosen
  have hmem := mem_firstMinBy (Outcome.okOr_eq_ok_iff.mp hchosen)
  obtain ⟨hfound, hfree⟩ := mem_freeExtents hmem
  refine ensures_moves (checkRootFunding_aside kernel _) ?_ fun _ _ h => h.secured
  intro _ s₁ hchecked
  refine ensures_lift (fun infrastructure _ => ensures_modify ?_) fun _ => hchecked.secured
  have hadopted : Aside s { s₁ with infrastructure := infrastructure } :=
    ⟨hchecked.records, hchecked.freeBytes, hchecked.roots, hchecked.room⟩
  refine ensures_moves (consumeFunding_aside _) ?_ fun _ _ h => (hadopted.trans h).secured
  intro _ s₂ hconsumed
  have haside := hadopted.trans hconsumed
  have hfound' : s₂.extents.records[index]? = some (some record) := by
    rw [haside.records]
    exact hfound
  unfold Ensures
  rw [updateExtent_eq hfound']
  exact haside.secured.tail (.adopt hfound' hfree)

theorem replenishInfrastructure_secured (bytes : Nat) :
    Moves Secured (replenishInfrastructure kernel bytes : BackingCall maxKernelUntypeds Unit) := by
  refine moves_bind moves_read fun s => ?_
  split
  · split
    · exact moves_wrapErr (adoptReturnedExtent_secured kernel bytes)
    refine secured_of_aside (moves_bind (checkRootFunding_aside kernel _) fun _ => ?_)
    refine moves_bind moves_lift fun infrastructure => ?_
    refine moves_bind (fun _ => ⟨rfl, rfl, rfl, id⟩) fun _ => ?_
    exact moves_bind (consumeFunding_aside _) fun _ _ => ⟨rfl, rfl, rfl, id⟩
  · exact moves_pure _

theorem fund_secured (demand : Nat → PageDemand) :
    Moves Secured (fund kernel demand : BackingCall maxKernelUntypeds Unit) := by
  refine moves_bind (secured_of_aside nextAnswer_aside) fun now => ?_
  apply moves_bind (moves_fold _ _ fun _ bytes => replenishInfrastructure_secured kernel bytes)
  intro _
  refine moves_bind (fun s => Aside.secured ⟨rfl, rfl, rfl, id⟩) fun _ => ?_
  split
  · exact moves_lift
  · exact moves_pure _

theorem ensureExtentDescriptors_secured (maxTaskExtents free : Nat) :
    Moves Secured (ensureExtentDescriptors kernel maxTaskExtents free :
      BackingCall maxKernelUntypeds Unit) := by
  have hloop (fuel : Nat) :
      Moves Secured (ensureExtentDescriptorsLoop kernel free fuel :
        BackingCall maxKernelUntypeds Unit) := by
    induction fuel with
    | zero => exact moves_lift
    | succ fuel ih =>
      refine moves_bind moves_read fun s => ?_
      split
      · refine moves_bind moves_lift fun _ => moves_bind (fund_secured kernel _) fun _ => ?_
        exact moves_bind (fun s => .single (.append s)) fun _ => ih
      · exact moves_pure _
  exact moves_bind moves_read fun s => moves_bind moves_lift fun _ => hloop _

theorem ensureLeafWords_secured :
    Moves Secured (ensureLeafWords kernel : BackingCall maxKernelUntypeds Unit) := by
  refine moves_bind moves_read fun s => ?_
  split
  · refine moves_bind (fund_secured kernel _) fun _ => ?_
    exact secured_of_aside (onSlots_aside (provision_keepsRoom _))
  · exact moves_pure _

theorem admitLeaf_secured :
    Moves Secured (admitLeaf kernel : BackingCall maxKernelUntypeds Unit) := by
  refine moves_bind (ensureLeafWords_secured kernel) fun _ => ?_
  refine moves_bind (fund_secured kernel _) fun _ => moves_bind moves_read fun s => ?_
  refine secured_of_aside (moves_bind (onSlots_aside (admitRange_keepsRoom _)) ?_)
  exact fun _ _ => ⟨rfl, rfl, rfl, id⟩

theorem ensureRootSlots_secured (free : Nat) :
    Moves Secured (ensureRootSlots kernel free : BackingCall maxKernelUntypeds Unit) := by
  have hloop (fuel : Nat) :
      Moves Secured (ensureRootSlotsLoop kernel free fuel :
        BackingCall maxKernelUntypeds Unit) := by
    induction fuel with
    | zero => exact moves_lift
    | succ fuel ih =>
      refine moves_bind moves_read fun s => ?_
      split
      · exact moves_bind (admitLeaf_secured kernel) fun _ => ih
      · exact moves_pure _
  exact moves_bind moves_read fun s => hloop _

theorem ensureContiguousRootSlots_secured (count : Nat) :
    Moves Secured (ensureContiguousRootSlots kernel count :
      BackingCall maxKernelUntypeds Unit) := by
  refine moves_bind moves_read fun s => moves_bind moves_lift fun _ => ?_
  refine moves_bind (ensureRootSlots_secured kernel count) fun _ =>
    moves_bind moves_read fun s => ?_
  split
  · exact ensureRootSlots_secured kernel _
  · exact moves_pure _

theorem takeSlot_secured : Moves Secured (takeSlot kernel : BackingCall maxKernelUntypeds Nat) := by
  refine moves_bind (ensureRootSlots_secured kernel 1) fun _ => moves_bind moves_read fun s => ?_
  refine secured_of_aside (moves_bind (onSlots_aside (allocate_keepsRoom _)) fun answer => ?_)
  exact moves_bind (fun _ => ⟨rfl, rfl, rfl, id⟩) fun _ => moves_pure _

end Secure

end SlimeOs.ExtentBuddy
