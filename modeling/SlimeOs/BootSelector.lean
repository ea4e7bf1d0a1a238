import SlimeOs.BootSlots

/-!
The boot selector of the root task: it picks a generation from the durable slots,
spends an attempt of a staged one before its bytes are read, and later confirms
it from the selection kept in memory. Stages are made on the same slots here, to see
what the protocol gives once they share one; the decision record keeps the disk a
manager stages on apart from the one the selector selects from.

A device answers a bounded number of operations and then loses power. What a
boot reads besides the slots is an oracle, so that every way its verification
can fail is covered.
-/

namespace SlimeOs.BootSelector

open BootSlots BootStateCodec ByteLayout FallibleCall FallibleCall.Outcome FallibleCall.Call

inductive SelectorError where
  | noBootDevice
  | device
  | gpt
  | directory
  | bootState
  | missingGeneration
  | generation
  | release
  | wrongBootBundle
  | commit
deriving DecidableEq

structure DirectoryEntry where
  identity : Digest
  generationOffset : UInt64
  generationLen : Nat
  releaseOffset : UInt64
deriving DecidableEq

/-- What a boot reads of the store besides the slots. `directory` is the located
partition's directory. `verify` reads an entry's generation and release and checks
them against each other, the trust root and the boot bundle; it answers the
release's sequence. -/
structure BootStore where
  directory : Outcome SelectorError (List DirectoryEntry)
  verify : DirectoryEntry → Outcome SelectorError UInt64

/-- The slots of a block device that answers `ticks` more operations. -/
structure Device where
  slots : Slots
  ticks : Nat

/-- Durable selection context retained while the selected graph runs. -/
structure BootRuntime where
  selected : SelectedBootState
  runningIdentity : Digest
  releaseSequence : UInt64
  runningPending : Bool
deriving DecidableEq

def Device.answer {α : Type} (error : SelectorError) (operation : Slots → α × Slots) :
    Call Device SelectorError α := fun device =>
  match device.ticks with
  | 0 => (.error (.returned error), device)
  | ticks + 1 => (.ok (operation device.slots).1, ⟨(operation device.slots).2, ticks⟩)

def readSector (slot : Slot) : Call Device SelectorError (Bytes slotBytes) :=
  Device.answer .device fun slots => (slots.get slot, slots)

def writeSector (slot : Slot) (bytes : Bytes slotBytes) : Call Device SelectorError Unit :=
  Device.answer .commit fun slots => ((), slots.set slot bytes)

def flush : Call Device SelectorError Unit :=
  Device.answer .commit fun slots => ((), slots)

section Calls

variable (sha256 : List UInt8 → Digest)

def readBootstate : Call Device SelectorError SelectedBootState := do
  let a ← readSector .a
  let b ← readSector .b
  Call.lift (mapErr (selectBootstate sha256 a b) .bootState)

def commitState (selected : Slot) (state : BootState) :
    Call Device SelectorError SelectedBootState := do
  let target := selected.other
  let bytes ← Call.lift (mapErr (encode sha256 state) .commit)
  writeSector target bytes
  flush
  let live ← readBootstate sha256
  Call.rejectIf (live.slot != target || live.state != state) .commit
  pure live

def BootRuntime.confirm (runtime : BootRuntime) : Call Device SelectorError BootRuntime := do
  Call.rejectIf (!runtime.runningPending) .bootState
  let promoted ← Call.lift (mapErr
    (runtime.selected.state.promotePending runtime.runningIdentity runtime.releaseSequence)
    .bootState)
  let selected ← commitState sha256 runtime.selected.slot promoted
  pure { runtime with selected := selected, runningPending := false }

def directoryRoot (entries : List DirectoryEntry) : Digest :=
  sha256 (entries.flatMap fun entry => entry.identity.toList)

/-- A live candidate spends one attempt before it is verified; an exhausted one is
cleared only after the known-good generation has been. -/
def select (store : BootStore) : Call Device SelectorError BootRuntime := do
  let entries ← Call.lift store.directory
  let generationRoot := directoryRoot sha256 entries
  let selected ← readBootstate sha256
  Call.rejectIf (selected.state.generationRoot != generationRoot) .bootState
  let selectionState := selected.state
  let pendingExhausted :=
    selectionState.pending.isSome && selectionState.remainingAttempts == 0
  let runningPending :=
    selectionState.pending.isSome && decide (0 < selectionState.remainingAttempts)
  let runningIdentity ←
    if runningPending then Call.lift (okOr selectionState.pending .bootState)
    else pure selectionState.knownGood
  let selected ←
    if runningPending then do
      let consumed ←
        Call.lift (mapErr selected.state.consumePendingAttempt .bootState)
      commitState sha256 selected.slot consumed
    else pure selected
  let entry ← Call.lift (okOr
    (entries.find? fun entry => entry.identity == runningIdentity) .missingGeneration)
  let releaseSequence ← Call.lift (store.verify entry)
  if runningPending then
    Call.rejectIf (releaseSequence ≤ selectionState.acceptedReleaseSequence) .release
  else
    Call.rejectIf (selectionState.acceptedReleaseSequence < releaseSequence) .release
  let selected ←
    if pendingExhausted then do
      let rolledBack ←
        Call.lift (mapErr selected.state.rollbackPending .bootState)
      commitState sha256 selected.slot rolledBack
    else pure selected
  pure ⟨selected, runningIdentity, releaseSequence, runningPending⟩

/-- The generation manager's stage request: its commit writes and re-reads the slots
as the selector's does, and gives up where the selector returns an error. -/
def stage (pending : Digest) (attempts : UInt32) (generationRoot stateRoot : Digest) :
    Call Device SelectorError SelectedBootState := do
  let selected ← readBootstate sha256
  let staged ← Call.lift (mapErr
    (selected.state.stagePending pending attempts generationRoot stateRoot) .bootState)
  commitState sha256 selected.slot staged

end Calls

section Specifications

variable {sha256 : List UInt8 → Digest}

theorem answer_ensures {α : Type} (error : SelectorError) (operation : Slots → α × Slots)
    (device : Device) :
    Ensures (Device.answer error operation) device fun outcome device' =>
      match outcome with
      | .ok a => (a, device'.slots) = operation device.slots
      | .error _ => device'.slots = device.slots := by
  rcases device with ⟨slots, _ | -⟩ <;> rfl

theorem readBootstate_ensures (device : Device) :
    Ensures (readBootstate sha256) device fun outcome device' =>
      device'.slots = device.slots ∧ ∀ selected, outcome = .ok selected →
        selectBootstate sha256 device.slots.a device.slots.b = .ok selected := by
  refine ensures_bind (answer_ensures ..) ?_ fun fault s' h => ⟨h, nofun⟩
  intro a first hread
  obtain ⟨rfl, hfirst⟩ := Prod.mk.inj hread
  refine ensures_bind (answer_ensures ..) ?_ fun fault s' h => ⟨h.trans hfirst, nofun⟩
  intro b second hread
  obtain ⟨rfl, hsecond⟩ := Prod.mk.inj hread
  rw [hfirst] at hsecond ⊢
  refine ⟨hsecond, ?_⟩
  intro selected hselected
  exact mapErr_eq_ok_iff.mp hselected

/-- A commit writes nothing and fails, or it writes the whole slot; it succeeds only
when the slots then select what it wrote. -/
inductive Committed (sha256 : List UInt8 → Digest) (slot : Slot) (next : BootState)
    (before : Slots) : Outcome SelectorError SelectedBootState → Slots → Prop where
  | untouched (fault : Fault SelectorError) :
      Committed sha256 slot next before (.error fault) before
  | unanswered (fault : Fault SelectorError) (hvalid : validate next = .ok ()) :
      Committed sha256 slot next before (.error fault)
        (before.set slot.other (image sha256 next))
  | selected (hvalid : validate next = .ok ())
      (hselected : selectBootstate sha256 (before.set slot.other (image sha256 next)).a
        (before.set slot.other (image sha256 next)).b = .ok ⟨slot.other, next⟩) :
      Committed sha256 slot next before (.ok ⟨slot.other, next⟩)
        (before.set slot.other (image sha256 next))

theorem commitState_ensures (slot : Slot) (next : BootState) (device : Device) :
    Ensures (commitState sha256 slot next) device fun outcome device' =>
      Committed sha256 slot next device.slots outcome device'.slots := by
  refine ensures_lift ?_ fun fault => .untouched fault
  intro bytes hbytes
  obtain ⟨hvalid, rfl⟩ := (encode_eq_ok_iff _).mp (mapErr_eq_ok_iff.mp hbytes)
  apply ensures_bind (answer_ensures ..)
  · rintro ⟨⟩ written hwritten
    replace hwritten :=
      (Prod.mk.inj hwritten).2
    have hunanswered (fault : Fault SelectorError) :
        Committed sha256 slot next device.slots (.error fault) written.slots := by
      rw [hwritten]
      exact .unanswered fault hvalid
    refine ensures_bind (answer_ensures ..) ?_ fun fault s' h => h ▸ hunanswered fault
    rintro ⟨⟩ flushed hflushed
    replace hflushed := (Prod.mk.inj hflushed).2
    apply ensures_bind (readBootstate_ensures flushed)
    · rintro live reread ⟨hreread, hlive⟩
      have hslots := hreread.trans hflushed
      refine ensures_rejectIf ?_ fun fault => hslots ▸ hunanswered fault
      intro haccepted
      obtain ⟨hslot, hstate⟩ : live.slot = slot.other ∧ live.state = next := by
        simpa using haccepted
      obtain rfl : live = ⟨slot.other, next⟩ := by rw [← hslot, ← hstate]
      apply ensures_pure
      rw [hslots, hwritten]
      refine .selected hvalid ?_
      rw [← hwritten, ← hflushed]
      exact hlive _ rfl
    · rintro fault reread ⟨hreread, -⟩
      rw [hreread, hflushed]
      exact hunanswered fault
  · intro fault written hwritten
    rw [hwritten]
    exact .untouched fault

/-- Everything one boot can do with the slots: nothing, launch the known-good generation,
spend an attempt of the pending one, or clear an exhausted one. It launches after
spending or clearing only when that commit succeeded. -/
inductive Booted (sha256 : List UInt8 → Digest) (before : Slots) :
    Outcome SelectorError BootRuntime → Slots → Prop where
  | failed (fault : Fault SelectorError) : Booted sha256 before (.error fault) before
  | launchedKnownGood {live : SelectedBootState} (releaseSequence : UInt64)
      (hlive : selectBootstate sha256 before.a before.b = .ok live)
      (hpending : live.state.pending = none) :
      Booted sha256 before (.ok ⟨live, live.state.knownGood, releaseSequence, false⟩) before
  | spent {live : SelectedBootState} {consumed : BootState} {after : Slots}
      {outcome : Outcome SelectorError SelectedBootState} (fault : Fault SelectorError)
      (hlive : selectBootstate sha256 before.a before.b = .ok live)
      (hconsumed : live.state.consumePendingAttempt = .ok consumed)
      (hcommitted : Committed sha256 live.slot consumed before outcome after) :
      Booted sha256 before (.error fault) after
  | launchedPending {live selected : SelectedBootState} {consumed : BootState} {after : Slots}
      {pending : Digest} {releaseSequence : UInt64}
      (hlive : selectBootstate sha256 before.a before.b = .ok live)
      (hpending : live.state.pending = some pending)
      (hconsumed : live.state.consumePendingAttempt = .ok consumed)
      (hcommitted : Committed sha256 live.slot consumed before (.ok selected) after)
      (hrelease : live.state.acceptedReleaseSequence < releaseSequence) :
      Booted sha256 before (.ok ⟨selected, pending, releaseSequence, true⟩) after
  | cleared {live : SelectedBootState} {rolledBack : BootState} {after : Slots}
      {outcome : Outcome SelectorError SelectedBootState} (fault : Fault SelectorError)
      (hlive : selectBootstate sha256 before.a before.b = .ok live)
      (hpending : live.state.pending ≠ none) (hexhausted : live.state.remainingAttempts = 0)
      (hrolledBack : live.state.rollbackPending = .ok rolledBack)
      (hcommitted : Committed sha256 live.slot rolledBack before outcome after) :
      Booted sha256 before (.error fault) after
  | launchedFallback {live selected : SelectedBootState} {rolledBack : BootState}
      {after : Slots} {releaseSequence : UInt64}
      (hlive : selectBootstate sha256 before.a before.b = .ok live)
      (hpending : live.state.pending ≠ none) (hexhausted : live.state.remainingAttempts = 0)
      (hrolledBack : live.state.rollbackPending = .ok rolledBack)
      (hcommitted : Committed sha256 live.slot rolledBack before (.ok selected) after) :
      Booted sha256 before
        (.ok ⟨selected, live.state.knownGood, releaseSequence, false⟩) after

theorem select_ensures (store : BootStore) (device : Device) :
    Ensures (select sha256 store) device fun outcome device' =>
      Booted sha256 device.slots outcome device'.slots := by
  refine ensures_lift ?_ fun fault => .failed fault
  intro entries _
  refine ensures_bind (readBootstate_ensures device) ?_
    fun fault s' h => h.1 ▸ .failed fault
  rintro live reread ⟨hreread, hselect⟩
  replace hselect := hselect live rfl
  have hfailed (fault : Fault SelectorError) :
      Booted sha256 device.slots (.error fault) reread.slots := hreread ▸ .failed fault
  refine ensures_rejectIf ?_ hfailed
  intro _
  rcases hpending : live.state.pending with _ | pending
  -- nothing is staged: the known-good generation is verified and nothing is written
  · simp only [hpending, Option.isSome_none, Bool.false_and, Bool.false_eq_true, if_false]
    refine ensures_pure_bind (ensures_pure_bind ?_)
    refine ensures_lift (fun entry _ => ?_) hfailed
    refine ensures_lift (fun releaseSequence _ => ?_) hfailed
    refine ensures_rejectIf (fun _ => ?_) hfailed
    refine ensures_pure_bind (ensures_pure ?_)
    rw [hreread]
    exact .launchedKnownGood releaseSequence hselect hpending
  have hstaged : live.state.pending ≠ none := by
    rw [hpending]
    nofun
  by_cases hexhausted : live.state.remainingAttempts = 0
  -- the attempts are spent: the fallback is verified before the pending one is cleared
  · simp only [hpending, hexhausted, Option.isSome_some, Bool.true_and, beq_self_eq_true,
      if_true, UInt32.lt_irrefl, decide_false, Bool.false_eq_true, if_false]
    refine ensures_pure_bind (ensures_pure_bind ?_)
    refine ensures_lift (fun entry _ => ?_) hfailed
    refine ensures_lift (fun releaseSequence _ => ?_) hfailed
    refine ensures_rejectIf (fun _ => ?_) hfailed
    refine ensures_lift (fun rolledBack hrolledBack => ?_) hfailed
    replace hrolledBack := mapErr_eq_ok_iff.mp hrolledBack
    apply ensures_bind (commitState_ensures live.slot rolledBack reread)
    · intro selected after hcommitted
      rw [hreread] at hcommitted
      exact .launchedFallback hselect hstaged hexhausted hrolledBack hcommitted
    · intro fault after hcommitted
      rw [hreread] at hcommitted
      exact .cleared fault hselect hstaged hexhausted hrolledBack hcommitted
  -- a live candidate: its attempt is spent before anything of it is read
  · have hleft : 0 < live.state.remainingAttempts := by
      exact Nat.pos_of_ne_zero fun h => hexhausted (UInt32.toNat_inj.mp h)
    simp only [hpending, Option.isSome_some, Bool.true_and, hleft, decide_true, if_true,
      beq_eq_false_iff_ne.mpr hexhausted, Bool.false_eq_true, if_false]
    refine ensures_lift (fun running hrunning => ?_) hfailed
    obtain rfl : pending = running := by simpa [okOr] using hrunning
    refine ensures_lift (fun consumed hconsumed => ?_) hfailed
    replace hconsumed := mapErr_eq_ok_iff.mp hconsumed
    apply ensures_bind (commitState_ensures live.slot consumed reread)
    · intro selected after hcommitted
      rw [hreread] at hcommitted
      have hspent (fault : Fault SelectorError) :
          Booted sha256 device.slots (.error fault) after.slots :=
        .spent fault hselect hconsumed hcommitted
      refine ensures_lift (fun entry _ => ?_) hspent
      refine ensures_lift (fun releaseSequence _ => ?_) hspent
      refine ensures_rejectIf (fun hrelease => ?_) hspent
      refine ensures_pure_bind (ensures_pure ?_)
      refine .launchedPending hselect hpending hconsumed hcommitted ?_
      simpa using hrelease
    · intro fault after hcommitted
      rw [hreread] at hcommitted
      exact .spent fault hselect hconsumed hcommitted

/-- A confirmation promotes the state it kept from the boot, not the live one. -/
theorem confirm_ensures (runtime : BootRuntime) (device : Device) :
    Ensures (runtime.confirm sha256) device fun outcome device' =>
      (device'.slots = device.slots ∧ ∃ fault, outcome = .error fault) ∨
      ∃ promoted committed, runtime.runningPending = true ∧
        runtime.selected.state.promotePending runtime.runningIdentity runtime.releaseSequence =
          .ok promoted ∧
        Committed sha256 runtime.selected.slot promoted device.slots committed device'.slots ∧
        outcome = committed.map fun selected =>
          { runtime with selected := selected, runningPending := false } := by
  refine ensures_rejectIf (fun hpending => ?_) fun fault => .inl ⟨rfl, fault, rfl⟩
  refine ensures_lift (fun promoted hpromoted => ?_) fun fault => .inl ⟨rfl, fault, rfl⟩
  replace hpending : runtime.runningPending = true := by simpa using hpending
  replace hpromoted := mapErr_eq_ok_iff.mp hpromoted
  apply ensures_bind (commitState_ensures runtime.selected.slot promoted device)
  · intro selected after hcommitted
    exact .inr ⟨promoted, .ok selected, hpending, hpromoted, hcommitted, rfl⟩
  · intro fault after hcommitted
    exact .inr ⟨promoted, .error fault, hpending, hpromoted, hcommitted, rfl⟩

theorem stage_ensures (pending : Digest) (attempts : UInt32) (generationRoot stateRoot : Digest)
    (device : Device) :
    Ensures (stage sha256 pending attempts generationRoot stateRoot) device
      fun outcome device' =>
      device'.slots = device.slots ∨
      ∃ live staged, selectBootstate sha256 device.slots.a device.slots.b = .ok live ∧
        live.state.stagePending pending attempts generationRoot stateRoot = .ok staged ∧
        Committed sha256 live.slot staged device.slots outcome device'.slots := by
  refine ensures_bind (readBootstate_ensures device) ?_ fun fault s' h => .inl h.1
  rintro live reread ⟨hreread, hselect⟩
  replace hselect := hselect live rfl
  refine ensures_lift (fun staged hstaged => ?_) fun fault => .inl hreread
  replace hstaged := mapErr_eq_ok_iff.mp hstaged
  have hcommitted := @commitState_ensures sha256 live.slot staged reread
  rw [hreread] at hcommitted
  exact .inr ⟨live, staged, hselect, hstaged, hcommitted⟩

end Specifications

section Uninterrupted

variable {sha256 : List UInt8 → Digest} {slots : Slots} {live : SelectedBootState}

theorem readBootstate_completes (hlive : selectBootstate sha256 slots.a slots.b = .ok live)
    (ticks : Nat) : readBootstate sha256 ⟨slots, ticks + 2⟩ = (.ok live, ⟨slots, ticks⟩) := by
  change (mapErr (selectBootstate sha256 slots.a slots.b) SelectorError.bootState, _) = _
  rw [hlive]
  rfl

/-- On a device that answers, a commit writes the slot and compares it with what is then selected.
-/
theorem commitState_answered {slot : Slot} {next : BootState} (hvalid : validate next = .ok ())
    (hlive : selectBootstate sha256 (slots.set slot.other (image sha256 next)).a
      (slots.set slot.other (image sha256 next)).b = .ok live) (ticks : Nat) :
    commitState sha256 slot next ⟨slots, ticks + 4⟩ =
      (if live = ⟨slot.other, next⟩ then .ok live else .error (.returned .commit),
        ⟨slots.set slot.other (image sha256 next), ticks⟩) := by
  have hencode : encode sha256 next = .ok (image sha256 next) :=
    (encode_eq_ok_iff _).mpr ⟨hvalid, rfl⟩
  unfold commitState
  rw [hencode]
  change (readBootstate sha256 >>= fun live => _) (⟨_, ticks + 2⟩ : Device) = _
  rw [bind_apply, readBootstate_completes hlive]
  by_cases hsame : live = ⟨slot.other, next⟩
  · subst hsame
    simp only [bne_self_eq_false, Bool.or_false, if_true]
    rfl
  have hmismatch : (live.slot != slot.other || live.state != next) = true := by
    by_contra hmatch
    obtain ⟨hslot, hstate⟩ : live.slot = slot.other ∧ live.state = next := by
      simpa using hmatch
    exact hsame (by rw [← hslot, ← hstate])
  simp only [hmismatch, if_neg hsame]
  rfl

theorem confirm_of_commitState {runtime : BootRuntime} {promoted : BootState}
    {device device' : Device} {outcome : Outcome SelectorError SelectedBootState}
    (hrunning : runtime.runningPending = true)
    (hpromoted : runtime.selected.state.promotePending runtime.runningIdentity
      runtime.releaseSequence = .ok promoted)
    (hcommit : commitState sha256 runtime.selected.slot promoted device = (outcome, device')) :
    runtime.confirm sha256 device =
      (outcome.map fun selected =>
        { runtime with selected := selected, runningPending := false }, device') := by
  unfold BootRuntime.confirm
  rw [hrunning, hpromoted]
  change (commitState sha256 runtime.selected.slot promoted >>= fun selected => _) device = _
  rw [bind_apply, hcommit]
  cases outcome <;> rfl

end Uninterrupted

end SlimeOs.BootSelector
