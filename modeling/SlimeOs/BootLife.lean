import SlimeOs.BootSelector

/-!
The life of a machine: boots, confirmations, stages and power losses in any
order over the same two slots.

A confirmation acts on the selection its boot kept in memory. `Tracks` says how
far the live slot can have moved on from it. As long as a confirmation does not
overwrite a slot that is more than one commit ahead of that selection, no step
takes the durable state back; `Moved` lists what each step can do to it.
-/

namespace SlimeOs.BootLife

open BootSelector BootSlots BootStateCodec ByteLayout Except FallibleCall Option

/-- A machine: its slots, the context of the running boot, and the pending generation
that boot launched, if it launched one. -/
structure Life where
  slots : Slots
  runtime : Option BootRuntime
  launched : Option Digest

open Life

/-- What can happen to a machine. A call whose device stops answering has lost power,
which a power loss after it shows, or met a device error. -/
inductive Step where
  | boot (store : BootStore) (ticks : Nat)
  | confirm (ticks : Nat)
  | stage (pending : Digest) (attempts : UInt32) (generationRoot stateRoot : Digest)
      (ticks : Nat)
  | powerLoss

namespace Life

def begin (slots : Slots) : Life := ⟨slots, none, none⟩

def live (sha256 : List UInt8 → Digest) (life : Life) :
    Outcome SelectionError SelectedBootState :=
  selectBootstate sha256 life.slots.a life.slots.b

def afterBoot (slots : Slots) : Outcome SelectorError BootRuntime → Life
  | .ok runtime =>
    ⟨slots, some runtime, if runtime.runningPending then some runtime.runningIdentity else none⟩
  | .error _ => ⟨slots, none, none⟩

def afterConfirm (life : Life) (slots : Slots) : Outcome SelectorError BootRuntime → Life
  | .ok runtime => { life with slots := slots, runtime := some runtime }
  | .error _ => { life with slots := slots }

def step (sha256 : List UInt8 → Digest) (life : Life) : Step → Life
  | .boot store ticks =>
    let (outcome, device) := select sha256 store ⟨life.slots, ticks⟩
    afterBoot device.slots outcome
  | .confirm ticks =>
    match life.runtime with
    | none => life
    | some runtime =>
      let (outcome, device) := runtime.confirm sha256 ⟨life.slots, ticks⟩
      life.afterConfirm device.slots outcome
  | .stage pending attempts generationRoot stateRoot ticks =>
    { life with
      slots := (stage sha256 pending attempts generationRoot stateRoot
        ⟨life.slots, ticks⟩).2.slots }
  | .powerLoss => ⟨life.slots, none, none⟩

/-- The pending generation a step launches: the one its selection returned. -/
def launch (sha256 : List UInt8 → Digest) (life : Life) (step : Step) : Option Digest :=
  match step with
  | .boot _ _ => (life.step sha256 step).launched
  | _ => none

/-- A confirmation finds the live state in the slot it was selected from, or at most
one commit ahead of the selection its boot kept. -/
def Fresh (sha256 : List UInt8 → Digest) (life : Life) : Step → Prop
  | .confirm _ => ∀ runtime live, life.runtime = some runtime →
      runtime.runningPending = true → life.live sha256 = .ok live →
      live.slot = runtime.selected.slot ∨
        live.state.sequence.toNat ≤ runtime.selected.state.sequence.toNat + 1
  | _ => True

end Life

/-- The live slot, with the other one strictly older if it decodes at all. -/
def Leads (sha256 : List UInt8 → Digest) (slots : Slots) (live : SelectedBootState) : Prop :=
  decode sha256 (slots.get live.slot) = .ok live.state ∧
  ∀ state, decode sha256 (slots.get live.slot.other) = .ok state →
    state.sequence < live.state.sequence

/-- Where commits one after another can have taken the live state since a snapshot:
the slots alternate and each commit adds one to the sequence. -/
def Tracks (snapshot live : SelectedBootState) : Prop :=
  live = snapshot ∨
  (live.slot = snapshot.slot ∧ snapshot.state.sequence.toNat + 2 ≤ live.state.sequence.toNat) ∨
  (live.slot = snapshot.slot.other ∧ snapshot.state.sequence.toNat + 1 ≤ live.state.sequence.toNat)

/-- The context of a boot that launched a pending generation and may still confirm it. -/
structure Traced (sha256 : List UInt8 → Digest) (life : Life) (runtime : BootRuntime)
    (live : SelectedBootState) : Prop where
  leads : Leads sha256 life.slots live
  tracks : Tracks runtime.selected live
  accepted : live.state.acceptedReleaseSequence =
      runtime.selected.state.acceptedReleaseSequence ∨
    live.state.knownGood = runtime.runningIdentity
  launched : life.launched = some runtime.runningIdentity

def Sound (sha256 : List UInt8 → Digest) (life : Life) : Prop :=
  ∀ runtime, life.runtime = some runtime → runtime.runningPending = true →
    ∃ live, Traced sha256 life runtime live

/-- Everything a step can do to the live state. -/
inductive Moved (life : Life) (live : SelectedBootState) :
    Step → Option Digest → SelectedBootState → Prop where
  | stayed (step : Step) : Moved life live step none live
  | spent (store : BootStore) (ticks : Nat) {launch : Option Digest} {consumed : BootState}
      (hconsumed : live.state.consumePendingAttempt = .ok consumed)
      (hlaunch : launch = none ∨ launch = live.state.pending) :
      Moved life live (.boot store ticks) launch ⟨live.slot.other, consumed⟩
  | cleared (store : BootStore) (ticks : Nat) {rolledBack : BootState}
      (hpending : live.state.pending ≠ none)
      (hrolledBack : live.state.rollbackPending = .ok rolledBack) :
      Moved life live (.boot store ticks) none ⟨live.slot.other, rolledBack⟩
  | staged (pending : Digest) (attempts : UInt32) (generationRoot stateRoot : Digest)
      (ticks : Nat) {next : BootState}
      (hstaged : live.state.stagePending pending attempts generationRoot stateRoot = .ok next) :
      Moved life live (.stage pending attempts generationRoot stateRoot ticks) none
        ⟨live.slot.other, next⟩
  | promoted (ticks : Nat) {next : SelectedBootState}
      (hlaunched : life.launched = some next.state.knownGood)
      (hpending : next.state.pending = none)
      (haccepted : live.state.acceptedReleaseSequence < next.state.acceptedReleaseSequence ∨
        live.state.knownGood = next.state.knownGood) :
      Moved life live (.confirm ticks) none next

section Commits

variable {sha256 : List UInt8 → Digest} {before after : Slots} {live : SelectedBootState}
  {next : BootState} {outcome : Outcome SelectorError SelectedBootState} {bytes : Bytes slotBytes}

theorem Leads.select (h : Leads sha256 before live) :
    selectBootstate sha256 before.a before.b = .ok live :=
  select_eq_ok_iff.mpr ⟨h.1, fun state hstate => .inl (h.2 state hstate)⟩

theorem leads_set {slot : Slot} (hbytes : decode sha256 bytes = .ok next)
    (hother : ∀ state, decode sha256 (before.get slot.other) = .ok state →
      state.sequence < next.sequence) :
    Leads sha256 (before.set slot bytes) ⟨slot, next⟩ := by
  refine ⟨?_, ?_⟩
  · rw [Slots.get_set_same]
    exact hbytes
  · rw [Slots.get_other_set]
    exact hother

theorem Leads.set_older (h : Leads sha256 before live)
    (hbytes : ∀ state, decode sha256 bytes = .ok state → state.sequence < live.state.sequence) :
    Leads sha256 (before.set live.slot.other bytes) live := by
  refine ⟨?_, ?_⟩
  · rw [Slots.get_set_other]
    exact h.1
  · rw [Slots.get_set_same]
    exact hbytes

/-- A commit of `next` either takes effect or, as far as selection goes, did not happen. -/
def Resolves (sha256 : List UInt8 → Digest) (live : SelectedBootState) (next : BootState)
    (before : Slots) (outcome : Outcome SelectorError SelectedBootState) (after : Slots) : Prop :=
  (selectBootstate sha256 after.a after.b = .ok live ∧ (∃ fault, outcome = .error fault) ∧
    (Leads sha256 before live → Leads sha256 after live)) ∨
  (Leads sha256 after ⟨live.slot.other, next⟩ ∧
    ∀ selected, outcome = .ok selected → selected = ⟨live.slot.other, next⟩)

/-- A staged all-zero identity is the case that is written and never selected. -/
theorem committed_newer (hlive : selectBootstate sha256 before.a before.b = .ok live)
    (hcommitted : Committed sha256 live.slot next before outcome after)
    (hnewer : live.state.sequence < next.sequence)
    (hattempts : next.pending = some (zeros 32) → next.remainingAttempts ≠ 0) :
    Resolves sha256 live next before outcome after := by
  have hold : ∀ state, decode sha256 (before.get live.slot.other.other) = .ok state →
      state.sequence < next.sequence := by
    intro state hstate
    rw [Slot.other_other, decode_selected hlive] at hstate
    obtain rfl : live.state = state := by simpa using hstate
    exact hnewer
  by_cases hzero : next.pending = some (zeros 32)
  · have hrejected : ∀ state, decode sha256 (image sha256 next) = .ok state →
        state.sequence < live.state.sequence := fun state hstate =>
      absurd hstate (image_zeroPending_rejected sha256 hzero (hattempts hzero) state)
    have hsame := select_set_older hlive hrejected
    refine .inl ?_
    cases hcommitted with
    | untouched fault => exact ⟨hlive, ⟨fault, rfl⟩, id⟩
    | unanswered fault hvalid => exact ⟨hsame, ⟨fault, rfl⟩, fun h => h.set_older hrejected⟩
    | selected hvalid hselected =>
      rw [hsame] at hselected
      have hslot := congrArg SelectedBootState.slot (ok.inj hselected)
      exact absurd hslot.symm (Slot.other_ne live.slot)
  · cases hcommitted with
    | untouched fault => exact .inl ⟨hlive, ⟨fault, rfl⟩, id⟩
    | unanswered fault hvalid =>
      exact .inr ⟨leads_set (decode_image sha256 hvalid hzero) hold, nofun⟩
    | selected hvalid hselected =>
      refine .inr ⟨leads_set (decode_image sha256 hvalid hzero) hold, ?_⟩
      rintro _ ⟨rfl⟩
      rfl

end Commits

section Steps

variable {sha256 : List UInt8 → Digest} {life : Life} {live : SelectedBootState}
  {outcome : Outcome SelectorError SelectedBootState} {after before : Slots} {ticks : Nat}
  {runtime : BootRuntime}

theorem Tracks.next {snapshot : SelectedBootState} {next : BootState}
    (h : Tracks snapshot live) (hnext : nextSequence live.state.sequence = .ok next.sequence) :
    Tracks snapshot ⟨live.slot.other, next⟩ := by
  obtain ⟨hsequence, -⟩ := nextSequence_eq_ok_iff.mp hnext
  rcases h with rfl | ⟨hslot, hahead⟩ | ⟨hslot, hahead⟩
  · exact .inr (.inr ⟨rfl, by simp only [hsequence]; omega⟩)
  · exact .inr (.inr ⟨by rw [hslot], by simp only [hsequence]; omega⟩)
  · refine .inr (.inl ⟨?_, by simp only [hsequence]; omega⟩)
    rw [hslot]
    exact Slot.other_other _

theorem step_boot (store : BootStore) (ticks : Nat) :
    ∃ outcome slots, life.step sha256 (.boot store ticks) = afterBoot slots outcome ∧
      Booted sha256 life.slots outcome slots :=
  ⟨_, _, rfl, select_ensures store ⟨life.slots, ticks⟩⟩

theorem committed_consumed {consumed : BootState}
    (hlive : selectBootstate sha256 before.a before.b = .ok live)
    (hconsumed : live.state.consumePendingAttempt = .ok consumed)
    (hcommitted : Committed sha256 live.slot consumed before outcome after) :
    Resolves sha256 live consumed before outcome after := by
  obtain ⟨-, -, hsequence, hnext⟩ := consumePendingAttempt_eq_ok_iff.mp hconsumed
  have hpending : consumed.pending ≠ some (zeros 32) := by
    rw [hnext]
    exact ((decode_eq_ok_iff _ _ _).mp (decode_selected hlive)).2.2
  exact committed_newer hlive hcommitted (lt_nextSequence hsequence) fun hzero =>
    absurd hzero hpending

theorem committed_rolledBack {rolledBack : BootState}
    (hlive : selectBootstate sha256 before.a before.b = .ok live)
    (hpending : live.state.pending ≠ none)
    (hrolledBack : live.state.rollbackPending = .ok rolledBack)
    (hcommitted : Committed sha256 live.slot rolledBack before outcome after) :
    Resolves sha256 live rolledBack before outcome after := by
  rcases rollbackPending_eq_ok_iff.mp hrolledBack with
    ⟨hnone, -⟩ | ⟨-, hsequence, hnext⟩
  · exact absurd hnone hpending
  have hcleared : rolledBack.pending ≠ some (zeros 32) := by
    rw [hnext]
    nofun
  exact committed_newer hlive hcommitted (lt_nextSequence hsequence) fun hzero =>
    absurd hzero hcleared

theorem boot_moved (hlive : life.live sha256 = .ok live) (store : BootStore) (ticks : Nat) :
    ∃ next, (life.step sha256 (.boot store ticks)).live sha256 = .ok next ∧
      Moved life live (.boot store ticks) (life.launch sha256 (.boot store ticks)) next := by
  unfold launch
  obtain ⟨outcome, slots, hstep, hbooted⟩ := @step_boot sha256 life store ticks
  rw [hstep]
  cases hbooted with
  | failed fault => exact ⟨live, hlive, .stayed _⟩
  | launchedKnownGood releaseSequence hselect hpending =>
    exact ⟨live, hlive, .stayed _⟩
  | spent fault hselect hconsumed hcommitted =>
    obtain rfl := ok.inj (hselect.symm.trans hlive)
    rcases committed_consumed hselect hconsumed hcommitted with ⟨hsame, -⟩ | ⟨hleads, -⟩
    · exact ⟨_, hsame, .stayed _⟩
    · exact ⟨_, hleads.select, .spent store ticks hconsumed (.inl rfl)⟩
  | launchedPending hselect hpending hconsumed hcommitted hrelease =>
    obtain rfl := ok.inj (hselect.symm.trans hlive)
    rcases committed_consumed hselect hconsumed hcommitted with ⟨-, ⟨_, hfailed⟩, -⟩ | ⟨hleads, -⟩
    · cases hfailed
    · exact ⟨_, hleads.select, .spent store ticks hconsumed (.inr hpending.symm)⟩
  | cleared fault hselect hpending hexhausted hrolledBack hcommitted =>
    obtain rfl := ok.inj (hselect.symm.trans hlive)
    rcases committed_rolledBack hselect hpending hrolledBack hcommitted with
      ⟨hsame, -⟩ | ⟨hleads, -⟩
    · exact ⟨_, hsame, .stayed _⟩
    · exact ⟨_, hleads.select, .cleared store ticks hpending hrolledBack⟩
  | launchedFallback hselect hpending hexhausted hrolledBack hcommitted =>
    obtain rfl := ok.inj (hselect.symm.trans hlive)
    rcases committed_rolledBack hselect hpending hrolledBack hcommitted with
      ⟨-, ⟨_, hfailed⟩, -⟩ | ⟨hleads, -⟩
    · cases hfailed
    · exact ⟨_, hleads.select, .cleared store ticks hpending hrolledBack⟩

theorem boot_sound (life : Life) (store : BootStore) (ticks : Nat) :
    Sound sha256 (life.step sha256 (.boot store ticks)) := by
  obtain ⟨outcome, slots, hstep, hbooted⟩ := @step_boot sha256 life store ticks
  rw [hstep]
  intro runtime hruntime hrunning
  cases hbooted with
  | failed fault => cases hruntime
  | launchedKnownGood releaseSequence hselect hpending =>
    obtain rfl := some.inj hruntime
    cases hrunning
  | spent fault hselect hconsumed hcommitted => cases hruntime
  | launchedPending hselect hpending hconsumed hcommitted hrelease =>
    obtain rfl := some.inj hruntime
    rcases committed_consumed hselect hconsumed hcommitted with
      ⟨-, ⟨_, hfailed⟩, -⟩ | ⟨hleads, hselected⟩
    · cases hfailed
    · obtain rfl := hselected _ rfl
      exact ⟨_, hleads, .inl rfl, .inl rfl, rfl⟩
  | cleared fault hselect hpending hexhausted hrolledBack hcommitted =>
    cases hruntime
  | launchedFallback hselect hpending hexhausted hrolledBack hcommitted =>
    obtain rfl := some.inj hruntime
    cases hrunning

theorem confirm_moved (htraced : Traced sha256 life runtime live)
    (hfresh : life.Fresh sha256 (.confirm ticks))
    (hruntime : life.runtime = some runtime) (hrunning : runtime.runningPending = true)
    {promoted : BootState} {committed : Outcome SelectorError SelectedBootState}
    (hpromoted : runtime.selected.state.promotePending runtime.runningIdentity
      runtime.releaseSequence = .ok promoted)
    (hcommitted : Committed sha256 runtime.selected.slot promoted life.slots committed after) :
    Leads sha256 after live ∨
      (Leads sha256 after ⟨runtime.selected.slot.other, promoted⟩ ∧
        (live.state.acceptedReleaseSequence < promoted.acceptedReleaseSequence ∨
          live.state.knownGood = promoted.knownGood)) := by
  obtain ⟨-, hrelease, hsequence, hnext⟩ := promotePending_eq_ok_iff.mp hpromoted
  obtain ⟨hnumber, -⟩ := nextSequence_eq_ok_iff.mp hsequence
  have haccepted : live.state.acceptedReleaseSequence < promoted.acceptedReleaseSequence ∨
      live.state.knownGood = promoted.knownGood := by
    rw [hnext]
    rcases htraced.accepted with hequal | hequal
    · exact .inl (by rw [hequal]; exact hrelease)
    · exact .inr hequal
  have hwritten : ∀ hvalid : validate promoted = .ok (),
      Leads sha256 (life.slots.set runtime.selected.slot.other (image sha256 promoted)) live ∨
      (Leads sha256 (life.slots.set runtime.selected.slot.other (image sha256 promoted))
        ⟨runtime.selected.slot.other, promoted⟩ ∧
        (live.state.acceptedReleaseSequence < promoted.acceptedReleaseSequence ∨
          live.state.knownGood = promoted.knownGood)) := by
    intro hvalid
    have hdecode : decode sha256 (image sha256 promoted) = .ok promoted := by
      apply decode_image sha256 hvalid
      rw [hnext]
      nofun
    have hlive := htraced.leads.select
    rcases htraced.tracks with rfl | ⟨hslot, hahead⟩ | ⟨hslot, hahead⟩
    -- nothing was committed since the boot
    · refine .inr ⟨leads_set hdecode ?_, haccepted⟩
      intro state hstate
      rw [Slot.other_other, htraced.leads.1] at hstate
      obtain rfl := ok.inj hstate
      exact lt_nextSequence hsequence
    -- the live slot is the one selected, several commits later: the write goes to the
    -- other slot and is older
    · rw [← hslot]
      refine .inl (htraced.leads.set_older ?_)
      intro state hstate
      obtain rfl := ok.inj (hdecode.symm.trans hstate)
      rw [UInt64.lt_iff_toNat_lt]
      omega
    -- one commit later: the write replaces that commit with one of the same sequence
    · have hone : live.state.sequence.toNat ≤ runtime.selected.state.sequence.toNat + 1 := by
        rcases hfresh runtime live hruntime hrunning hlive with hsame | hone
        · rw [hslot] at hsame
          exact absurd hsame (Slot.other_ne _)
        · exact hone
      refine .inr ⟨leads_set hdecode ?_, haccepted⟩
      intro state hstate
      rw [← hslot] at hstate
      have holder := htraced.leads.2 state hstate
      rw [UInt64.lt_iff_toNat_lt] at holder ⊢
      omega
  cases hcommitted with
  | untouched fault => exact .inl htraced.leads
  | unanswered fault hvalid => exact hwritten hvalid
  | selected hvalid hselected => exact hwritten hvalid

@[simp] theorem afterConfirm_slots (slots : Slots) (outcome : Outcome SelectorError BootRuntime) :
    (life.afterConfirm slots outcome).slots = slots := by
  cases outcome <;> rfl

theorem step_confirm_of_none (hruntime : life.runtime = none) :
    life.step sha256 (.confirm ticks) = life := by
  unfold step
  rw [hruntime]

theorem step_confirm_of_answer (life : Life)
    {outcome : Outcome SelectorError BootRuntime} {device : Device}
    (hruntime : life.runtime = some runtime)
    (hconfirm : runtime.confirm sha256 ⟨life.slots, ticks⟩ = (outcome, device)) :
    life.step sha256 (.confirm ticks) = life.afterConfirm device.slots outcome := by
  unfold step
  simp only [hruntime, hconfirm]

theorem step_confirm {runtime : BootRuntime} (ticks : Nat)
    (hruntime : life.runtime = some runtime) :
    ∃ outcome slots, life.step sha256 (.confirm ticks) = life.afterConfirm slots outcome ∧
      ((slots = life.slots ∧ ∃ fault, outcome = .error fault) ∨
      ∃ promoted committed, runtime.runningPending = true ∧
        runtime.selected.state.promotePending runtime.runningIdentity runtime.releaseSequence =
          .ok promoted ∧
        Committed sha256 runtime.selected.slot promoted life.slots committed slots ∧
        outcome = committed.map fun selected =>
          { runtime with selected := selected, runningPending := false }) := by
  exact ⟨_, _, step_confirm_of_answer life hruntime rfl,
    confirm_ensures runtime ⟨life.slots, ticks⟩⟩

theorem step_stage (life : Life) (pending : Digest) (attempts : UInt32)
    (generationRoot stateRoot : Digest) (ticks : Nat) :
    ∃ outcome slots, life.step sha256 (.stage pending attempts generationRoot stateRoot ticks) =
        { life with slots := slots } ∧
      (slots = life.slots ∨
      ∃ live staged, selectBootstate sha256 life.slots.a life.slots.b = .ok live ∧
        live.state.stagePending pending attempts generationRoot stateRoot = .ok staged ∧
        Committed sha256 live.slot staged life.slots outcome slots) :=
  ⟨_, _, rfl, stage_ensures pending attempts generationRoot stateRoot ⟨life.slots, ticks⟩⟩

/-- A stage either takes effect, one commit after the live state, or changes nothing
that is selected. -/
theorem stage_moved (hlive : life.live sha256 = .ok live) (pending : Digest) (attempts : UInt32)
    (generationRoot stateRoot : Digest) (ticks : Nat) :
    ∃ next, (life.step sha256 (.stage pending attempts generationRoot stateRoot ticks)).live
        sha256 = .ok next ∧
      Moved life live (.stage pending attempts generationRoot stateRoot ticks) none next ∧
      ∀ runtime, Traced sha256 life runtime live →
        Traced sha256 (life.step sha256
          (.stage pending attempts generationRoot stateRoot ticks)) runtime next := by
  obtain ⟨outcome, slots, hstep, hcase⟩ :=
    @step_stage sha256 life pending attempts generationRoot stateRoot ticks
  rw [hstep]
  rcases hcase with rfl | ⟨selected, staged, hselect, hstaged, hcommitted⟩
  · exact ⟨live, hlive, .stayed _, fun runtime htraced => htraced⟩
  obtain rfl := ok.inj (hselect.symm.trans hlive)
  obtain ⟨hattempts, hsequence, hnext⟩ := stagePending_eq_ok_iff.mp hstaged
  have hcount : staged.remainingAttempts ≠ 0 := by
    rw [hnext]
    exact hattempts
  rcases committed_newer hselect hcommitted (lt_nextSequence hsequence) (fun _ => hcount) with
    ⟨hsame, -, hleads⟩ | ⟨hleads, -⟩
  · refine ⟨selected, hsame, .stayed _, ?_⟩
    intro runtime htraced
    exact ⟨hleads htraced.leads, htraced.tracks, htraced.accepted, htraced.launched⟩
  refine ⟨_, hleads.select, .staged pending attempts generationRoot stateRoot ticks hstaged, ?_⟩
  intro runtime htraced
  refine ⟨hleads, htraced.tracks.next hsequence, ?_, htraced.launched⟩
  rw [hnext]
  exact htraced.accepted

/-- One step of a machine: the slots still select a state, and it got there in one of
the ways of `Moved`. -/
theorem step_moved (hsound : Sound sha256 life) {step : Step} (hfresh : life.Fresh sha256 step)
    (hlive : life.live sha256 = .ok live) :
    ∃ next, (life.step sha256 step).live sha256 = .ok next ∧
      Moved life live step (life.launch sha256 step) next := by
  cases step with
  | boot store ticks => exact boot_moved hlive store ticks
  | powerLoss => exact ⟨live, hlive, .stayed _⟩
  | stage pending attempts generationRoot stateRoot ticks =>
    obtain ⟨next, hnext, hmoved, -⟩ :=
      stage_moved hlive pending attempts generationRoot stateRoot ticks
    exact ⟨next, hnext, hmoved⟩
  | confirm ticks =>
    rcases hruntime : life.runtime with _ | runtime
    · rw [step_confirm_of_none hruntime]
      exact ⟨live, hlive, .stayed _⟩
    obtain ⟨outcome, slots, hstep, hcase⟩ := @step_confirm sha256 life runtime ticks hruntime
    rw [hstep]
    unfold Life.live
    rw [afterConfirm_slots]
    rcases hcase with ⟨rfl, -⟩ | ⟨promoted, committed, hrunning, hpromoted, hcommitted, -⟩
    · exact ⟨live, hlive, .stayed _⟩
    obtain ⟨tracked, htraced⟩ := hsound runtime hruntime hrunning
    obtain rfl := ok.inj (htraced.leads.select.symm.trans hlive)
    rcases confirm_moved htraced hfresh hruntime hrunning hpromoted hcommitted with
      hleads | ⟨hleads, haccepted⟩
    · exact ⟨_, hleads.select, .stayed _⟩
    obtain ⟨-, -, -, hnext⟩ := promotePending_eq_ok_iff.mp hpromoted
    refine ⟨_, hleads.select, .promoted ticks ?_ ?_ haccepted⟩
    · rw [hnext]
      exact htraced.launched
    · rw [hnext]

theorem confirm_sound (hsound : Sound sha256 life) (hfresh : life.Fresh sha256 (.confirm ticks)) :
    Sound sha256 (life.step sha256 (.confirm ticks)) := by
  rcases hruntime : life.runtime with _ | runtime
  · rw [step_confirm_of_none hruntime]
    exact hsound
  obtain ⟨outcome, slots, hstep, hcase⟩ := @step_confirm sha256 life runtime ticks hruntime
  rw [hstep]
  rcases hcase with
    ⟨rfl, fault, rfl⟩ | ⟨promoted, committed, hrunning, hpromoted, hcommitted, houtcome⟩
  · exact hsound
  rcases committed with fault | selected
  · -- the confirmation failed after its write: the context is the one before
    obtain rfl := houtcome
    intro runtime' hruntime' _
    obtain rfl := mem_unique hruntime hruntime'
    obtain ⟨live, htraced⟩ := hsound runtime hruntime hrunning
    rcases confirm_moved htraced hfresh hruntime hrunning hpromoted hcommitted with
      hleads | ⟨hleads, -⟩
    · exact ⟨live, hleads, htraced.tracks, htraced.accepted, htraced.launched⟩
    obtain ⟨-, -, hsequence, hnext⟩ := promotePending_eq_ok_iff.mp hpromoted
    obtain ⟨hnumber, -⟩ := nextSequence_eq_ok_iff.mp hsequence
    refine ⟨_, hleads, .inr (.inr ⟨rfl, hnumber.ge⟩), .inr ?_, htraced.launched⟩
    rw [hnext]
  · obtain rfl := houtcome
    intro runtime' hruntime' hrunning'
    obtain rfl := some.inj hruntime'
    cases hrunning'

theorem step_sound (hsound : Sound sha256 life) {step : Step}
    (hfresh : life.Fresh sha256 step) : Sound sha256 (life.step sha256 step) := by
  cases step with
  | boot store ticks => exact boot_sound life store ticks
  | powerLoss => exact nofun
  | confirm ticks => exact confirm_sound hsound hfresh
  | stage pending attempts generationRoot stateRoot ticks =>
    intro runtime hruntime hrunning
    obtain ⟨live, htraced⟩ := hsound runtime hruntime hrunning
    obtain ⟨next, -, -, hnext⟩ :=
      stage_moved htraced.leads.select pending attempts generationRoot stateRoot ticks
    exact ⟨next, hnext runtime htraced⟩

theorem run_sound (start : Slots) (steps : List Step)
    (hfresh : Permitted (step sha256) (Life.Fresh sha256) (begin start) steps) :
    Sound sha256 (run (step sha256) (begin start) steps) :=
  run_invariant_permitted (step sha256) (Sound sha256) (Life.Fresh sha256)
    (fun _ _ hsound hstep => step_sound hsound hstep) (begin start) steps nofun hfresh

end Steps

end SlimeOs.BootLife
