import SlimeOs.BootLife

/-!
Bounded trials: a staged generation is launched at most as often as it was given
attempts, it becomes known good only through a confirmation by a boot that
launched it, and once its attempts are spent the known-good generation runs.
-/

namespace SlimeOs.BootTrials

open BootLife BootSelector BootSlots BootStateCodec ByteLayout Except FallibleCall Option Life

/-- The step ends the trial of the pending generation: a stage takes effect, or there
is nothing pending any more because it was promoted or rolled back. -/
def trialOver (sha256 : List UInt8 → Digest) (life : Life) (step : Step) : Bool :=
  match (life.step sha256 step).live sha256 with
  | .ok now =>
    now.state.pending.isNone ||
      match step with
      | .stage _ _ _ _ _ => life.live sha256 != .ok now
      | _ => false
  | .error _ => true

/-- How often a generation is launched as pending before its trial is over. -/
def trialLaunches (sha256 : List UInt8 → Digest) (pending : Digest) : Life → List Step → Nat
  | _, [] => 0
  | life, step :: steps =>
    if trialOver sha256 life step then 0
    else
      (if life.launch sha256 step = some pending then 1 else 0) +
        trialLaunches sha256 pending (life.step sha256 step) steps

section Trials

variable {sha256 : List UInt8 → Digest} {life : Life} {live next : SelectedBootState}
  {pending : Digest} {ticks : Nat}

theorem pending_of_going {step : Step} (hnext : (life.step sha256 step).live sha256 = .ok next)
    (hgoing : trialOver sha256 life step = false) : next.state.pending ≠ none := by
  unfold trialOver at hgoing
  rw [hnext] at hgoing
  intro hnone
  simp [hnone] at hgoing

theorem trialLaunches_cons {step : Step} {steps : List Step} {launched : Option Digest}
    (hlaunch : life.launch sha256 step = launched)
    (hnext : (life.step sha256 step).live sha256 = .ok next) (hpending : next.state.pending ≠ none)
    (hstep : ∀ {staged attempts generationRoot stateRoot ticks},
      step ≠ .stage staged attempts generationRoot stateRoot ticks) :
    trialLaunches sha256 pending life (step :: steps) =
      (if launched = some pending then 1 else 0) +
        trialLaunches sha256 pending (life.step sha256 step) steps := by
  have hgoing : trialOver sha256 life step = false := by
    unfold trialOver
    cases step with
    | stage => exact absurd rfl hstep
    | _ => simp_all [isSome_iff_ne_none]
  rw [trialLaunches, if_neg (by simp [hgoing]), hlaunch]

/-- While a trial goes on, a launch of its generation has been paid for with one of the
attempts. -/
theorem trial_step (hsound : Sound sha256 life) {step : Step} (hfresh : life.Fresh sha256 step)
    (hlive : life.live sha256 = .ok live) (hpending : live.state.pending = some pending)
    (hgoing : trialOver sha256 life step = false) :
    ∃ next, (life.step sha256 step).live sha256 = .ok next ∧ next.state.pending = some pending ∧
      (if life.launch sha256 step = some pending then 1 else 0) +
        next.state.remainingAttempts.toNat ≤ live.state.remainingAttempts.toNat := by
  obtain ⟨next, hnext, hmoved⟩ := step_moved hsound hfresh hlive
  refine ⟨next, hnext, ?_⟩
  generalize life.launch sha256 step = launch at hmoved
  cases hmoved with
  | stayed step => exact ⟨hpending, by simp⟩
  | spent store ticks hconsumed hlaunch =>
    obtain ⟨-, hleft, -, hstate⟩ := consumePendingAttempt_eq_ok_iff.mp hconsumed
    rw [hstate]
    refine ⟨hpending, ?_⟩
    have hpositive : live.state.remainingAttempts.toNat ≠ 0 :=
      fun hzero => hleft (UInt32.toNat_inj.mp hzero)
    have hspent : (live.state.remainingAttempts - 1).toNat =
        live.state.remainingAttempts.toNat - 1 := by
      rw [UInt32.toNat_sub_of_le _ _ (by rw [UInt32.le_iff_toNat_le]; simp; omega)]
      rfl
    have hone : (if launch = some pending then 1 else 0) ≤ 1 := by split <;> omega
    simp only [hspent]
    omega
  | cleared store ticks hstaged hrolledBack =>
    refine absurd ?_ (pending_of_going hnext hgoing)
    rcases rollbackPending_eq_ok_iff.mp hrolledBack with ⟨hnone, -⟩ | ⟨-, -, hstate⟩
    · exact absurd hnone hstaged
    · rw [hstate]
  | staged pending attempts generationRoot stateRoot ticks hstaged =>
    unfold trialOver at hgoing
    rw [hnext] at hgoing
    have hsame := ok.inj (hlive.symm.trans (by simpa using (Bool.or_eq_false_iff.mp hgoing).2))
    have hslot := congrArg SelectedBootState.slot hsame
    exact absurd hslot.symm (Slot.other_ne live.slot)
  | promoted ticks hlaunched hnone haccepted =>
    exact absurd hnone (pending_of_going hnext hgoing)

/-- Whatever happens from here on, the pending generation is launched at most once for each attempt
left. -/
theorem trialLaunches_le (steps : List Step) (hsound : Sound sha256 life)
    (hfresh : Permitted (step sha256) (Life.Fresh sha256) life steps)
    (hlive : life.live sha256 = .ok live) (hpending : live.state.pending = some pending) :
    trialLaunches sha256 pending life steps ≤ live.state.remainingAttempts.toNat := by
  induction steps generalizing life live with
  | nil => exact Nat.zero_le _
  | cons step steps ih =>
    unfold trialLaunches
    split
    · exact Nat.zero_le _
    rename_i hgoing
    obtain ⟨next, hnext, hkept, hpaid⟩ :=
      trial_step hsound hfresh.1 hlive hpending (by simpa using hgoing)
    have hrest := ih (step_sound hsound hfresh.1) hfresh.2 hnext hkept
    omega

theorem stage_effective {attempts : UInt32} {generationRoot stateRoot : Digest}
    (hchanged : (life.step sha256 (.stage pending attempts generationRoot stateRoot ticks)).live
      sha256 ≠ life.live sha256) :
    ∃ next, (life.step sha256 (.stage pending attempts generationRoot stateRoot ticks)).live
        sha256 = .ok next ∧ next.state.pending = some pending ∧
      next.state.remainingAttempts = attempts := by
  rcases hlive : life.live sha256 with fault | live
  · -- nothing is selected, so nothing is written
    obtain ⟨outcome, slots, hstep, hcase⟩ :=
      @step_stage sha256 life pending attempts generationRoot stateRoot ticks
    rcases hcase with rfl | ⟨selected, staged, hselect, -, -⟩
    · exact absurd (congrArg (live sha256) hstep) hchanged
    · exact absurd (hselect.symm.trans hlive) nofun
  · obtain ⟨next, hnext, hmoved, -⟩ :=
      stage_moved hlive pending attempts generationRoot stateRoot ticks
    cases hmoved with
    | stayed step => exact absurd (hnext.trans hlive.symm) hchanged
    | staged pending attempts generationRoot stateRoot ticks hstaged =>
      obtain ⟨-, -, hstate⟩ := stagePending_eq_ok_iff.mp hstaged
      rw [hstate] at hnext
      exact ⟨_, hnext, rfl, rfl⟩

/-- The known-good generation changes only in a confirmation, to the pending generation
that the running boot launched. -/
theorem knownGood_step (hsound : Sound sha256 life) {step : Step}
    (hfresh : life.Fresh sha256 step) (hlive : life.live sha256 = .ok live)
    (hnext : (life.step sha256 step).live sha256 = .ok next)
    (hchanged : next.state.knownGood ≠ live.state.knownGood) :
    (∃ ticks, step = .confirm ticks) ∧ life.launched = some next.state.knownGood ∧
      live.state.acceptedReleaseSequence < next.state.acceptedReleaseSequence := by
  obtain ⟨moved, hmovedLive, hmoved⟩ := step_moved hsound hfresh hlive
  obtain rfl := ok.inj (hmovedLive.symm.trans hnext)
  generalize life.launch sha256 step = launch at hmoved
  cases hmoved with
  | stayed step => exact absurd rfl hchanged
  | spent store ticks hconsumed hlaunch =>
    obtain ⟨-, -, -, hstate⟩ := consumePendingAttempt_eq_ok_iff.mp hconsumed
    exact absurd (by rw [hstate]) hchanged
  | cleared store ticks hstaged hrolledBack =>
    rcases rollbackPending_eq_ok_iff.mp hrolledBack with ⟨hnone, -⟩ | ⟨-, -, hstate⟩
    · exact absurd hnone hstaged
    · exact absurd (by rw [hstate]) hchanged
  | staged pending attempts generationRoot stateRoot ticks hstaged =>
    obtain ⟨-, -, hstate⟩ := stagePending_eq_ok_iff.mp hstaged
    exact absurd (by rw [hstate]) hchanged
  | promoted ticks hlaunched hnone haccepted =>
    refine ⟨⟨ticks, rfl⟩, hlaunched, ?_⟩
    rcases haccepted with hlater | hsame
    · exact hlater
    · exact absurd hsame.symm hchanged

/-- With no attempts left a boot launches the known-good generation or nothing, and
leaves it at that. -/
theorem boot_exhausted (hlive : life.live sha256 = .ok live)
    (hexhausted : live.state.remainingAttempts = 0) (store : BootStore) (ticks : Nat) :
    (∀ runtime, (life.step sha256 (.boot store ticks)).runtime = some runtime →
      runtime.runningIdentity = live.state.knownGood ∧ runtime.runningPending = false) ∧
    ∃ next, (life.step sha256 (.boot store ticks)).live sha256 = .ok next ∧
      next.state.remainingAttempts = 0 ∧ next.state.knownGood = live.state.knownGood := by
  constructor
  · obtain ⟨outcome, slots, hstep, hbooted⟩ := @step_boot sha256 life store ticks
    rw [hstep]
    intro runtime hruntime
    cases hbooted with
    | failed fault => cases hruntime
    | spent fault hselect hconsumed hcommitted => cases hruntime
    | cleared fault hselect hpending hzero hrolledBack hcommitted => cases hruntime
    | launchedKnownGood releaseSequence hselect hpending =>
      obtain rfl := ok.inj (hselect.symm.trans hlive)
      obtain rfl := some.inj hruntime
      exact ⟨rfl, rfl⟩
    | launchedPending hselect hpending hconsumed hcommitted hrelease =>
      obtain rfl := ok.inj (hselect.symm.trans hlive)
      obtain ⟨-, hleft, -, -⟩ := consumePendingAttempt_eq_ok_iff.mp hconsumed
      exact absurd hexhausted hleft
    | launchedFallback hselect hpending hzero hrolledBack hcommitted =>
      obtain rfl := ok.inj (hselect.symm.trans hlive)
      obtain rfl := some.inj hruntime
      exact ⟨rfl, rfl⟩
  · obtain ⟨next, hnext, hmoved⟩ := boot_moved hlive store ticks
    refine ⟨next, hnext, ?_⟩
    generalize life.launch sha256 (.boot store ticks) = launch at hmoved
    cases hmoved with
    | stayed step => exact ⟨hexhausted, rfl⟩
    | spent store ticks hconsumed hlaunch =>
      obtain ⟨-, hleft, -, -⟩ := consumePendingAttempt_eq_ok_iff.mp hconsumed
      exact absurd hexhausted hleft
    | cleared store ticks hstaged hrolledBack =>
      rcases rollbackPending_eq_ok_iff.mp hrolledBack with ⟨hnone, -⟩ | ⟨-, -, hstate⟩
      · exact absurd hnone hstaged
      · rw [hstate]
        exact ⟨rfl, rfl⟩

theorem boots_exhausted (boots : List (BootStore × Nat)) (hlive : life.live sha256 = .ok live)
    (hexhausted : live.state.remainingAttempts = 0) (store : BootStore) (ticks : Nat)
    (runtime : BootRuntime) (hruntime : (run (step sha256) life
      ((boots.map fun boot => .boot boot.1 boot.2) ++ [.boot store ticks])).runtime =
        some runtime) :
    runtime.runningIdentity = live.state.knownGood ∧ runtime.runningPending = false := by
  induction boots generalizing life live with
  | nil => exact (boot_exhausted hlive hexhausted store ticks).1 runtime hruntime
  | cons boot boots ih =>
    obtain ⟨-, next, hnext, hzero, hknownGood⟩ := boot_exhausted hlive hexhausted boot.1 boot.2
    rw [← hknownGood]
    exact ih hnext hzero hruntime

end Trials

/-- Over every life in which each confirmation finds the live state in the slot its boot
selected, or at most one commit ahead of it: a generation staged with some number of
attempts is launched at most that often before the next stage, promotion or
rollback; the known-good generation changes only in a confirmation, to the pending
generation the confirming boot launched, with a release above the accepted one;
and when no attempts remain, boots launch the known-good generation. -/
theorem life_trials_bounded (sha256 : List UInt8 → Digest) (start : Slots) (steps : List Step)
    (hfresh : Permitted (Life.step sha256) (Life.Fresh sha256) (Life.begin start) steps) :
    let life := run (Life.step sha256) (Life.begin start) steps
    (∀ pending attempts generationRoot stateRoot ticks later,
      let staged :=
        life.step sha256 (.stage pending attempts generationRoot stateRoot ticks)
      staged.live sha256 ≠ life.live sha256 →
      Permitted (Life.step sha256) (Life.Fresh sha256) staged later →
      trialLaunches sha256 pending staged later ≤ attempts.toNat) ∧
    (∀ step live next, life.Fresh sha256 step → life.live sha256 = .ok live →
      (life.step sha256 step).live sha256 = .ok next →
      next.state.knownGood ≠ live.state.knownGood →
      (∃ ticks, step = .confirm ticks) ∧ life.launched = some next.state.knownGood ∧
        live.state.acceptedReleaseSequence < next.state.acceptedReleaseSequence) ∧
    (∀ live, life.live sha256 = .ok live → live.state.remainingAttempts = 0 →
      ∀ (boots : List (BootStore × Nat)) store ticks runtime,
        (run (Life.step sha256) life
          ((boots.map fun boot => .boot boot.1 boot.2) ++ [.boot store ticks])).runtime =
            some runtime →
        runtime.runningIdentity = live.state.knownGood ∧ runtime.runningPending = false) := by
  intro life
  have hsound : Sound sha256 life := run_sound start steps hfresh
  refine ⟨?_, ?_, ?_⟩
  · intro pending attempts generationRoot stateRoot ticks later staged hchanged hlater
    obtain ⟨next, hnext, hpending, hattempts⟩ := stage_effective hchanged
    rw [← hattempts]
    exact trialLaunches_le later (step_sound hsound trivial) hlater hnext hpending
  · intro step live next hstep hlive hnext hchanged
    exact knownGood_step hsound hstep hlive hnext hchanged
  · intro live hlive hexhausted boots store ticks runtime hruntime
    exact boots_exhausted boots hlive hexhausted store ticks runtime hruntime

section Overtaken

def trialRoot : Digest := Vector.replicate 32 3

def trialGeneration : Digest := Vector.replicate 32 2

def trialStore : BootStore :=
  { directory := .ok [⟨trialGeneration, 0, 0, 0⟩]
    verify := fun _ => .ok 1 }

def trialState (sequence : UInt64) (attempts : UInt32) : BootState :=
  { sequence := sequence
    knownGood := Vector.replicate 32 1
    pending := some trialGeneration
    remainingAttempts := attempts
    generationRoot := trialRoot
    stateRoot := zeros 32
    acceptedReleaseSequence := 0 }

def trialImage (sequence : UInt64) (attempts : UInt32) : Bytes slotBytes :=
  image (fun _ => trialRoot) (trialState sequence attempts)

def trialRuntime (slot : Slot) (sequence : UInt64) (attempts : UInt32) : BootRuntime :=
  ⟨⟨slot, trialState sequence attempts⟩, trialGeneration, 1, true⟩

def trialStage (attempts : UInt32) : Step :=
  .stage trialGeneration attempts trialRoot (zeros 32) 6

variable {sequence : UInt64}

theorem trialState_valid (hsequence : sequence ≠ maxSequence)
    (attempts : UInt32) : validate (trialState sequence attempts) = .ok () := by
  refine (validate_eq_ok_iff _ _).mpr ⟨hsequence, ?_, ?_, nofun⟩
  · change (Vector.replicate 32 1 : Digest) ≠ zeros 32
    decide
  · change trialRoot ≠ zeros 32
    decide

theorem trialImage_decode (hsequence : sequence ≠ maxSequence) (attempts : UInt32) :
    decode (fun _ => trialRoot) (trialImage sequence attempts) =
      .ok (trialState sequence attempts) := by
  apply decode_image _ (trialState_valid hsequence attempts)
  change some trialGeneration ≠ some (zeros 32)
  decide

section

variable {slots : Slots} {slot : Slot} {sequence next : UInt64} {attempts : UInt32}
  (hlive : Leads (fun _ => trialRoot) slots ⟨slot, trialState sequence attempts⟩)
  (hnext : nextSequence sequence = .ok next) (runtime : Option BootRuntime)
  (launched : Option Digest)

include hlive hnext

theorem trial_leads_next (left : UInt32) :
    Leads (fun _ => trialRoot) (slots.set slot.other (trialImage next left))
      ⟨slot.other, trialState next left⟩ := by
  apply leads_set (trialImage_decode (nextSequence_eq_ok_iff.mp hnext).2 left)
  intro state hstate
  rw [Slot.other_other] at hstate
  obtain rfl := ok.inj (hlive.1.symm.trans hstate)
  exact lt_nextSequence hnext

theorem trial_boot {left : UInt32} (hattempts : attempts ≠ 0) (hleft : attempts - 1 = left) :
    step (fun _ => trialRoot) ⟨slots, runtime, launched⟩ (.boot trialStore 6) =
        ⟨slots.set slot.other (trialImage next left), some (trialRuntime slot.other next left),
          some trialGeneration⟩ ∧
      Leads (fun _ => trialRoot) (slots.set slot.other (trialImage next left))
        ⟨slot.other, trialState next left⟩ := by
  refine ⟨?_, trial_leads_next hlive hnext left⟩
  have hconsumed : (trialState sequence attempts).consumePendingAttempt =
      .ok (trialState next left) := by
    refine consumePendingAttempt_eq_ok_iff.mpr ⟨nofun, hattempts, hnext, ?_⟩
    rw [← hleft]
    rfl
  have hvalid := trialState_valid (nextSequence_eq_ok_iff.mp hnext).2 left
  have hpositive : 0 < attempts := by
    exact Nat.pos_of_ne_zero fun h => hattempts (UInt32.toNat_inj.mp h)
  have hselect : select (fun _ => trialRoot) trialStore ⟨slots, 0 + 6⟩ =
      (.ok (trialRuntime slot.other next left),
        ⟨slots.set slot.other (trialImage next left), 0⟩) := by
    have hpending : (trialState sequence attempts).pending = some trialGeneration := rfl
    have hremaining : (trialState sequence attempts).remainingAttempts = attempts := rfl
    change (readBootstate _ >>= fun selected => _) (⟨slots, (0 + 4) + 2⟩ : Device) = _
    rw [Call.bind_apply, readBootstate_completes hlive.select]
    simp only [hpending, hremaining, Option.isSome_some, Bool.true_and, hpositive, decide_true,
      if_true, hconsumed, beq_eq_false_iff_ne.mpr hattempts, Bool.false_eq_true, if_false]
    change (commitState _ slot (trialState next left) >>= fun selected => _)
      (⟨slots, 0 + 4⟩ : Device) = _
    rw [Call.bind_apply, commitState_answered hvalid (trial_leads_next hlive hnext left).select,
      if_pos rfl]
    rfl
  change afterBoot (select _ trialStore ⟨slots, 0 + 6⟩).2.slots
    (select _ trialStore ⟨slots, 0 + 6⟩).1 = _
  rw [hselect]
  rfl

theorem trial_stage {granted : UInt32} (hgranted : granted ≠ 0) :
    step (fun _ => trialRoot) ⟨slots, runtime, launched⟩ (trialStage granted) =
        ⟨slots.set slot.other (trialImage next granted), runtime, launched⟩ ∧
      Leads (fun _ => trialRoot) (slots.set slot.other (trialImage next granted))
        ⟨slot.other, trialState next granted⟩ := by
  refine ⟨?_, trial_leads_next hlive hnext granted⟩
  have hstaged : (trialState sequence attempts).stagePending trialGeneration granted trialRoot
      (zeros 32) = .ok (trialState next granted) :=
    stagePending_eq_ok_iff.mpr ⟨hgranted, hnext, rfl⟩
  have hvalid := trialState_valid (nextSequence_eq_ok_iff.mp hnext).2 granted
  have hstage : stage (fun _ => trialRoot) trialGeneration granted trialRoot (zeros 32)
      ⟨slots, 0 + 6⟩ = (.ok ⟨slot.other, trialState next granted⟩,
        ⟨slots.set slot.other (trialImage next granted), 0⟩) := by
    unfold stage
    rw [Call.bind_apply, readBootstate_completes hlive.select]
    simp only [hstaged]
    change commitState _ slot (trialState next granted) ⟨slots, 0 + 4⟩ = _
    rw [commitState_answered hvalid (trial_leads_next hlive hnext granted).select, if_pos rfl,
      trialImage]
  change Life.mk (stage _ trialGeneration granted trialRoot (zeros 32) ⟨slots, 0 + 6⟩).2.slots
    runtime launched = _
  rw [hstage]

end

def promotedState (sequence : UInt64) : BootState :=
  { trialState sequence 0 with
    knownGood := trialGeneration
    pending := none
    acceptedReleaseSequence := 1 }

def trialLife (a b : Bytes slotBytes) : Life :=
  ⟨⟨a, b⟩, some (trialRuntime .b 2 0), some trialGeneration⟩

/-- Three stages after its boot, a confirmation overwrites the live slot with an older state, and
the stage before last is live again. -/
theorem overtaken_confirm : step (fun _ => trialRoot)
        (trialLife (trialImage 5 1) (trialImage 4 2)) (.confirm 6) =
      trialLife (image (fun _ => trialRoot) (promotedState 3)) (trialImage 4 2) ∧
    Leads (fun _ => trialRoot)
      ⟨image (fun _ => trialRoot) (promotedState 3), trialImage 4 2⟩ ⟨.b, trialState 4 2⟩ := by
  have hpromoted : (trialState 2 0).promotePending trialGeneration 1 =
      .ok (promotedState 3) := by decide
  have hvalid : validate (promotedState 3) = .ok () := by decide
  have hdecode : decode (fun _ => trialRoot) (image (fun _ => trialRoot) (promotedState 3)) =
      .ok (promotedState 3) := decode_image _ hvalid (by decide)
  have hleads : Leads (fun _ => trialRoot)
      ⟨image (fun _ => trialRoot) (promotedState 3), trialImage 4 2⟩ ⟨.b, trialState 4 2⟩ := by
    refine ⟨trialImage_decode (by decide) 2, ?_⟩
    intro state hstate
    obtain rfl := ok.inj (hdecode.symm.trans hstate)
    decide
  refine ⟨?_, hleads⟩
  have hcommit := @commitState_answered (fun _ => trialRoot) ⟨trialImage 5 1, trialImage 4 2⟩
    ⟨.b, trialState 4 2⟩ .b (promotedState 3) hvalid hleads.select 2
  have hconfirm : (trialRuntime .b 2 0).confirm _ _ = _ :=
    confirm_of_commitState rfl hpromoted hcommit
  have hstep := step_confirm_of_answer
    ⟨⟨trialImage 5 1, trialImage 4 2⟩, some (trialRuntime .b 2 0), some trialGeneration⟩ rfl
    hconfirm
  exact hstep

theorem trial_start_leads :
    Leads (fun _ => trialRoot) ⟨trialImage 1 1, zeros slotBytes⟩ ⟨.a, trialState 1 1⟩ :=
  ⟨trialImage_decode (by decide) 1, fun state hstate => absurd hstate (zeros_rejected _ state)⟩

theorem trial_launched :
    step (fun _ => trialRoot) (Life.begin ⟨trialImage 1 1, zeros slotBytes⟩)
        (.boot trialStore 6) = trialLife (trialImage 1 1) (trialImage 2 0) ∧
    Leads (fun _ => trialRoot) ⟨trialImage 1 1, trialImage 2 0⟩ ⟨.b, trialState 2 0⟩ :=
  trial_boot trial_start_leads (by decide) none none (by decide) (by decide)

theorem trial_restaged :
    step (fun _ => trialRoot) (trialLife (trialImage 1 1) (trialImage 2 0))
        (trialStage 2) = trialLife (trialImage 3 2) (trialImage 2 0) ∧
    Leads (fun _ => trialRoot) ⟨trialImage 3 2, trialImage 2 0⟩ ⟨.a, trialState 3 2⟩ :=
  trial_stage trial_launched.2 (by decide) _ _ (by decide)

theorem trial_restaged_again :
    step (fun _ => trialRoot) (trialLife (trialImage 3 2) (trialImage 2 0))
        (trialStage 2) = trialLife (trialImage 3 2) (trialImage 4 2) ∧
    Leads (fun _ => trialRoot) ⟨trialImage 3 2, trialImage 4 2⟩ ⟨.b, trialState 4 2⟩ :=
  trial_stage trial_restaged.2 (by decide) _ _ (by decide)

theorem trial_overtaken :
    step (fun _ => trialRoot) (trialLife (trialImage 3 2) (trialImage 4 2))
        (trialStage 1) = trialLife (trialImage 5 1) (trialImage 4 2) ∧
    Leads (fun _ => trialRoot) ⟨trialImage 5 1, trialImage 4 2⟩ ⟨.a, trialState 5 1⟩ :=
  trial_stage trial_restaged_again.2 (by decide) _ _ (by decide)

theorem life_trials_bounded_restaged :
    let life := run (Life.step fun _ => trialRoot)
      (Life.begin ⟨trialImage 1 1, zeros slotBytes⟩) [.boot trialStore 6]
    let staged := life.step (fun _ => trialRoot) (trialStage 2)
    staged.live (fun _ => trialRoot) ≠ life.live (fun _ => trialRoot) ∧
    trialLaunches (fun _ => trialRoot) trialGeneration staged
      [.confirm 6, .boot trialStore 6, .boot trialStore 6] ≤ (2 : UInt32).toNat := by
  intro life staged
  have hlife : life = trialLife (trialImage 1 1) (trialImage 2 0) := by
    simp [life, trial_launched.1]
  have hstaged : staged = trialLife (trialImage 3 2) (trialImage 2 0) := by
    rw [← trial_restaged.1, ← hlife]
  have hchanged : staged.live (fun _ => trialRoot) ≠ life.live (fun _ => trialRoot) := by
    rw [hlife, hstaged]
    intro hsame
    have hselected := (trial_restaged.2.select.symm.trans hsame).trans trial_launched.2.select
    exact absurd (congrArg SelectedBootState.slot (ok.inj hselected)) nofun
  have hbound := (life_trials_bounded (fun _ => trialRoot) ⟨trialImage 1 1, zeros slotBytes⟩
    [.boot trialStore 6] ⟨trivial, trivial⟩).1 trialGeneration 2 trialRoot (zeros 32) 6
    [.confirm 6, .boot trialStore 6, .boot trialStore 6]
  refine ⟨hchanged, hbound hchanged ⟨?_, trivial, trivial, trivial⟩⟩
  -- one commit after the boot's selection
  intro runtime live hruntime _ hlive
  change staged.runtime = some runtime at hruntime
  change staged.live (fun _ => trialRoot) = .ok live at hlive
  rw [hstaged] at hruntime hlive
  obtain rfl := some.inj hruntime
  obtain rfl := ok.inj (trial_restaged.2.select.symm.trans hlive)
  exact .inr (by decide)

theorem overtaken_trial_exceeds :
    let life := run (Life.step fun _ => trialRoot)
      (Life.begin ⟨trialImage 1 1, zeros slotBytes⟩)
      [.boot trialStore 6, trialStage 2, trialStage 2]
    let staged := life.step (fun _ => trialRoot) (trialStage 1)
    staged.live (fun _ => trialRoot) = .ok ⟨.a, trialState 5 1⟩ ∧
    staged.live (fun _ => trialRoot) ≠ life.live (fun _ => trialRoot) ∧
    trialLaunches (fun _ => trialRoot) trialGeneration staged
      [.confirm 6, .boot trialStore 6, .boot trialStore 6] = 2 := by
  intro life staged
  have hlife : life = trialLife (trialImage 3 2) (trialImage 4 2) := by
    simp [life, trial_launched.1, trial_restaged.1, trial_restaged_again.1]
  have hstaged : staged = trialLife (trialImage 5 1) (trialImage 4 2) := by
    rw [← trial_overtaken.1, ← hlife]
  rw [hstaged, hlife]
  obtain ⟨hboot, hfirst⟩ : Life.step (fun _ => trialRoot)
      (trialLife (image (fun _ => trialRoot) (promotedState 3)) (trialImage 4 2))
      (.boot trialStore 6) =
      ⟨⟨trialImage 5 1, trialImage 4 2⟩, some (trialRuntime .a 5 1), some trialGeneration⟩ ∧ _ :=
    trial_boot overtaken_confirm.2 (by decide) _ _ (by decide) (by decide)
  obtain ⟨hreboot, hsecond⟩ : Life.step (fun _ => trialRoot)
      ⟨⟨trialImage 5 1, trialImage 4 2⟩, some (trialRuntime .a 5 1), some trialGeneration⟩
      (.boot trialStore 6) =
      ⟨⟨trialImage 5 1, trialImage 6 0⟩, some (trialRuntime .b 6 0), some trialGeneration⟩ ∧ _ :=
    trial_boot hfirst (by decide) _ _ (by decide) (by decide)
  refine ⟨trial_overtaken.2.select, ?_, ?_⟩
  · intro hsame
    have hselected :=
      (trial_overtaken.2.select.symm.trans hsame).trans trial_restaged_again.2.select
    exact absurd (congrArg SelectedBootState.slot (ok.inj hselected)) nofun
  have hstaged : ∀ sequence attempts, (trialState sequence attempts).pending ≠ none := nofun
  have hconfirm (life : Life) : life.launch (fun _ => trialRoot) (.confirm 6) = none := rfl
  have hlaunch (life : Life) : life.launch (fun _ => trialRoot) (.boot trialStore 6) =
    (life.step (fun _ => trialRoot) (.boot trialStore 6)).launched := rfl
  rw [trialLaunches_cons (hconfirm _)
      (by rw [overtaken_confirm.1]; exact overtaken_confirm.2.select) (hstaged 4 2) nofun,
    overtaken_confirm.1,
    trialLaunches_cons (hlaunch _) (by rw [hboot]; exact hfirst.select) (hstaged 5 1) nofun, hboot,
    trialLaunches_cons (hlaunch _) (by rw [hreboot]; exact hsecond.select) (hstaged 6 0) nofun,
    hreboot]
  rfl

end Overtaken

end SlimeOs.BootTrials
