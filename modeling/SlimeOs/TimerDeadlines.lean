import Mathlib.Data.List.TakeWhile
import SlimeOs.TimerQueue

/-!
The armed deadline and the timer queue. Every transition of the queue hands out the
decision that takes the armed deadline from the old head of the queue to the new one.
A decision that failed is remembered and carried out by the next service of the
interrupt in place of its own, so it must still name the head of the queue then.
-/

namespace SlimeOs.TimerQueue

open FallibleCall List FallibleCall.Call DeadlineProgramming

@[simp] theorem installed_between (before after : Option MonotonicInstant) :
    (between before after).installed before = after := by
  unfold between
  split
  · assumption
  · cases after <;> rfl

variable {armed' armed : Option MonotonicInstant} {α : Type}

theorem arm_ok {E : Type} {failure : Option E}
    (h : PlatformTimer.arm failure armed = .ok armed') : armed' = armed := by
  cases failure with
  | none => exact (Except.ok.inj h).symm
  | some error => cases h

theorem applyDeadlineProgramming_ok {E : Type} {platform : PlatformTimer E}
    {decision : DeadlineProgramming}
    (h : applyDeadlineProgramming platform decision armed = .ok armed') :
    armed' = decision.installed armed := by
  cases decision with
  | unchanged => exact (Except.ok.inj h).symm
  | program deadline => exact arm_ok h
  | disarm => exact arm_ok h

section Scheduler

variable {capacity : Nat} {before after : TimerScheduler capacity}

def Kept (before after : TimerScheduler capacity) : Prop :=
  after.queue = before.queue ∧ after.pendingProgramming = before.pendingProgramming

/-- The decision leads from the old head of the queue to the new one. -/
def Moved (before : TimerScheduler capacity) (programming : DeadlineProgramming)
    (after : TimerScheduler capacity) : Prop :=
  programming = .between before.nextDeadline after.nextDeadline ∧
    after.pendingProgramming = before.pendingProgramming

def Transition {α : Type} (programming : α → DeadlineProgramming)
    (before : TimerScheduler capacity) :
    Outcome TimerError α → TimerScheduler capacity → Prop :=
  Call.Leads (fun _ after => Kept before after) fun answer after =>
    Moved before (programming answer) after

def Prepares {α : Type} (before : TimerScheduler capacity) :
    Outcome TimerError α → TimerScheduler capacity → Prop :=
  Call.Leads (fun _ after => Kept before after) fun _ after => Kept before after

variable (scheduler : TimerScheduler capacity)

theorem Kept.refl : Kept scheduler scheduler := ⟨rfl, rfl⟩

theorem Kept.trans {first second third : TimerScheduler capacity} (h : Kept first second)
    (h' : Kept second third) : Kept first third :=
  ⟨h'.1.trans h.1, h'.2.trans h.2⟩

theorem Kept.nextDeadline (h : Kept before after) : after.nextDeadline = before.nextDeadline := by
  unfold TimerScheduler.nextDeadline
  rw [h.1]

theorem moved_between {observed : TimerScheduler capacity} (h : Kept before observed)
    (hpending : after.pendingProgramming = before.pendingProgramming) :
    Moved before (.between observed.nextDeadline after.nextDeadline) after :=
  ⟨by rw [h.nextDeadline], hpending⟩

theorem Kept.moved (h : Kept before after) : Moved before .unchanged after := by
  refine ⟨?_, h.2⟩
  rw [h.nextDeadline]
  simp [between]

theorem ensures_prepare {β : Type} {x : Call (TimerScheduler capacity) TimerError α}
    {f : α → Call (TimerScheduler capacity) TimerError β} {scheduler : TimerScheduler capacity}
    {post : Outcome TimerError β → TimerScheduler capacity → Prop}
    (hx : Ensures x scheduler (Prepares scheduler)) (hkept : Kept before scheduler)
    (hok : ∀ a after, Kept before after → Ensures (f a) after post)
    (herror : ∀ fault after, Kept before after → post (.error fault) after) :
    Ensures (x >>= f) scheduler post :=
  ensures_bind hx (fun a after h => hok a after (hkept.trans h))
    fun fault after h => herror fault after (hkept.trans h)

theorem checkObservation_ensures (now : MonotonicInstant) :
    Ensures (checkObservation now) scheduler (Prepares scheduler) := by
  apply ensures_read
  split
  next previous _ =>
    rcases h : decide (now < previous) with _ | _ <;> exact .refl scheduler
  · exact .refl scheduler

theorem reserveTimerId_ensures : Ensures reserveTimerId scheduler (Prepares scheduler) :=
  ensures_read (ensures_okOr (fun _ _ => ⟨rfl, rfl⟩) fun _ => .refl scheduler)

theorem reserveTieOrder_ensures : Ensures reserveTieOrder scheduler (Prepares scheduler) :=
  ensures_read (ensures_okOr (fun _ _ => ⟨rfl, rfl⟩) fun _ => .refl scheduler)

theorem reserveEventSequences_ensures (count : Nat) :
    Ensures (reserveEventSequences count) scheduler (Prepares scheduler) :=
  ensures_rejectIf
    (fun _ => ensures_read (ensures_okOr (fun _ _ => ⟨rfl, rfl⟩) fun _ => .refl scheduler))
    fun _ => .refl scheduler

theorem scheduleAt_ensures (owner : TaskEpoch) (now deadline : MonotonicInstant) :
    Ensures (scheduleAt owner now deadline) scheduler
      (Transition (fun answer => answer.2.programming) scheduler) := by
  have hfails : ∀ (fault : Fault TimerError) after, Kept scheduler after →
      Transition (fun answer : TimerId × TimerTransition 1 => answer.2.programming) scheduler
        (.error fault) after := fun _ _ h => h
  refine ensures_prepare (checkObservation_ensures _ now) (.refl scheduler) ?_ hfails
  intro _ observed hobserved
  refine ensures_read (ensures_rejectIf (fun _ => ?_) fun _ => hobserved)
  refine ensures_prepare (reserveTimerId_ensures _) hobserved ?_ hfails
  intro id named hnamed
  refine ensures_prepare (reserveTieOrder_ensures _) hnamed ?_ hfails
  intro tieOrder stamped hstamped
  refine ensures_prepare (reserveEventSequences_ensures _ 1) hstamped ?_ hfails
  intro sequence reserved hreserved
  refine ensures_lift (fun queue _ => ?_) fun _ => hreserved
  exact moved_between hobserved hreserved.2

theorem scheduleAfter_ensures (owner : TaskEpoch) (now : MonotonicInstant) (ticks : UInt64) :
    Ensures (scheduleAfter owner now ticks) scheduler
      (Transition (fun answer => answer.2.programming) scheduler) :=
  ensures_okOr (fun deadline _ => scheduleAt_ensures scheduler owner now deadline)
    fun _ => .refl scheduler

theorem cancel_ensures (timer : TimerId) (owner : TaskEpoch) (now : MonotonicInstant) :
    Ensures (cancel timer owner now) scheduler
      (Transition TimerTransition.programming scheduler) := by
  have hfails : ∀ (fault : Fault TimerError) after, Kept scheduler after →
      Transition (@TimerTransition.programming 1) scheduler (.error fault) after :=
    fun _ _ h => h
  refine ensures_prepare (checkObservation_ensures _ now) (.refl scheduler) ?_ hfails
  intro _ observed hobserved
  refine ensures_read (ensures_okOr (fun index _ => ?_) fun _ => hobserved)
  refine ensures_okOr (fun entry _ => ?_) fun _ => hobserved
  refine ensures_rejectIf (fun _ => ?_) fun _ => hobserved
  refine ensures_prepare (reserveEventSequences_ensures _ 1) hobserved ?_ hfails
  intro sequence reserved hreserved
  exact moved_between hobserved hreserved.2

theorem cancelTask_ensures (dead : TaskEpoch) (now : MonotonicInstant) :
    Ensures (cancelTask dead now) scheduler (Transition TimerTransition.programming scheduler) := by
  refine ensures_prepare (checkObservation_ensures _ now) (.refl scheduler) ?_ fun _ _ h => h
  intro _ observed hobserved
  apply ensures_read
  refine ensures_prepare (reserveEventSequences_ensures _ _) hobserved ?_ fun _ _ h => h
  intro first reserved hreserved
  exact moved_between hobserved hreserved.2

theorem normalizeWake_ensures (task : TaskEpoch) (now : MonotonicInstant)
    (cause : Option ReadyCause) :
    Ensures (normalizeWake task now cause) scheduler
      (Transition (fun _ => .unchanged) scheduler) := by
  refine ensures_prepare (checkObservation_ensures _ now) (.refl scheduler) ?_ fun _ _ h => h
  intro _ observed hobserved
  cases cause with
  | none => exact Kept.moved hobserved
  | some cause =>
    refine ensures_prepare (reserveEventSequences_ensures _ 1) hobserved ?_ fun _ _ h => h
    intro sequence reserved hreserved
    exact Kept.moved hreserved

theorem entries_expiryLoop (live : TaskEpoch → Bool) (now : MonotonicInstant) (first : UInt64)
    (due : Nat) (state : Settling capacity) :
    (expiryLoop live now first due state).queue.entries = state.queue.entries.drop due := by
  induction due generalizing state with
  | zero => rfl
  | succ due ih =>
    rcases state with ⟨⟨_ | ⟨-, -⟩, -⟩⟩
    · rfl
    · exact ih _

theorem onTimerExpiry_ensures (now : MonotonicInstant) (live : TaskEpoch → Bool) :
    Ensures (onTimerExpiry now live) scheduler
      (Call.Leads (fun _ after => Kept scheduler after) fun transition after =>
        Moved scheduler transition.programming after ∧
          after.queue.entries =
            scheduler.queue.entries.dropWhile fun entry => entry.deadline ≤ now) := by
  refine ensures_prepare (checkObservation_ensures _ now) (.refl scheduler) ?_ fun _ _ h => h
  intro _ observed hobserved
  apply ensures_read
  refine ensures_prepare (reserveEventSequences_ensures _ _) hobserved ?_ fun _ _ h => h
  intro first reserved hreserved
  refine ⟨moved_between hobserved hreserved.2, ?_⟩
  apply (entries_expiryLoop live now first _ _).trans
  rw [hobserved.1]
  conv_lhs =>
    arg 2
    rw [← takeWhile_append_dropWhile (p := fun entry => decide (entry.deadline ≤ now))
      (l := scheduler.queue.entries)]
  exact drop_left

end Scheduler

section Armed

variable {capacity : Nat} {E : Type} {system : System capacity}
  {call : Call (TimerScheduler capacity) TimerError α}

/-- The armed deadline is the head of the queue, unless a failed decision is remembered. -/
def Armed (system : System capacity) : Prop :=
  system.scheduler.pendingProgramming = none → system.armed = system.scheduler.nextDeadline

def System.upcoming (system : System capacity) (now : MonotonicInstant) :
    Option MonotonicInstant :=
  (system.scheduler.queue.entries.find? fun entry => now < entry.deadline).map TimerEntry.deadline

/-- When the interrupt is serviced while a failed decision is remembered, that decision
arms what is then the earliest deadline not yet due. -/
def replaysCurrent (system : System capacity) : Operation E → Bool
  | .serviceTimerSource platform _ =>
    match system.scheduler.pendingProgramming, platform.now with
    | some pending, .ok now => pending.installed system.armed == system.upcoming now
    | _, _ => true
  | _ => true

theorem armed_followed {programming : α → DeadlineProgramming} (h : Armed system)
    (hcall : Ensures call system.scheduler (Transition programming system.scheduler)) :
    Armed (followed call programming system) := by
  unfold followed
  unfold Ensures at hcall
  intro hnone
  rcases hanswer : call system.scheduler with ⟨fault | answer, scheduler⟩
  · rw [hanswer] at hcall hnone
    exact (h (hcall.2.symm.trans hnone)).trans (Kept.nextDeadline hcall).symm
  rw [hanswer] at hcall hnone
  obtain ⟨hprogramming, hpending⟩ := hcall
  change (programming answer).installed system.armed = scheduler.nextDeadline
  rw [hprogramming, h (hpending.symm.trans hnone), installed_between]

/-- A call of the scheduler leaves the armed deadline alone, and its failure is not one of
the acknowledgement. -/
theorem ensures_onScheduler {Fails : TimerScheduler capacity → Prop}
    {Done : α → TimerScheduler capacity → Prop}
    (h : Ensures call system.scheduler (Call.Leads (fun _ after => Fails after) Done)) :
    Ensures (onScheduler (Call.wrapErr (@ServiceTimerError.scheduler E capacity) call)) system
      (Call.Leads
        (fun fault after => after.armed = system.armed ∧ Fails after.scheduler ∧
          acknowledging (.error fault) = false)
        fun answer after => after.armed = system.armed ∧ Done answer after.scheduler) := by
  unfold Ensures onScheduler Call.wrapErr at *
  rcases hanswer : call system.scheduler with ⟨fault | answer, after⟩
  · rw [hanswer] at h
    cases fault <;> exact ⟨rfl, h, rfl⟩
  · rw [hanswer] at h
    exact ⟨rfl, h⟩

/-- A service that reaches the acknowledgement has armed the head of the queue. Any other has
changed nothing of it, or remembers its decision. -/
theorem serviceTimerSource_ensures (h : Armed system)
    (platform : PlatformTimer E) (live : TaskEpoch → Bool)
    (hcurrent : replaysCurrent system (.serviceTimerSource platform live) = true) :
    Ensures (serviceTimerSource platform live) system fun outcome after =>
      Armed after ∧
        (acknowledging outcome = true → after.armed = after.scheduler.nextDeadline) := by
  unfold serviceTimerSource
  rcases hnow : platform.now with error | now
  · exact ⟨h, Bool.noConfusion⟩
  apply ensures_bind_ok rfl
  apply ensures_bind (ensures_onScheduler (onTimerExpiry_ensures system.scheduler now live))
  · rintro expired after ⟨harmed, hmoved, hentries⟩
    apply ensures_read
    have hinstalled : (expired.replaying after.scheduler.pendingProgramming).programming.installed
        after.armed = after.scheduler.nextDeadline := by
      rw [hmoved.2, harmed]
      rcases hpending : system.scheduler.pendingProgramming with _ | pending
      · change expired.programming.installed system.armed = _
        rw [hmoved.1, h hpending, installed_between]
      · simp only [replaysCurrent, hpending, hnow] at hcurrent
        apply (beq_iff_eq.mp hcurrent).trans
        unfold System.upcoming TimerScheduler.nextDeadline
        rw [hentries, ← head?_eq_getElem?, find?_eq_head?_dropWhile_not]
        simp [← decide_not]
    dsimp only
    rcases happly : applyDeadlineProgramming platform
      (expired.replaying after.scheduler.pendingProgramming).programming after.armed
      with error | armed
    · exact ⟨fun hnone => absurd hnone (Option.some_ne_none _), Bool.noConfusion⟩
    have hhead := (applyDeadlineProgramming_ok happly).trans hinstalled
    apply ensures_modify
    cases platform.acknowledgeFailure with
    | some error => exact ⟨fun _ => hhead, fun _ => hhead⟩
    | none => exact ⟨fun _ => hhead, fun _ => hhead⟩
  · rintro fault after ⟨harmed, hkept, hfault⟩
    refine ⟨fun hnone => ?_, fun hreached => absurd (hfault.symm.trans hreached) nofun⟩
    rw [harmed, hkept.nextDeadline]
    exact h (hkept.2.symm.trans hnone)

theorem armed_step (h : Armed system) (operation : Operation E)
    (hcurrent : replaysCurrent system operation = true) : Armed (step system operation) := by
  cases operation with
  | scheduleAt owner now deadline =>
    exact armed_followed h (scheduleAt_ensures _ owner now deadline)
  | scheduleAfter owner now ticks =>
    exact armed_followed h (scheduleAfter_ensures _ owner now ticks)
  | cancel timer owner now => exact armed_followed h (cancel_ensures _ timer owner now)
  | cancelTask dead now => exact armed_followed h (cancelTask_ensures _ dead now)
  | onNotification task badge now live =>
    exact armed_followed h (normalizeWake_ensures _ task now _)
  | onYield task now live => exact armed_followed h (normalizeWake_ensures _ task now _)
  | serviceTimerSource platform live =>
    exact (serviceTimerSource_ensures h platform live hcurrent).1

/-- When each remembered decision is still current at the service that carries it out, every
service that comes as far as the acknowledgement leaves the head of the queue armed. -/
theorem armed_follows_queue (operations : List (Operation E)) (platform : PlatformTimer E)
    (live : TaskEpoch → Bool)
    (hcurrent : Permitted step (fun system operation => replaysCurrent system operation = true)
      (System.start capacity) operations)
    (hlast : replaysCurrent (run step (System.start capacity) operations)
      (.serviceTimerSource platform live) = true)
    (hreached : acknowledging
      (serviceTimerSource platform live (run step (System.start capacity) operations)).1 = true) :
    (serviceTimerSource platform live (run step (System.start capacity) operations)).2.armed =
      (serviceTimerSource platform live
        (run step (System.start capacity) operations)).2.scheduler.nextDeadline := by
  have harmed :=
    run_invariant_permitted step Armed _ (fun system operation h hop => armed_step h operation hop)
      _ operations (fun _ => rfl) hcurrent
  exact (serviceTimerSource_ensures harmed platform live hlast).2 hreached

end Armed

/-- Three deadlines are queued. The platform fails to program the second one when the first
is due, and by the next service the second one is due too. -/
def failedProgramming : List (Operation Unit) :=
  [.scheduleAt ⟨1, 0⟩ 0 10, .scheduleAt ⟨1, 0⟩ 0 20, .scheduleAt ⟨1, 0⟩ 0 30,
    .serviceTimerSource ⟨.ok 10, some (), none, none⟩ fun _ => true]

def servicedAt (now : MonotonicInstant) :
    Outcome (ServiceTimerError Unit 4) (TimerTransition 4) × System 4 :=
  serviceTimerSource ⟨.ok now, none, none, none⟩ (fun _ => true)
    (run step (System.start 4) failedProgramming)

theorem stale_deadline_armed :
    (servicedAt 25).1.toOption.isSome = true ∧ (servicedAt 25).2.armed = some 20 ∧
      (servicedAt 25).2.scheduler.nextDeadline = some 30 := by
  decide +kernel

theorem retried_deadline_armed :
    Permitted step (fun system operation => replaysCurrent system operation = true)
        (System.start 4) failedProgramming ∧
      (servicedAt 15).2.armed = (servicedAt 15).2.scheduler.nextDeadline := by
  have hcurrent : Permitted step (fun system operation => replaysCurrent system operation = true)
      (System.start 4) failedProgramming := ⟨rfl, rfl, rfl, by decide +kernel, trivial⟩
  exact ⟨hcurrent, armed_follows_queue failedProgramming _ _ hcurrent (by decide +kernel)
    (by decide +kernel)⟩

end SlimeOs.TimerQueue
