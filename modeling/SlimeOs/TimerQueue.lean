import SlimeOs.CheckedWord
import SlimeOs.FallibleCall

/-!
The timer queue of the root task: a bounded queue of deadlines ordered by deadline
and age, its transitions with the scheduling events they emit, and the service of
the timer interrupt over a platform with one armed deadline.
-/

namespace SlimeOs.TimerQueue

open CheckedWord FallibleCall FallibleCall.Outcome

abbrev MonotonicInstant := UInt64

structure TaskEpoch where
  task : UInt32
  epoch : UInt32
deriving DecidableEq

abbrev TimerId := UInt64

abbrev EventSequence := UInt64

inductive TimerCancelReason where
  | explicit
  | taskDeath
deriving DecidableEq

inductive ReadyCause where
  | timer (timer : TimerId) (deadline : MonotonicInstant)
  | notification (badge : UInt64)
  | yield
deriving DecidableEq

inductive SchedulingEventKind where
  | timerScheduled (timer : TimerId) (task : TaskEpoch) (deadline : MonotonicInstant)
  | timerCancelled (timer : TimerId) (task : TaskEpoch) (reason : TimerCancelReason)
  | taskReady (task : TaskEpoch) (cause : ReadyCause)
  | staleTimerDiscarded (timer : TimerId) (task : TaskEpoch) (deadline : MonotonicInstant)
deriving DecidableEq

structure SchedulingEvent where
  sequence : EventSequence
  observedAt : MonotonicInstant
  kind : SchedulingEventKind
deriving DecidableEq

/-- The events of one transition, in the order they were emitted. -/
structure EventBatch (capacity : Nat) where
  entries : List SchedulingEvent
  fits : entries.length ≤ capacity
deriving DecidableEq

namespace EventBatch

def new {capacity : Nat} : EventBatch capacity := ⟨[], Nat.zero_le capacity⟩

/-- Append an event. A full batch drops it and answers `false`. -/
def push {capacity : Nat} (batch : EventBatch capacity) (event : SchedulingEvent) :
    EventBatch capacity × Bool :=
  if h : batch.entries.length < capacity then
    (⟨batch.entries ++ [event], by simpa using Nat.succ_le_of_lt h⟩, true)
  else (batch, false)

end EventBatch

/-- What the caller must do to the platform deadline after a transition. -/
inductive DeadlineProgramming where
  | unchanged
  | program (deadline : MonotonicInstant)
  | disarm
deriving DecidableEq

def DeadlineProgramming.between (before after : Option MonotonicInstant) : DeadlineProgramming :=
  if before = after then .unchanged
  else
    match after with
    | some deadline => .program deadline
    | none => .disarm

inductive TimerError where
  | capacityExhausted (capacity : Nat)
  | identitySpaceExhausted
  | durationOverflow (now : MonotonicInstant) (ticks : UInt64)
  | monotonicRegression (previous observed : MonotonicInstant)
  | timerNotFound (timer : TimerId)
  | timerOwnerMismatch (timer : TimerId) (expected actual : TaskEpoch)
deriving DecidableEq

structure TimerTransition (capacity : Nat) where
  events : EventBatch capacity
  programming : DeadlineProgramming
deriving DecidableEq

/-- Errors of the interrupt service. One that comes after timers have left the queue
carries the transition. -/
inductive ServiceTimerError (E : Type) (capacity : Nat) where
  | clock (error : E)
  | scheduler (error : TimerError)
  | program (error : E) (transition : TimerTransition capacity)
  | acknowledge (error : E) (transition : TimerTransition capacity)
deriving DecidableEq

inductive WakeDisposition where
  | ready
  | staleEpoch
deriving DecidableEq

structure WakeTransition where
  disposition : WakeDisposition
  event : Option SchedulingEvent
deriving DecidableEq

structure TimerEntry where
  id : TimerId
  owner : TaskEpoch
  deadline : MonotonicInstant
  tieOrder : UInt64
deriving DecidableEq

/-- Queue order: by deadline, and by age among equal deadlines. -/
def TimerEntry.before (entry queued : TimerEntry) : Bool :=
  entry.deadline < queued.deadline ||
    (entry.deadline == queued.deadline && entry.tieOrder < queued.tieOrder)

structure DeadlineQueue (capacity : Nat) where
  entries : List TimerEntry
  fits : entries.length ≤ capacity
deriving DecidableEq

namespace DeadlineQueue

variable {capacity : Nat}

def insertAt (queue : DeadlineQueue capacity) (entry : TimerEntry) : Nat :=
  (queue.entries.findIdx? entry.before).getD queue.entries.length

/-- No result when the array is full, as the write behind its end panics. -/
def insertSorted (queue : DeadlineQueue capacity) (entry : TimerEntry) :
    Option (DeadlineQueue capacity) :=
  if h : queue.entries.length < capacity then
    some ⟨queue.entries.insertIdx (queue.insertAt entry) entry,
      List.length_insertIdx_le_succ.trans h⟩
  else none

def removeAt (queue : DeadlineQueue capacity) (index : Nat) :
    Option (TimerEntry × DeadlineQueue capacity) :=
  match queue.entries[index]? with
  | none => none
  | some removed =>
    some (removed, ⟨queue.entries.eraseIdx index, (List.length_eraseIdx_le _ _).trans queue.fits⟩)

end DeadlineQueue

structure TimerScheduler (capacity : Nat) where
  queue : DeadlineQueue capacity
  nextTimerId : UInt64
  nextTieOrder : UInt64
  nextEventSequence : UInt64
  lastObserved : Option MonotonicInstant
  pendingProgramming : Option DeadlineProgramming
deriving DecidableEq

namespace TimerScheduler

variable {capacity : Nat}

def new : TimerScheduler capacity :=
  { queue := ⟨[], Nat.zero_le capacity⟩
    nextTimerId := 0
    nextTieOrder := 0
    nextEventSequence := 0
    lastObserved := none
    pendingProgramming := none }

def nextDeadline (scheduler : TimerScheduler capacity) : Option MonotonicInstant :=
  scheduler.queue.entries[0]?.map TimerEntry.deadline

def timersOf (scheduler : TimerScheduler capacity) (owner : TaskEpoch) : Nat :=
  scheduler.queue.entries.countP fun entry => entry.owner == owner

def findTimer (scheduler : TimerScheduler capacity) (timer : TimerId) : Option Nat :=
  scheduler.queue.entries.findIdx? fun entry => entry.id == timer

end TimerScheduler

section Calls

variable {capacity : Nat}

def checkObservation (now : MonotonicInstant) : Call (TimerScheduler capacity) TimerError Unit := do
  let scheduler ← Call.read
  match scheduler.lastObserved with
  | some previous => Call.rejectIf (now < previous) (.monotonicRegression previous now)
  | none => pure ()

def commitObservation (now : MonotonicInstant) : Call (TimerScheduler capacity) TimerError Unit :=
  Call.modify fun scheduler => { scheduler with lastObserved := some now }

def reserveTimerId : Call (TimerScheduler capacity) TimerError UInt64 := do
  let scheduler ← Call.read
  let next ← Call.lift (okOr (checkedAdd scheduler.nextTimerId 1) .identitySpaceExhausted)
  Call.modify fun scheduler => { scheduler with nextTimerId := next }
  pure scheduler.nextTimerId

def reserveTieOrder : Call (TimerScheduler capacity) TimerError UInt64 := do
  let scheduler ← Call.read
  let next ← Call.lift (okOr (checkedAdd scheduler.nextTieOrder 1) .identitySpaceExhausted)
  Call.modify fun scheduler => { scheduler with nextTieOrder := next }
  pure scheduler.nextTieOrder

def reserveEventSequences (count : Nat) : Call (TimerScheduler capacity) TimerError UInt64 := do
  Call.rejectIf (2 ^ 64 ≤ count) .identitySpaceExhausted
  let scheduler ← Call.read
  let next ← Call.lift (okOr
    (checkedAdd scheduler.nextEventSequence (UInt64.ofNat count)) .identitySpaceExhausted)
  Call.modify fun scheduler => { scheduler with nextEventSequence := next }
  pure scheduler.nextEventSequence

def scheduleAt (owner : TaskEpoch) (now deadline : MonotonicInstant) :
    Call (TimerScheduler capacity) TimerError (TimerId × TimerTransition 1) := do
  checkObservation now
  let scheduler ← Call.read
  Call.rejectIf (scheduler.queue.entries.length == capacity) (.capacityExhausted capacity)
  let id ← reserveTimerId
  let tieOrder ← reserveTieOrder
  let sequence ← reserveEventSequences 1
  let entry : TimerEntry := ⟨id, owner, deadline, tieOrder⟩
  let queue ← Call.lift (unwrap (scheduler.queue.insertSorted entry))
  Call.modify fun scheduler => { scheduler with queue := queue }
  commitObservation now
  let after ← Call.read
  let event : SchedulingEvent := ⟨sequence, now, .timerScheduled id owner deadline⟩
  pure (id,
    { events := (EventBatch.new.push event).1
      programming := .between scheduler.nextDeadline after.nextDeadline })

def scheduleAfter (owner : TaskEpoch) (now : MonotonicInstant) (ticks : UInt64) :
    Call (TimerScheduler capacity) TimerError (TimerId × TimerTransition 1) := do
  let deadline ← Call.lift (okOr (checkedAdd now ticks) (.durationOverflow now ticks))
  scheduleAt owner now deadline

def cancel (timer : TimerId) (owner : TaskEpoch) (now : MonotonicInstant) :
    Call (TimerScheduler capacity) TimerError (TimerTransition 1) := do
  checkObservation now
  let scheduler ← Call.read
  let index ← Call.lift (okOr (scheduler.findTimer timer) (.timerNotFound timer))
  let entry ← Call.lift (okOr scheduler.queue.entries[index]? (.timerNotFound timer))
  Call.rejectIf (entry.owner != owner) (.timerOwnerMismatch timer entry.owner owner)
  let sequence ← reserveEventSequences 1
  Call.modify fun scheduler =>
    { scheduler with queue := ((scheduler.queue.removeAt index).map Prod.snd).getD scheduler.queue }
  commitObservation now
  let after ← Call.read
  let event : SchedulingEvent := ⟨sequence, now, .timerCancelled timer owner .explicit⟩
  pure
    { events := (EventBatch.new.push event).1
      programming := .between scheduler.nextDeadline after.nextDeadline }

/-- The queue and the events of a loop over the queue, with the number of events emitted. -/
structure Settling (capacity : Nat) where
  queue : DeadlineQueue capacity
  events : EventBatch capacity
  emitted : UInt64

def Settling.emit (state : Settling capacity) (first : UInt64) (now : MonotonicInstant)
    (kind : SchedulingEventKind) (queue : DeadlineQueue capacity) : Settling capacity :=
  { queue := queue
    events := (state.events.push ⟨first + state.emitted, now, kind⟩).1
    emitted := state.emitted + 1 }

/-- The sweep from an index on. Each pass either removes an entry or moves on, so `left`,
the number of entries from the index on, goes down by one. -/
def cancelLoop (dead : TaskEpoch) (now : MonotonicInstant) (first : UInt64) :
    (left index : Nat) → Settling capacity → Settling capacity
  | 0, _, state => state
  | left + 1, index, state =>
    match state.queue.removeAt index with
    | none => state
    | some (entry, queue) =>
      if entry.owner == dead then
        cancelLoop dead now first left index
          (state.emit first now (.timerCancelled entry.id entry.owner .taskDeath) queue)
      else cancelLoop dead now first left (index + 1) state

def cancelTask (dead : TaskEpoch) (now : MonotonicInstant) :
    Call (TimerScheduler capacity) TimerError (TimerTransition capacity) := do
  checkObservation now
  let scheduler ← Call.read
  let first ← reserveEventSequences (scheduler.timersOf dead)
  let state := cancelLoop dead now first scheduler.queue.entries.length 0
    ⟨scheduler.queue, .new, 0⟩
  Call.modify fun scheduler => { scheduler with queue := state.queue }
  commitObservation now
  let after ← Call.read
  pure
    { events := state.events
      programming := .between scheduler.nextDeadline after.nextDeadline }

/-- What becomes of a due timer: its owner wakes, unless that epoch is no longer live. -/
def dueEvent (live : TaskEpoch → Bool) (entry : TimerEntry) : SchedulingEventKind :=
  if live entry.owner then .taskReady entry.owner (.timer entry.id entry.deadline)
  else .staleTimerDiscarded entry.id entry.owner entry.deadline

def expiryLoop (live : TaskEpoch → Bool) (now : MonotonicInstant) (first : UInt64) :
    (due : Nat) → Settling capacity → Settling capacity
  | 0, state => state
  | due + 1, state =>
    match state.queue.removeAt 0 with
    | none => state
    | some (entry, queue) =>
      expiryLoop live now first due (state.emit first now (dueEvent live entry) queue)

def onTimerExpiry (now : MonotonicInstant) (live : TaskEpoch → Bool) :
    Call (TimerScheduler capacity) TimerError (TimerTransition capacity) := do
  checkObservation now
  let scheduler ← Call.read
  let dueCount := (scheduler.queue.entries.takeWhile fun entry => entry.deadline ≤ now).length
  let first ← reserveEventSequences dueCount
  let state := expiryLoop live now first dueCount ⟨scheduler.queue, .new, 0⟩
  Call.modify fun scheduler => { scheduler with queue := state.queue }
  commitObservation now
  let after ← Call.read
  pure
    { events := state.events
      programming := .between scheduler.nextDeadline after.nextDeadline }

def normalizeWake (task : TaskEpoch) (now : MonotonicInstant) (cause : Option ReadyCause) :
    Call (TimerScheduler capacity) TimerError WakeTransition := do
  checkObservation now
  match cause with
  | none => do
    commitObservation now
    pure ⟨.staleEpoch, none⟩
  | some cause => do
    let sequence ← reserveEventSequences 1
    commitObservation now
    pure ⟨.ready, some ⟨sequence, now, .taskReady task cause⟩⟩

def onNotification (task : TaskEpoch) (badge : UInt64) (now : MonotonicInstant)
    (live : TaskEpoch → Bool) : Call (TimerScheduler capacity) TimerError WakeTransition :=
  normalizeWake task now (if live task then some (.notification badge) else none)

def onYield (task : TaskEpoch) (now : MonotonicInstant) (live : TaskEpoch → Bool) :
    Call (TimerScheduler capacity) TimerError WakeTransition :=
  normalizeWake task now (if live task then some .yield else none)

end Calls

/-- How the platform answers during one service of the interrupt. Where a failure is given,
the call fails and changes nothing. -/
structure PlatformTimer (E : Type) where
  now : Except E MonotonicInstant
  programFailure : Option E
  disarmFailure : Option E
  acknowledgeFailure : Option E

section Platform

variable {E : Type} (platform : PlatformTimer E)

/-- The answer of a call, with the deadline that is armed after it. -/
def PlatformTimer.arm (failure : Option E) (armed : Option MonotonicInstant) :
    Except E (Option MonotonicInstant) :=
  match failure with
  | some error => .error error
  | none => .ok armed

def programDeadline (deadline : MonotonicInstant) : Except E (Option MonotonicInstant) :=
  PlatformTimer.arm platform.programFailure (some deadline)

def disarmTimer : Except E (Option MonotonicInstant) :=
  PlatformTimer.arm platform.disarmFailure none

def applyDeadlineProgramming (decision : DeadlineProgramming) (armed : Option MonotonicInstant) :
    Except E (Option MonotonicInstant) :=
  match decision with
  | .unchanged => .ok armed
  | .program deadline => programDeadline platform deadline
  | .disarm => disarmTimer platform

end Platform

structure System (capacity : Nat) where
  scheduler : TimerScheduler capacity
  armed : Option MonotonicInstant
deriving DecidableEq

def System.start (capacity : Nat) : System capacity := ⟨.new, none⟩

section Service

variable {capacity : Nat} {E : Type}

def onScheduler {ε α : Type} (call : Call (TimerScheduler capacity) ε α) :
    Call (System capacity) ε α := fun system =>
  ((call system.scheduler).1, { system with scheduler := (call system.scheduler).2 })

def setPending (pending : Option DeadlineProgramming) (system : System capacity) :
    System capacity :=
  { system with scheduler := { system.scheduler with pendingProgramming := pending } }

/-- A decision that failed before is carried out in place of the new one. -/
def TimerTransition.replaying (transition : TimerTransition capacity) :
    Option DeadlineProgramming → TimerTransition capacity
  | some pending => { transition with programming := pending }
  | none => transition

def serviceTimerSource (platform : PlatformTimer E) (live : TaskEpoch → Bool) :
    Call (System capacity) (ServiceTimerError E capacity) (TimerTransition capacity) := do
  let now ← Call.lift
    (match platform.now with
    | .ok now => .ok now
    | .error error => .error (.returned (.clock error)))
  let expired ← onScheduler (Call.wrapErr .scheduler (onTimerExpiry now live))
  let system ← Call.read
  let transition := expired.replaying system.scheduler.pendingProgramming
  match applyDeadlineProgramming platform transition.programming system.armed with
  | .error error => do
    Call.modify (setPending (some transition.programming))
    Call.lift (.error (.returned (.program error transition)))
  | .ok armed => do
    Call.modify fun system => setPending none { system with armed := armed }
    match platform.acknowledgeFailure with
    | some error => Call.lift (.error (.returned (.acknowledge error transition)))
    | none => pure transition

/-- The service came as far as the acknowledgement of the interrupt. -/
def acknowledging : Outcome (ServiceTimerError E capacity) (TimerTransition capacity) → Bool
  | .ok _ => true
  | .error (.returned (.acknowledge _ _)) => true
  | _ => false

inductive Operation (E : Type) where
  | scheduleAt (owner : TaskEpoch) (now deadline : MonotonicInstant)
  | scheduleAfter (owner : TaskEpoch) (now : MonotonicInstant) (ticks : UInt64)
  | cancel (timer : TimerId) (owner : TaskEpoch) (now : MonotonicInstant)
  | cancelTask (dead : TaskEpoch) (now : MonotonicInstant)
  | onNotification (task : TaskEpoch) (badge : UInt64) (now : MonotonicInstant)
      (live : TaskEpoch → Bool)
  | onYield (task : TaskEpoch) (now : MonotonicInstant) (live : TaskEpoch → Bool)
  | serviceTimerSource (platform : PlatformTimer E) (live : TaskEpoch → Bool)

def DeadlineProgramming.installed (armed : Option MonotonicInstant) :
    DeadlineProgramming → Option MonotonicInstant
  | .unchanged => armed
  | .program deadline => some deadline
  | .disarm => none

/-- A call of the scheduler whose decision is carried out at once and without failure. -/
def followed {α : Type} (call : Call (TimerScheduler capacity) TimerError α)
    (programming : α → DeadlineProgramming) (system : System capacity) : System capacity :=
  match call system.scheduler with
  | (.ok answer, scheduler) => ⟨scheduler, (programming answer).installed system.armed⟩
  | (.error _, scheduler) => ⟨scheduler, system.armed⟩

def step (system : System capacity) : Operation E → System capacity
  | .scheduleAt owner now deadline =>
    followed (scheduleAt owner now deadline) (fun answer => answer.2.programming) system
  | .scheduleAfter owner now ticks =>
    followed (scheduleAfter owner now ticks) (fun answer => answer.2.programming) system
  | .cancel timer owner now =>
    followed (cancel timer owner now) TimerTransition.programming system
  | .cancelTask dead now => followed (cancelTask dead now) TimerTransition.programming system
  | .onNotification task badge now live =>
    followed (onNotification task badge now live) (fun _ => .unchanged) system
  | .onYield task now live => followed (onYield task now live) (fun _ => .unchanged) system
  | .serviceTimerSource platform live => (serviceTimerSource platform live system).2

end Service

end SlimeOs.TimerQueue
