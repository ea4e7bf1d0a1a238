import Mathlib.Algebra.Group.Nat.Defs
import SlimeOs.FallibleCall

/-!
The root's lifecycle service and the paths of the root that use it: the launch of an instance's
task, the causes recorded for its end, and the admission of a restart.
-/

namespace SlimeOs.Lifecycle

open FallibleCall

def maxTasks : Nat := 48
def maxAdmittedInstances : Nat := 48
def maxBackoffNs : Nat := 60000000000
def backoffFactorScale : Nat := 256
def u32Max : Nat := 2 ^ 32 - 1
def u64Max : Nat := 2 ^ 64 - 1

inductive LifecycleError where
  | undeclared
  | malformed
  | stillLive
  | unadmittedCause
  | attemptsExhausted
  | backoffPending
deriving DecidableEq

inductive Terminal where
  | exit
  | fault
  | unhealthy
deriving DecidableEq

def Terminal.id : Terminal → Nat
  | .exit => 1
  | .fault => 2
  | .unhealthy => 3

def isDeclaredCause (cause : Nat) : Bool := cause == 1 || cause == 2 || cause == 3

def causeBit (cause : Nat) : Nat := if isDeclaredCause cause then 1 <<< (cause - 1) else 0

structure RestartPolicy where
  attempts : Nat
  causes : Nat
  backoffNs : Nat
  backoffFactor : Nat
  attempts_le : attempts ≤ u32Max

namespace RestartPolicy

def restartsOn (policy : RestartPolicy) (cause : Nat) : Bool :=
  isDeclaredCause cause && policy.causes &&& causeBit cause != 0

def scaled (policy : RestartPolicy) (delay : Nat) : Nat → Nat
  | 0 => delay
  | remaining + 1 =>
    let product := delay * policy.backoffFactor / backoffFactorScale
    if maxBackoffNs ≤ product then maxBackoffNs else policy.scaled product remaining

def backoffFor (policy : RestartPolicy) (attempt : Nat) : Nat :=
  policy.scaled policy.backoffNs attempt

end RestartPolicy

structure RestartAdmission where
  remaining : Nat
  readyAt : Nat
  attempt : Nat
deriving DecidableEq

structure InstanceRow where
  attemptsUsed : Nat
  exhausted : Bool
  terminal : Option Terminal
  lastCause : Option Terminal
  readyAt : Nat
deriving DecidableEq

def InstanceRow.new : InstanceRow := ⟨0, false, none, none, 0⟩

/-- The two tables by their keys, with the number of rows in use. -/
structure Service where
  tasks : Nat → Option Nat
  taskRows : Nat
  instances : Nat → Option InstanceRow
  instanceRows : Nat

namespace Service

def new : Service := ⟨fun _ => none, 0, fun _ => none, 0⟩

def setRow (s : Service) (i : Nat) (row : InstanceRow) : Service :=
  { s with instances := Function.update s.instances i (some row) }

def instanceRow (s : Service) (i : Nat) : Except LifecycleError InstanceRow × Service :=
  match s.instances i with
  | some row => (.ok row, s)
  | none =>
    if maxAdmittedInstances ≤ s.instanceRows then (.error .malformed, s)
    else (.ok .new, { s.setRow i .new with instanceRows := s.instanceRows + 1 })

def declare (s : Service) (task i : Nat) : Except LifecycleError Unit × Service :=
  if (s.tasks task).isSome then (.error .malformed, s)
  else if maxTasks ≤ s.taskRows then (.error .malformed, s)
  else
    let s := { s with
      tasks := Function.update s.tasks task (some i), taskRows := s.taskRows + 1 }
    match s.instanceRow i with
    | (.error error, s) => (.error error, s)
    | (.ok _, s) => (.ok (), s)

/-- The first cause of a death is kept until an admission consumes it. -/
def recordTermination (s : Service) (task : Nat) (terminal : Terminal) :
    Option (Nat × Terminal) × Service :=
  match s.tasks task with
  | none => (none, s)
  | some i =>
    match s.instances i with
    | none => (none, s)
    | some row =>
      let row := if row.terminal.isNone then
        { row with terminal := some terminal, lastCause := some terminal } else row
      (row.lastCause.map fun recorded => (i, recorded), s.setRow i row)

def release (s : Service) (task : Nat) : Service :=
  { s with
    tasks := Function.update s.tasks task none
    taskRows := if (s.tasks task).isSome then s.taskRows - 1 else s.taskRows }

def terminal (s : Service) (i : Nat) : Option Terminal := (s.instances i).bind (·.lastCause)

def admitRestart (s : Service) (declared : Option RestartPolicy) (i now : Nat) :
    Except LifecycleError RestartAdmission × Service :=
  match declared with
  | none => (.error .undeclared, s)
  | some declared =>
    match s.instanceRow i with
    | (.error error, s) => (.error error, s)
    | (.ok row, s) =>
      match row.terminal with
      | none => (.error .stillLive, s)
      | some terminal =>
        if row.exhausted then (.error .attemptsExhausted, s)
        else if !declared.restartsOn terminal.id then (.error .unadmittedCause, s)
        else if declared.attempts ≤ row.attemptsUsed then
          (.error .attemptsExhausted, s.setRow i { row with exhausted := true })
        else
          let attempt := row.attemptsUsed
          let used := min (attempt + 1) u32Max
          let readyAt := min (now + declared.backoffFor attempt) u64Max
          (.ok { remaining := declared.attempts - used, readyAt, attempt },
            s.setRow i { row with attemptsUsed := used, readyAt, terminal := none })

def restartReady (s : Service) (i now : Nat) : Except LifecycleError Unit :=
  if now < ((s.instances i).map (·.readyAt)).getD 0 then .error .backoffPending else .ok ()

def clearRestartReservation (s : Service) (i : Nat) : Service :=
  match s.instances i with
  | some row => s.setRow i { row with readyAt := 0 }
  | none => s

def isExhausted (s : Service) (i : Nat) : Bool := (s.instances i).any (·.exhausted)

end Service

/-- What the history of one instance records. -/
inductive Event where
  | launched (task instant : Nat)
  | recorded (cause : Terminal)
  | ended
  | admitted (attempt : Nat) (cause : Terminal) (readyAt : Nat)
deriving DecidableEq

def Event.isLaunch : Event → Bool
  | .launched .. => true
  | _ => false

def Event.isAdmission : Event → Bool
  | .admitted .. => true
  | _ => false

def Event.isRecord : Event → Bool
  | .recorded _ => true
  | _ => false

/-- `launched` has the running task of each instance; the history of an instance has its newest
event first. -/
structure Root where
  service : Service
  launched : Nat → Option Nat
  nextTask : Nat
  history : Nat → List Event

def Root.new : Root := ⟨.new, fun _ => none, 0, fun _ => []⟩

def Root.note (root : Root) (i : Nat) (events : List Event) : Root :=
  { root with history := Function.update root.history i (events ++ root.history i) }

/-- How the parts of a spawn outside the lifecycle gates turn out: refused before the child is
declared, as while the instance's last task is not yet retired, unwound after it was, or
completed. -/
inductive Fate where
  | refused
  | unwound
  | completes
deriving DecidableEq

def Root.serveSpawn (root : Root) (i now : Nat) (fate : Fate) : Root :=
  if (root.launched i).isSome then root
  else if root.service.isExhausted i then root
  else if (root.service.restartReady i now).toOption.isNone then root
  else if fate = .refused then root
  else
    let child := root.nextTask
    let root := { root with nextTask := child + 1 }
    match root.service.declare child i with
    | (.error _, service) => { root with service := service.release child }
    | (.ok _, service) =>
      if fate = .unwound then { root with service := service.release child }
      else
        { root with
          service := service.clearRestartReservation i
          launched := Function.update root.launched i (some child) }.note i [.launched child now]

/-- The handler of `UNHEALTHY`, for a caller that is launched. -/
def Root.unhealthy (root : Root) (task : Nat) : Root :=
  match root.service.tasks task with
  | none => root
  | some i =>
    if root.launched i = some task then
      { root with service := (root.service.recordTermination task .unhealthy).2 }.note i
        [.recorded .unhealthy]
    else root

def Root.ends (root : Root) (task : Nat) (terminal : Terminal) : Root :=
  match root.service.tasks task with
  | none => root
  | some i =>
    { root with
      service := (root.service.recordTermination task terminal).2.release task
      launched := Function.update root.launched i none }.note i [.ended, .recorded terminal]

def Root.restartAdmit (root : Root) (declared : Option RestartPolicy) (i now : Nat) : Root :=
  match root.service.admitRestart declared i now with
  | (.error _, service) => { root with service }
  | (.ok admission, service) =>
    match (root.service.instances i).bind (·.terminal) with
    | none => { root with service }
    | some cause => { root with service }.note i
        [.admitted admission.attempt cause admission.readyAt]

inductive Action where
  | spawn (i now : Nat) (fate : Fate)
  | unhealthy (task : Nat)
  | ends (task : Nat) (terminal : Terminal)
  | restart (i now : Nat)

def Root.step (declared : Nat → Option RestartPolicy) (root : Root) : Action → Root
  | .spawn i now fate => root.serveSpawn i now fate
  | .unhealthy task => root.unhealthy task
  | .ends task terminal => root.ends task terminal
  | .restart i now => root.restartAdmit (declared i) i now

end SlimeOs.Lifecycle
