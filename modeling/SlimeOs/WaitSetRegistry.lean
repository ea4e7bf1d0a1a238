import SlimeOs.BitWord
import SlimeOs.FixedArray
import SlimeOs.ReadinessLog

/-!
The bounded wait set of a component: registered wake sources in one fixed array,
the ready queue in another. An access out of bounds panics.

A machine runs any sequence of calls on a registry and keeps a log of what was
queued, dispatched and withdrawn.
-/

namespace SlimeOs.WaitSetRegistry

open BitWord FallibleCall FallibleCall.Outcome FixedArray ReadinessLog

def maxSources : Nat := 9
def maxReady : Nat := maxSources
def maxCallbacksPerWake : Nat := 9

inductive SourceKind where
  | stream
  | call
  | operation
  | timer
  | supervision
  | qosEvent
  | device
deriving DecidableEq

inductive RegistryError where
  | sourceLimit
  | undeclaredSource
  | duplicateSource
  | callbackLimit
deriving DecidableEq

structure Source where
  badge : UInt64
  kind : SourceKind
  drainSlot : Option UInt32
deriving DecidableEq

structure Ready where
  badge : UInt64
  kind : SourceKind
  drainSlot : Option UInt32
deriving DecidableEq

structure Declared where
  sources : Vector (Option Source) maxSources

namespace Declared

def iter (declared : Declared) : List Source := declared.sources.toList.filterMap id

def source (declared : Declared) (badge : UInt64) : Option Source :=
  declared.iter.find? fun source => source.badge == badge

def sourceForSlot (declared : Declared) (kind : SourceKind) (slot : UInt32) : Option Source :=
  declared.iter.find? fun source => source.kind == kind && source.drainSlot == some slot

def timer (declared : Declared) : Option Source :=
  declared.iter.find? fun source => source.kind == .timer

def device (declared : Declared) : Option Source :=
  declared.iter.find? fun source => source.kind == .device

end Declared

structure Registry where
  declared : Declared
  registered : Vector (Option Source) maxSources
  registeredLen : Nat
  mask : UInt64
  ready : Vector (Option Ready) maxReady
  readyLen : Nat

namespace Registry

def new (declared : Declared) : Registry :=
  { declared := declared
    registered := Vector.replicate maxSources none
    registeredLen := 0
    mask := 0
    ready := Vector.replicate maxReady none
    readyLen := 0 }

end Registry

def register (badge : UInt64) : Call Registry RegistryError Source := do
  let registry ← Call.read
  let source ← Call.lift (okOr (registry.declared.source badge) .undeclaredSource)
  Call.rejectIf (countOnes source.badge != 1) .undeclaredSource
  Call.rejectIf (registry.mask &&& source.badge != 0) .duplicateSource
  let held ← Call.lift (unwrap (leading registry.registered registry.registeredLen))
  let position :=
    (held.findIdx? fun slot => slot.any fun held => decide (source.badge < held.badge)).getD
      registry.registeredLen
  Call.rejectIf (registry.registeredLen == maxSources) .sourceLimit
  let shifted ← Call.lift (unwrap
    (copyWithin registry.registered position registry.registeredLen (position + 1)))
  let registered ← Call.lift (unwrap (store shifted position (some source)))
  Call.modify fun registry =>
    { registry with
      registered := registered
      registeredLen := registry.registeredLen + 1
      mask := registry.mask ||| source.badge }
  pure source

def registerFound (lookup : Declared → Option Source) : Call Registry RegistryError Source := do
  let registry ← Call.read
  let source ← Call.lift (okOr (lookup registry.declared) .undeclaredSource)
  register source.badge

def registerSlot (kind : SourceKind) (slot : UInt32) : Call Registry RegistryError Source :=
  registerFound fun declared => declared.sourceForSlot kind slot

def registerTimer : Call Registry RegistryError Source := registerFound Declared.timer

def registerDevice : Call Registry RegistryError Source := registerFound Declared.device

def unregister (badge : UInt64) : Call Registry RegistryError Bool := do
  let registry ← Call.read
  let held ← Call.lift (unwrap (leading registry.registered registry.registeredLen))
  match held.findIdx? fun slot => slot.any fun source => source.badge == badge with
  | none => pure false
  | some position => do
    let shifted ← Call.lift (unwrap
      (copyWithin registry.registered (position + 1) registry.registeredLen position))
    let registered ← Call.lift (unwrap (store shifted (registry.registeredLen - 1) none))
    let (ready, kept) ← Call.lift (unwrap
      (retain (fun entry => entry.badge != badge) registry.ready registry.readyLen))
    Call.modify fun registry =>
      { registry with
        registered := registered
        registeredLen := registry.registeredLen - 1
        mask := registry.mask &&& ~~~badge
        ready := ready
        readyLen := kept }
    pure true

/-- What one pass over the registered sources has queued so far. -/
structure Queueing where
  ready : Vector (Option Ready) maxReady
  readyLen : Nat
  queued : Nat

def queueStep (registered : Vector (Option Source) maxSources) (badge : UInt64)
    (state : Queueing) (index : Nat) : Outcome RegistryError Queueing := do
  let slot ← unwrap registered[index]?
  match slot with
  | none => pure state
  | some source =>
    if badge &&& source.badge == 0 then pure state
    else do
      let waiting ← unwrap (leading state.ready state.readyLen)
      if waiting.any fun slot => slot.any fun entry => entry.badge == source.badge then
        pure state
      else do
        let entry : Ready := ⟨source.badge, source.kind, source.drainSlot⟩
        let ready ← unwrap (store state.ready state.readyLen (some entry))
        pure ⟨ready, state.readyLen + 1, state.queued + 1⟩

def queue (badge : UInt64) : Call Registry RegistryError Nat := do
  let registry ← Call.read
  let state ← Call.lift ((List.range registry.registeredLen).foldlM
    (queueStep registry.registered badge) ⟨registry.ready, registry.readyLen, 0⟩)
  Call.modify fun registry =>
    { registry with
      ready := state.ready
      readyLen := state.readyLen }
  pure state.queued

def nextReady : Call Registry RegistryError (Option Ready) := do
  let registry ← Call.read
  if registry.readyLen == 0 then pure none
  else do
    let entry ← Call.lift (unwrap registry.ready[0]?)
    let shifted ← Call.lift (unwrap (copyWithin registry.ready 1 registry.readyLen 0))
    let ready ← Call.lift (unwrap (store shifted (registry.readyLen - 1) none))
    Call.modify fun registry =>
      { registry with
        ready := ready
        readyLen := registry.readyLen - 1 }
    pure entry

def dispatchLoop : Nat → Call Registry RegistryError (List Ready)
  | 0 => pure []
  | budget + 1 => do
    let next ← nextReady
    match next with
    | none => pure []
    | some entry => do
      let later ← dispatchLoop budget
      pure (entry :: later)

/-- The entries the handler is called with, in order. -/
def dispatchBounded (budget : Nat) : Call Registry RegistryError (List Ready) := do
  Call.rejectIf (decide (maxCallbacksPerWake < budget)) .callbackLimit
  dispatchLoop budget

inductive Operation where
  | register (badge : UInt64)
  | registerSlot (kind : SourceKind) (slot : UInt32)
  | registerTimer
  | registerDevice
  | unregister (badge : UInt64)
  | queue (badge : UInt64)
  | nextReady
  | dispatchBounded (budget : Nat)
deriving DecidableEq

def Registry.signalled (registry : Registry) (badge : UInt64) : List UInt64 :=
  (((registry.registered.toList.take registry.registeredLen).filterMap id).map
    Source.badge).filter fun held => badge &&& held != 0

def Registry.readyBadges (registry : Registry) : List UInt64 :=
  ((registry.ready.toList.take registry.readyLen).filterMap id).map Ready.badge

def perform : Operation → Call Registry RegistryError (List (Event UInt64))
  | .register badge => do
    let _ ← register badge
    pure []
  | .registerSlot kind slot => do
    let _ ← registerSlot kind slot
    pure []
  | .registerTimer => do
    let _ ← registerTimer
    pure []
  | .registerDevice => do
    let _ ← registerDevice
    pure []
  | .unregister badge => do
    let removed ← unregister badge
    pure (if removed then [.withdrawn badge] else [])
  | .queue badge => do
    let before ← Call.read
    let _ ← queue badge
    let after ← Call.read
    pure [.queued (before.signalled badge) (after.readyBadges.drop before.readyLen)]
  | .nextReady => do
    let next ← nextReady
    pure (next.toList.map fun entry => .dispatched entry.badge)
  | .dispatchBounded budget => do
    let entries ← dispatchBounded budget
    pure (entries.map fun entry => .dispatched entry.badge)

structure Machine where
  registry : Registry
  log : List (Event UInt64)

def Machine.start (declared : Declared) : Machine := ⟨Registry.new declared, []⟩

def step (machine : Machine) (operation : Operation) : Machine :=
  match perform operation machine.registry with
  | (.ok events, registry) => ⟨registry, machine.log ++ events⟩
  | (.error _, registry) => ⟨registry, machine.log⟩

end SlimeOs.WaitSetRegistry
