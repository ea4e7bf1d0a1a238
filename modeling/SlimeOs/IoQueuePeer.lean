import SlimeOs.IoQueue

/-!
The I/O queue with a peer that may put anything into the mapping between two steps of this
side. A call still trusts the header it reads: its cursor arithmetic is unchecked and panics
where it leaves the 64-bit words.
-/

namespace SlimeOs.IoQueue

open FallibleCall FallibleCall.Outcome SharedRing

/-- `head - tail`. -/
def waiting (head tail : Nat) : Outcome QueueError Nat :=
  unwrap (if tail ≤ head then some (head - tail) else none)

/-- `cursor + 1`. -/
def nextSequence (cursor : Nat) : Outcome QueueError Nat :=
  unwrap (if cursor + 1 < 2 ^ 64 then some (cursor + 1) else none)

section Calls

variable (mappingLen slotCount : Nat)

/-- `&bytes[start..start + length]`. -/
def slotRange (start length : Nat) : Outcome QueueError Unit :=
  unwrap (if start + length ≤ mappingLen then some () else none)

def requestRange (sequence : Nat) : Outcome QueueError Unit :=
  slotRange mappingLen (queueHeaderLen + queueSlotIndex sequence slotCount * requestSlotLen)
    requestSlotLen

def completionRange (sequence : Nat) : Outcome QueueError Unit :=
  slotRange mappingLen (queueHeaderLen + slotCount * requestSlotLen +
    queueSlotIndex sequence slotCount * completionSlotLen) completionSlotLen

/-- What a call computes from the header it reads, up to the slot it goes to. -/
def submit (header : QueueHeader) (request : Request) : Outcome QueueError Unit := do
  rejectIf (requestPayloadBytes < request.payload.length) .tooLarge
  rejectIf (header.driverState != .active) .closed
  let used ← waiting header.submitHead header.submitTail
  rejectIf (slotCount ≤ used) .full
  rejectIf (request.requestId == 0) .malformed
  rejectIf
    (!validRequestSlot (requestSlot header.epoch request) header.epoch request.mappedLen) .malformed
  let sequence ← nextSequence header.submitHead
  requestRange mappingLen slotCount sequence

def takeCompletion (header : QueueHeader) : Outcome QueueError Unit := do
  rejectIf (header.completeHead == header.completeTail) .empty
  let sequence ← nextSequence header.completeTail
  completionRange mappingLen slotCount sequence

def takeRequest (header : QueueHeader) : Outcome QueueError Unit := do
  rejectIf (header.submitHead == header.submitTail) .empty
  let sequence ← nextSequence header.submitTail
  requestRange mappingLen slotCount sequence

def complete (header : QueueHeader) (answer : Answer) : Outcome QueueError Unit := do
  rejectIf (completionPayloadBytes < answer.payload.length) .tooLarge
  let used ← waiting header.completeHead header.completeTail
  rejectIf (slotCount ≤ used) .full
  rejectIf (answer.requestId == 0 || !terminalStatus answer.status) .malformed
  let sequence ← nextSequence header.completeHead
  completionRange mappingLen slotCount sequence

/-- The part of a step that can panic: where it begins a call. -/
def arithmetic (s : State) : Event → Outcome QueueError Unit
  | .client call =>
    match s.client, call with
    | .idle, .submit request => submit mappingLen slotCount s.mapping.header request
    | .idle, .takeCompletion _ => takeCompletion mappingLen slotCount s.mapping.header
    | _, _ => pure ()
  | .driver call =>
    match s.driver, call with
    | .idle, .takeRequest _ => takeRequest mappingLen slotCount s.mapping.header
    | .idle, .complete answer => complete mappingLen slotCount s.mapping.header answer
    | _, _ => pure ()

/-- A step of this side, or the peer replacing the mapping. -/
inductive Act where
  | own (event : Event)
  | peer (mapping : Mapping)

/-- There is no state after a panic. -/
def actStep : Option State → Act → Option State
  | some s, .own event =>
    match arithmetic mappingLen slotCount s event with
    | .error .panicked => none
    | _ => some (step slotCount s event)
  | some s, .peer mapping => some { s with mapping := mapping }
  | none, _ => none

end Calls

/-- A call that begins with this step reads a header whose cursors it can subtract and
increment. The other steps read no header. -/
def readsTame (s : State) : Event → Bool
  | .client call =>
    let header := s.mapping.header
    match s.client, call with
    | .idle, .submit _ => header.submitTail ≤ header.submitHead && header.submitHead + 1 < 2 ^ 64
    | .idle, .takeCompletion _ => header.completeTail + 1 < 2 ^ 64
    | _, _ => true
  | .driver call =>
    let header := s.mapping.header
    match s.driver, call with
    | .idle, .takeRequest _ => header.submitTail + 1 < 2 ^ 64
    | .idle, .complete _ =>
      header.completeTail ≤ header.completeHead && header.completeHead + 1 < 2 ^ 64
    | _, _ => true

/-- The side whose step it is keeps the cursors of the other one as they are in the mapping. -/
def KeepsCursors (before after : QueueHeader) : Event → Prop
  | .client _ => after.submitTail = before.submitTail ∧ after.completeHead = before.completeHead
  | .driver _ => after.submitHead = before.submitHead ∧ after.completeTail = before.completeTail

variable {mappingLen slotCount : Nat} {header : QueueHeader}

theorem settles_unwrap {ε α : Type} {condition : Prop} [Decidable condition] {a : α}
    (h : condition) : Settles (unwrap (if condition then some a else none) : Outcome ε α) := by
  rw [if_pos h]
  exact settles_pure a

theorem step_keepsCursors (s : State) (event : Event) :
    KeepsCursors s.mapping.header (step slotCount s event).mapping.header event := by
  cases event with
  | client call =>
    unfold step clientStep
    cases s.client <;> exact ⟨rfl, rfl⟩
  | driver call =>
    unfold step driverStep
    cases s.driver with
    | idle =>
      cases call <;> dsimp only [beginDriver] <;> split <;> exact ⟨rfl, rfl⟩
    | _ => exact ⟨rfl, rfl⟩

section Attached

variable (hslots : admissibleSlotCount slotCount = true)
  (hlen : mappingBytes slotCount ≤ mappingLen)
include hslots hlen

theorem settles_ranges (sequence : Nat) : Settles (requestRange mappingLen slotCount sequence) ∧
    Settles (completionRange mappingLen slotCount sequence) := by
  simp only [admissibleSlotCount, Bool.and_eq_true] at hslots
  have htwo : 2 ≤ slotCount := of_decide_eq_true hslots.1.1
  have hindex : queueSlotIndex sequence slotCount + 1 ≤ slotCount := by
    have hle : queueSlotIndex sequence slotCount ≤ slotCount - 1 := Nat.and_le_right
    omega
  unfold mappingBytes queueHeaderLen requestSlotLen completionSlotLen at hlen
  constructor
  · apply settles_unwrap
    unfold queueHeaderLen requestSlotLen
    omega
  · apply settles_unwrap
    unfold queueHeaderLen requestSlotLen completionSlotLen
    omega

theorem settles_arithmetic {s : State} {event : Event} (htame : readsTame s event = true) :
    Settles (arithmetic mappingLen slotCount s event) := by
  have hranges := settles_ranges hslots hlen
  unfold arithmetic
  split
  · split
    next hidle =>
      simp only [readsTame, hidle, Bool.and_eq_true, decide_eq_true_eq] at htame
      refine settles_check (settles_check (settles_bind (settles_unwrap htame.1) fun _ _ => ?_))
      refine settles_check (settles_check (settles_check ?_))
      exact settles_bind (settles_unwrap htame.2) fun sequence _ => (hranges sequence).1
    next hidle =>
      simp only [readsTame, hidle, decide_eq_true_eq] at htame
      refine settles_check (settles_bind (settles_unwrap htame) fun sequence _ => ?_)
      exact (hranges sequence).2
    · exact settles_pure _
  · split
    next hidle =>
      simp only [readsTame, hidle, decide_eq_true_eq] at htame
      refine settles_check (settles_bind (settles_unwrap htame) fun sequence _ => ?_)
      exact (hranges sequence).1
    next hidle =>
      simp only [readsTame, hidle, Bool.and_eq_true, decide_eq_true_eq] at htame
      refine settles_check (settles_bind (settles_unwrap htame.1) fun _ _ => ?_)
      refine settles_check (settles_check ?_)
      exact settles_bind (settles_unwrap htame.2) fun sequence _ => (hranges sequence).2
    · exact settles_pure _

end Attached

/-- The condition on a run: it speaks of this side's steps alone. -/
def ownTame (state : Option State) : Act → Bool
  | .own event => state.all fun s => readsTame s event
  | .peer _ => true

def emptyQueue : Mapping :=
  ⟨⟨0, 0, .active, 1, 0, 0⟩, fun _ => .zeroed, fun _ => .zeroed⟩

def submitOne : Act := .own (.client (.submit ⟨5, ⟨0, 0, 0, 0, 0, []⟩, [1], false, 0⟩))

/-- Slots of other kinds, a completion tail past its head, another epoch. -/
def garbled : Mapping :=
  ⟨⟨0, 9, .active, 3, 4, 0⟩, fun _ => ⟨7, 7, 7, 7, 7, 7, ⟨7, 7, 7, 7, 7, []⟩, []⟩,
    fun _ => ⟨7, 7, 7, 7, 7, 7, 7, []⟩⟩

end SlimeOs.IoQueue
