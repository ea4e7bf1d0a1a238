import Mathlib.Algebra.Group.Nat.Defs
import Mathlib.Data.List.MinMax
import Mathlib.Data.List.Perm.Subperm
import SlimeOs.FallibleCall

/-!
The receive slots of a link client. A slot is free, lent to the device, or holds a frame, and
the frames carry the value that a wrapping counter had at their delivery. Read relative to the
counter these values give the order back, because the frames held are always the latest ones.
-/

namespace SlimeOs.LinkFrames

open FallibleCall

inductive RxSlot where
  | free
  | provisioned (requestId : UInt64)
  | ready (len : Nat) (delivery : UInt64)
deriving DecidableEq

inductive SlotError where
  | unknown

structure RxSlots (n : Nat) where
  slots : Vector RxSlot n
  deliveries : UInt64

variable {n slot len : Nat} {rx : RxSlots n} {delivery : UInt64} {newest : List (Nat × Nat)}

namespace RxSlots

def new (n : Nat) : RxSlots n := ⟨Vector.replicate n .free, 0⟩

def put (rx : RxSlots n) (slot : Nat) (state : RxSlot) : RxSlots n :=
  { rx with slots := rx.slots.setIfInBounds slot state }

def position (rx : RxSlots n) (state : RxSlot) : Option Nat :=
  rx.slots.toList.findIdx? (· == state)

def provide (rx : RxSlots n) (requestId : UInt64) : Option Nat × RxSlots n :=
  match rx.position .free with
  | none => (none, rx)
  | some slot => (some slot, rx.put slot (.provisioned requestId))

def delivered (rx : RxSlots n) (requestId : UInt64) (len : Nat) :
    Except SlotError Nat × RxSlots n :=
  match rx.position (.provisioned requestId) with
  | none => (.error .unknown, rx)
  | some slot =>
    (.ok slot, { rx.put slot (.ready len rx.deliveries) with deliveries := rx.deliveries + 1 })

def returned (rx : RxSlots n) (requestId : UInt64) : Except SlotError Nat × RxSlots n :=
  match rx.position (.provisioned requestId) with
  | none => (.error .unknown, rx)
  | some slot => (.ok slot, rx.put slot .free)

def readyFrames (rx : RxSlots n) : List (Nat × Nat × UInt64) :=
  rx.slots.toList.zipIdx.filterMap fun (state, slot) =>
    match state with
    | .ready len delivery => some (slot, len, delivery)
    | _ => none

/-- `delivery.wrapping_sub(self.deliveries)`. -/
def age (rx : RxSlots n) (frame : Nat × Nat × UInt64) : Nat := (frame.2.2 - rx.deliveries).toNat

def takeReady (rx : RxSlots n) : Option (Nat × Nat) × RxSlots n :=
  match rx.readyFrames.argmin rx.age with
  | none => (none, rx)
  | some (slot, len, _) => (some (slot, len), rx.put slot .free)

def provisionedCount (rx : RxSlots n) : Nat :=
  rx.slots.toList.countP fun state => state matches .provisioned _

def freeCount (rx : RxSlots n) : Nat := rx.slots.toList.countP (· == .free)

end RxSlots

inductive Op where
  | provide (requestId : UInt64)
  | delivered (requestId : UInt64) (len : Nat)
  | returned (requestId : UInt64)
  | takeReady

/-- The slots, with the frames delivered and the frames taken so far. -/
structure History (n : Nat) where
  rx : RxSlots n
  delivered : List (Nat × Nat)
  taken : List (Nat × Nat)

def History.step (h : History n) : Op → History n
  | .provide requestId => { h with rx := (h.rx.provide requestId).2 }
  | .delivered requestId len =>
    match h.rx.delivered requestId len with
    | (.ok slot, rx) => { h with rx := rx, delivered := h.delivered ++ [(slot, len)] }
    | (.error _, rx) => { h with rx := rx }
  | .returned requestId => { h with rx := (h.rx.returned requestId).2 }
  | .takeReady =>
    { h with rx := h.rx.takeReady.2, taken := h.taken ++ h.rx.takeReady.1.toList }

theorem slot_of_position {state : RxSlot} (h : rx.position state = some slot) :
    rx.slots[slot]? = some state := by
  obtain ⟨hlt, hstate, -⟩ := List.findIdx?_eq_some_iff_getElem.mp h
  rw [Vector.length_toList] at hlt
  exact Vector.getElem?_eq_some_iff.mpr ⟨hlt, beq_iff_eq.mp hstate⟩

theorem getElem?_put {state : RxSlot} (hlt : slot < n) (other : Nat) :
    (rx.put slot state).slots[other]? = if slot = other then some state else rx.slots[other]? := by
  simp [RxSlots.put, Vector.getElem?_setIfInBounds, hlt]

theorem mem_readyFrames :
    (slot, len, delivery) ∈ rx.readyFrames ↔ rx.slots[slot]? = some (.ready len delivery) := by
  unfold RxSlots.readyFrames
  rw [← Vector.getElem?_toList, List.mem_filterMap]
  constructor
  · rintro ⟨⟨state, slot⟩, hstate, hframe⟩
    cases state with
    | ready len delivery =>
      cases hframe
      exact List.mem_zipIdx_iff_getElem?.mp hstate
    | _ => cases hframe
  · exact fun h => ⟨(_, slot), List.mem_zipIdx_iff_getElem?.mpr h, rfl⟩

/-- The frames that wait, newest first, are those of the ready slots, and their deliveries run
down from the counter. -/
structure Queued (rx : RxSlots n) (newest : List (Nat × Nat)) : Prop where
  ready : ∀ slot len delivery, rx.slots[slot]? = some (.ready len delivery) ↔
    ∃ k, newest[k]? = some (slot, len) ∧ delivery = rx.deliveries - UInt64.ofNat (k + 1)
  distinct : (newest.map Prod.fst).Nodup

theorem Queued.length_le (h : Queued rx newest) : newest.length ≤ n := by
  have hslots : newest.map Prod.fst ⊆ List.range n := by
    intro slot hslot
    obtain ⟨⟨_, len⟩, hmem, rfl⟩ := List.mem_map.mp hslot
    obtain ⟨k, hk⟩ := List.mem_iff_getElem?.mp hmem
    exact List.mem_range.mpr (Vector.getElem_of_getElem? ((h.ready _ len _).mpr ⟨k, hk, rfl⟩)).1
  simpa using (List.subperm_of_subset h.distinct hslots).length_le

/-- A slot without a frame changes to another state without one. -/
theorem Queued.put (h : Queued rx newest) {before after : RxSlot}
    (hslot : rx.position before = some slot)
    (hquiet : ∀ len delivery, before ≠ .ready len delivery ∧ after ≠ .ready len delivery) :
    Queued (rx.put slot after) newest := by
  have hbefore := slot_of_position hslot
  refine ⟨fun other len delivery => Iff.trans ?_ (h.ready other len delivery), h.distinct⟩
  rw [getElem?_put (Vector.getElem_of_getElem? hbefore).1]
  split
  next heq =>
    rw [← heq, hbefore]
    simp [hquiet len delivery]
  · rfl

theorem Queued.delivered (h : Queued rx newest) {requestId : UInt64}
    (hposition : rx.position (.provisioned requestId) = some slot) :
    Queued { rx.put slot (.ready len rx.deliveries) with deliveries := rx.deliveries + 1 }
      ((slot, len) :: newest) := by
  have hslot := slot_of_position hposition
  have hnew (k len' : Nat) : newest[k]? ≠ some (slot, len') := by
    intro hk
    have hready := (h.ready slot len' _).mpr ⟨k, hk, rfl⟩
    rw [hslot] at hready
    cases hready
  have hshift (k : Nat) : rx.deliveries + 1 - UInt64.ofNat (k + 1 + 1) =
      rx.deliveries - UInt64.ofNat (k + 1) := by
    rw [UInt64.ofNat_add (k + 1)]
    grind
  constructor
  · intro other len' delivery
    rw [← Nat.or_exists_add_one]
    simp only [List.getElem?_cons_zero, List.getElem?_cons_succ, hshift]
    rw [getElem?_put (Vector.getElem_of_getElem? hslot).1]
    split
    next heq =>
      subst heq
      simp [hnew, eq_comm]
    next hne => simp [h.ready, hne]
  · refine List.nodup_cons.mpr ⟨fun hmem => ?_, h.distinct⟩
    obtain ⟨⟨_, len'⟩, hframe, rfl⟩ := List.mem_map.mp hmem
    obtain ⟨k, hk⟩ := List.mem_iff_getElem?.mp hframe
    exact hnew k len' hk

/-- The older a frame, the smaller its delivery relative to the counter. -/
theorem Queued.age_add (hn : n < 2 ^ 64) (h : Queued rx newest) {k : Nat}
    (hk : newest[k]? = some (slot, len))
    (hdelivery : delivery = rx.deliveries - UInt64.ofNat (k + 1)) :
    rx.age (slot, len, delivery) + (k + 1) = 2 ^ 64 := by
  have hlt := (List.getElem_of_getElem? hk).1
  have hle := h.length_le
  have hcounter := rx.deliveries.toNat_lt
  rw [RxSlots.age, hdelivery, UInt64.toNat_sub, UInt64.toNat_sub, UInt64.toNat_ofNat']
  omega

theorem Queued.takeReady (hn : n < 2 ^ 64) (h : Queued rx newest) :
    rx.takeReady.1 = newest.getLast? ∧ Queued rx.takeReady.2 newest.dropLast := by
  unfold RxSlots.takeReady
  rcases newest.eq_nil_or_concat' with rfl | ⟨later, ⟨slot, len⟩, rfl⟩
  · have hnone : rx.readyFrames = [] := by
      refine List.eq_nil_iff_forall_not_mem.mpr fun ⟨slot, len, delivery⟩ hframe => ?_
      simpa using (h.ready slot len delivery).mp (mem_readyFrames.mp hframe)
    rw [hnone]
    exact ⟨rfl, h⟩
  have hlast : (later ++ [(slot, len)])[later.length]? = some (slot, len) :=
    List.getElem?_concat_length
  have holdest := (h.ready slot len _).mpr ⟨_, hlast, rfl⟩
  rcases hfound : rx.readyFrames.argmin rx.age with _ | ⟨slot', len', delivery⟩
  · rw [List.argmin_eq_none] at hfound
    simpa [hfound] using mem_readyFrames.mpr holdest
  have hready := mem_readyFrames.mp (List.argmin_mem hfound)
  obtain ⟨k, hk, hdelivery⟩ := (h.ready _ _ _).mp hready
  have hle := List.le_of_mem_argmin (mem_readyFrames.mpr holdest) hfound
  have hage := h.age_add hn hk hdelivery
  have hage' := h.age_add hn hlast rfl
  have hlt := (List.getElem_of_getElem? hk).1
  rw [List.length_append, List.length_singleton] at hlt
  obtain rfl : k = later.length := by omega
  cases hlast.symm.trans hk
  rw [List.getLast?_concat, List.dropLast_concat]
  have hdistinct := h.distinct
  rw [List.map_append, List.nodup_append] at hdistinct
  refine ⟨rfl, fun other len' delivery => ?_, hdistinct.1⟩
  rw [getElem?_put (Vector.getElem_of_getElem? hready).1]
  split
  next heq =>
    refine iff_of_false nofun ?_
    rintro ⟨k, hk, -⟩
    exact hdistinct.2.2 other (List.mem_map_of_mem (List.mem_of_getElem? hk)) _ (by simp) heq.symm
  next hne =>
    rw [h.ready]
    refine exists_congr fun k => and_congr_left' ?_
    rw [List.getElem?_append]
    split
    · rfl
    next hge =>
      rw [List.getElem?_eq_none (Nat.le_of_not_lt hge)]
      refine iff_of_false (fun hlast => hne ?_) nofun
      exact congrArg Prod.fst (List.mem_singleton.mp (List.mem_of_getElem? hlast)).symm

theorem count_states (states : List RxSlot) :
    states.countP (· == .free) + states.countP (fun state => state matches .provisioned _) +
      states.countP (fun state => state matches .ready _ _) = states.length := by
  induction states with
  | nil => rfl
  | cons state states ih =>
    cases state <;> simp <;> omega

/-- What was delivered is what was taken and then the frames that wait. -/
def Ordered (h : History n) : Prop :=
  ∃ newest, h.delivered = h.taken ++ newest.reverse ∧ Queued h.rx newest

theorem ordered_step (hn : n < 2 ^ 64) (h : History n) (op : Op) (hordered : Ordered h) :
    Ordered (h.step op) := by
  obtain ⟨newest, hlists, hqueued⟩ := hordered
  cases op with
  | provide requestId =>
    refine ⟨newest, hlists, ?_⟩
    dsimp only [History.step, RxSlots.provide]
    split
    · exact hqueued
    next slot hslot => exact hqueued.put hslot fun _ _ => ⟨nofun, nofun⟩
  | delivered requestId len =>
    dsimp only [History.step, RxSlots.delivered]
    rcases hslot : h.rx.position (.provisioned requestId) with _ | slot
    · exact ⟨newest, hlists, hqueued⟩
    · exact ⟨(slot, len) :: newest, by simp [hlists], hqueued.delivered hslot⟩
  | returned requestId =>
    refine ⟨newest, hlists, ?_⟩
    dsimp only [History.step, RxSlots.returned]
    split
    · exact hqueued
    next slot hslot => exact hqueued.put hslot fun _ _ => ⟨nofun, nofun⟩
  | takeReady =>
    obtain ⟨htaken, hrest⟩ := hqueued.takeReady hn
    refine ⟨newest.dropLast, ?_, hrest⟩
    dsimp only [History.step]
    rw [hlists, htaken]
    rcases newest.eq_nil_or_concat' with rfl | ⟨later, frame, rfl⟩ <;> simp

/-- Frames leave in the order of their delivery, each once, and only a free slot is lent. -/
theorem frames_leave_in_order (hn : n < 2 ^ 64) (ops : List Op) :
    let h := run History.step ⟨RxSlots.new n, [], []⟩ ops
    (∃ waiting, h.delivered = h.taken ++ waiting ∧ h.rx.takeReady.1 = waiting.head? ∧
      ∀ slot len, (slot, len) ∈ waiting ↔
        ∃ delivery, h.rx.slots[slot]? = some (.ready len delivery)) ∧
    (∀ requestId slot, (h.rx.provide requestId).1 = some slot →
      h.rx.slots[slot]? = some .free) ∧
    h.rx.freeCount + h.rx.provisionedCount +
      h.rx.slots.toList.countP (fun state => state matches .ready _ _) = n := by
  intro h
  have hstart : Ordered (⟨RxSlots.new n, [], []⟩ : History n) := by
    refine ⟨[], rfl, fun slot len delivery => iff_of_false ?_ nofun, List.nodup_nil⟩
    simp [RxSlots.new, Vector.getElem?_replicate]
  obtain ⟨newest, hlists, hqueued⟩ : Ordered h :=
    run_invariant History.step Ordered (ordered_step hn) _ ops hstart
  refine ⟨⟨newest.reverse, hlists, ?_, fun slot len => ?_⟩, fun requestId slot hslot => ?_, ?_⟩
  · rw [List.head?_reverse]
    exact (hqueued.takeReady hn).1
  · rw [List.mem_reverse, List.mem_iff_getElem?]
    simp only [hqueued.ready]
    exact ⟨fun ⟨k, hk⟩ => ⟨_, k, hk, rfl⟩, fun ⟨_, k, hk, _⟩ => ⟨k, hk⟩⟩
  · unfold RxSlots.provide at hslot
    split at hslot
    · cases hslot
    next free hfree =>
      cases hslot
      exact slot_of_position hfree
  · exact (count_states h.rx.slots.toList).trans h.rx.slots.length_toList

/-- The slot of the first frame is lent again before the second frame leaves. -/
theorem frames_leave_in_order_recycled :
    let h := run History.step ⟨RxSlots.new 2, [], []⟩
      [.provide 1, .provide 2, .delivered 2 60, .delivered 1 61, .takeReady, .provide 3,
        .delivered 3 62, .takeReady]
    h.delivered = [(1, 60), (0, 61), (1, 62)] ∧ h.taken = [(1, 60), (0, 61)] ∧
      ∃ waiting, h.delivered = h.taken ++ waiting ∧ h.rx.takeReady.1 = waiting.head? :=
  ⟨by decide, by decide, (frames_leave_in_order (by decide) _).1.imp fun _ h => ⟨h.1, h.2.1⟩⟩

end SlimeOs.LinkFrames
