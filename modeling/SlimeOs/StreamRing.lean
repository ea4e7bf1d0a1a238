import SlimeOs.FallibleCall
import SlimeOs.SharedRing

/-!
The stream ring: one publisher and one consumer over a shared mapping. Each of them
reads the header, works on one slot, and writes the header back, whole; the other one
may run between any two of these steps.
-/

namespace SlimeOs.StreamRing

open FallibleCall FallibleCall.Outcome List SharedRing

def maxInlineBytes : Nat := 32
def minRingSlots : Nat := 2
def maxRingSlots : Nat := 256
def ringHeaderLen : Nat := 64
def ringSlotLen : Nat := 64
def slotMagic : UInt32 := 1414743379
def slotReady : UInt32 := 2
def flagLast : UInt32 := 1
def knownSlotFlags : UInt32 := 1

inductive RingError where
  | malformed
  | full
  | empty
  | tooLarge
deriving DecidableEq

inductive ProducerState where
  | active
  | finished
  | dead
deriving DecidableEq

structure RingHeader where
  head : UInt64
  tail : UInt64
  producerState : ProducerState
deriving DecidableEq

structure RingSlot where
  magic : UInt32
  state : UInt32
  flags : UInt32
  payloadLen : Nat
  sequence : UInt64
  typeIdentity : UInt64
  payload : List UInt8
deriving DecidableEq

def RingSlot.zeroed : RingSlot := ⟨0, 0, 0, 0, 0, 0, List.replicate maxInlineBytes 0⟩

structure Mapping where
  header : RingHeader
  slots : Nat → RingSlot

/-- The mapping as it is provisioned, before either party attaches. -/
def format (mappingLen : Nat) (typeIdentity : UInt64) (slotCount : Nat) :
    Outcome RingError Mapping := do
  rejectIf
    (slotCount < minRingSlots || maxRingSlots < slotCount || !isPowerOfTwo slotCount) .malformed
  rejectIf
    (mappingLen < ringHeaderLen + slotCount * ringSlotLen || typeIdentity == 0) .malformed
  pure ⟨⟨0, 0, .active⟩, fun _ => RingSlot.zeroed⟩

def ringSlotIndex (sequence : UInt64) (slotCount : Nat) : Nat := sequence.toNat &&& (slotCount - 1)

def validRingSlot (slot : RingSlot) (expectedType expectedSequence : UInt64) : Bool :=
  slot.magic == slotMagic && slot.state == slotReady && slot.flags &&& ~~~knownSlotFlags == 0 &&
    slot.sequence != 0 && slot.sequence == expectedSequence &&
    slot.typeIdentity != 0 && slot.typeIdentity == expectedType &&
    slot.payloadLen != 0 && slot.payloadLen ≤ maxInlineBytes &&
    (slot.payload.drop slot.payloadLen).all (· == 0)

structure Sample where
  payload : List UInt8
  last : Bool
deriving DecidableEq

def slotOf (typeIdentity sequence : UInt64) (sample : Sample) : RingSlot :=
  { magic := slotMagic
    state := slotReady
    flags := if sample.last then flagLast else 0
    payloadLen := sample.payload.length
    sequence := sequence
    typeIdentity := typeIdentity
    payload := sample.payload ++ List.replicate (maxInlineBytes - sample.payload.length) 0 }

def sampleOf (slot : RingSlot) : Sample :=
  ⟨slot.payload.take slot.payloadLen, slot.flags &&& flagLast != 0⟩

/-- Where the publisher stands in `publish`. The header is the one it read. -/
inductive Publishing where
  | idle
  | claimed (header : RingHeader) (sample : Sample)
  | written (header : RingHeader) (sample : Sample)

/-- Where the consumer stands in `consume`. -/
inductive Consuming where
  | idle
  | claimed (header : RingHeader)
  | loaded (header : RingHeader) (slot : RingSlot)

/-- The mapping, the two parties, and what they have accepted and returned so far. -/
structure State where
  mapping : Mapping
  publisher : Publishing
  consumer : Consuming
  published : List Sample
  consumed : List Sample

def State.start (mapping : Mapping) : State := ⟨mapping, .idle, .idle, [], []⟩

/-- Which party takes its next step. A publisher between two calls begins one with the
sample. -/
inductive Event where
  | publisher (sample : Sample)
  | consumer
deriving DecidableEq

section Steps

variable (typeIdentity : UInt64) (slotCount : Nat)

/-- The checks of `publish`, on the header it reads. -/
def publishChecks (header : RingHeader) (sample : Sample) : Outcome RingError Unit := do
  rejectIf (sample.payload.isEmpty || maxInlineBytes < sample.payload.length) .tooLarge
  rejectIf (slotCount ≤ (header.head - header.tail).toNat) .full

/-- The header `publish` writes back. -/
def publishedHeader (header : RingHeader) (sample : Sample) : RingHeader :=
  { header with
    head := header.head + 1
    producerState := if sample.last then .finished else header.producerState }

def consumedHeader (header : RingHeader) : RingHeader := { header with tail := header.tail + 1 }

def publishStep (s : State) (sample : Sample) : State :=
  match s.publisher with
  | .idle =>
    match publishChecks slotCount s.mapping.header sample with
    | .ok () => { s with publisher := .claimed s.mapping.header sample }
    | .error _ => s
  | .claimed header sample =>
    let sequence := header.head + 1
    { s with
      mapping := { s.mapping with
        slots := Function.update s.mapping.slots (ringSlotIndex sequence slotCount)
          (slotOf typeIdentity sequence sample) }
      publisher := .written header sample }
  | .written header sample =>
    { s with
      mapping := { s.mapping with header := publishedHeader header sample }
      publisher := .idle
      published := s.published ++ [sample] }

def consumeStep (s : State) : State :=
  match s.consumer with
  | .idle =>
    if s.mapping.header.head = s.mapping.header.tail then s
    else { s with consumer := .claimed s.mapping.header }
  | .claimed header =>
    let expected := header.tail + 1
    let slot := s.mapping.slots (ringSlotIndex expected slotCount)
    if validRingSlot slot typeIdentity expected then
      { s with consumer := .loaded header slot }
    else { s with consumer := .idle }
  | .loaded header slot =>
    { s with
      mapping := { s.mapping with header := consumedHeader header }
      consumer := .idle
      consumed := s.consumed ++ [sampleOf slot] }

def step (s : State) : Event → State
  | .publisher sample => publishStep typeIdentity slotCount s sample
  | .consumer => consumeStep typeIdentity slotCount s

/-- When the event is a party's header write, the header that party read is still there; and a
publish does not begin at the last head. -/
def headerCurrent (s : State) : Event → Bool
  | .publisher _ =>
    match s.publisher with
    | .idle => s.mapping.header.head.toNat + 1 < UInt64.size
    | .claimed _ _ => true
    | .written header _ => header == s.mapping.header
  | .consumer =>
    match s.consumer with
    | .loaded header _ => header == s.mapping.header
    | _ => true

/-- The samples that are published and not yet consumed, as the slots hold them. -/
def pending (s : State) : List Sample :=
  (List.range (s.published.length - s.consumed.length)).map fun offset =>
    sampleOf (s.mapping.slots
      (ringSlotIndex (UInt64.ofNat (s.consumed.length + offset + 1)) slotCount))

end Steps

theorem toNat_succ {cursor : UInt64} (h : cursor.toNat + 1 < UInt64.size) :
    (cursor + 1).toNat = cursor.toNat + 1 := by
  rw [UInt64.toNat_add]
  exact Nat.mod_eq_of_lt h

theorem ringSlotIndex_succ {slotCount : Nat} {cursor : UInt64}
    (hpower : isPowerOfTwo slotCount = true) (h : cursor.toNat + 1 < UInt64.size) :
    ringSlotIndex (cursor + 1) slotCount = (cursor.toNat + 1) % slotCount := by
  rw [ringSlotIndex, toNat_succ h]
  exact and_pred_eq_mod hpower _

theorem sampleOf_slotOf (typeIdentity sequence : UInt64) (sample : Sample) :
    sampleOf (slotOf typeIdentity sequence sample) = sample := by
  rcases sample with ⟨-, last⟩
  cases last <;> simp [sampleOf, slotOf, flagLast]

/-- A sample `publish` lets through. -/
def Fits (sample : Sample) : Prop :=
  0 < sample.payload.length ∧ sample.payload.length ≤ maxInlineBytes

theorem validRingSlot_slotOf {typeIdentity cursor : UInt64} {sample : Sample}
    (htype : typeIdentity ≠ 0) (hfits : Fits sample) (hlast : cursor.toNat + 1 < UInt64.size) :
    validRingSlot (slotOf typeIdentity (cursor + 1) sample) typeIdentity (cursor + 1) = true := by
  have hnonempty := ne_nil_of_length_pos hfits.1
  have hsequence : cursor + 1 ≠ 0 := fun hzero => by
    have := toNat_succ hlast
    simp [hzero] at this
  cases hcase : sample.last <;>
    simp [validRingSlot, slotOf, hcase, htype, hfits.2, hnonempty, hsequence, knownSlotFlags,
      flagLast]

section Invariant

variable {typeIdentity : UInt64} {slotCount : Nat} {s : State} {sent taken : List RingSlot}

def Mapping.lane (mapping : Mapping) : Lane RingSlot :=
  ⟨mapping.header.head.toNat, mapping.header.tail.toNat, mapping.slots⟩

def Publishing.producer (typeIdentity : UInt64) : Publishing → Producer RingSlot
  | .idle => .idle
  | .claimed header sample =>
    .claimed header.head.toNat header.tail.toNat (slotOf typeIdentity (header.head + 1) sample)
  | .written header sample =>
    .written header.head.toNat (slotOf typeIdentity (header.head + 1) sample)

def Publishing.Fits : Publishing → Prop
  | .idle => True
  | .claimed header sample | .written header sample =>
    StreamRing.Fits sample ∧ header.head.toNat + 1 < UInt64.size

def Consuming.consumer : Consuming → Consumer RingSlot
  | .idle => .idle
  | .claimed header => .claimed header.tail.toNat
  | .loaded header slot => .loaded header.tail.toNat slot

/-- Behind the samples stand the slots they were written to, each with its own number. -/
structure Exact (typeIdentity : UInt64) (slotCount : Nat) (s : State) (sent taken : List RingSlot) :
    Prop where
  ordered : Ordered slotCount s.mapping.lane sent taken
  valid : ∀ (cursor : UInt64) slot, sent[cursor.toNat]? = some slot →
    validRingSlot slot typeIdentity (cursor + 1) = true
  published_eq : s.published = sent.map sampleOf
  consumed_eq : s.consumed = taken.map sampleOf
  publisher : ProducerAt slotCount s.mapping.lane (s.publisher.producer typeIdentity)
  fits : s.publisher.Fits
  consumer : ConsumerAt s.mapping.lane sent s.consumer.consumer

theorem publishChecks_ok {header : RingHeader} {sample : Sample}
    (hle : header.tail.toNat ≤ header.head.toNat)
    (h : publishChecks slotCount header sample = .ok ()) :
    Fits sample ∧ header.head.toNat < header.tail.toNat + slotCount := by
  simp only [publishChecks, bind_eq_ok_iff, rejectIf_eq_ok_iff, exists_const] at h
  obtain ⟨hsize, hroom⟩ := h
  simp only [Bool.or_eq_false_iff, isEmpty_eq_false_iff, decide_eq_false_iff_not,
    UInt64.toNat_sub_of_le _ _ (UInt64.le_iff_toNat_le.mpr hle)] at hsize hroom
  exact ⟨⟨length_pos_iff.mpr hsize.1, by omega⟩, by omega⟩

theorem Exact.succ_lt {cursor : UInt64} (h : Exact typeIdentity slotCount s sent taken)
    (hsent : cursor.toNat < sent.length) : cursor.toNat + 1 < UInt64.size := by
  rw [← h.ordered.head_eq] at hsent
  exact (Nat.succ_le_of_lt hsent).trans_lt s.mapping.header.head.toNat_lt

variable (htype : typeIdentity ≠ 0) (hpower : isPowerOfTwo slotCount = true)
  (h : Exact typeIdentity slotCount s sent taken)
include htype hpower h

theorem publishStep_exact (sample : Sample)
    (hcurrent : headerCurrent s (.publisher sample) = true) :
    ∃ sent, Exact typeIdentity slotCount (publishStep typeIdentity slotCount s sample) sent
      taken := by
  have hat := h.publisher
  have hfits := h.fits
  unfold publishStep
  cases hpublisher : s.publisher with
  | idle =>
    dsimp only
    split
    · next hchecks =>
        obtain ⟨hfits, hroom⟩ := publishChecks_ok h.ordered.tail_le_head hchecks
        have hlast : s.mapping.header.head.toNat + 1 < UInt64.size := by
          simpa [headerCurrent, hpublisher] using hcurrent
        exact ⟨sent, { h with publisher := .claim hroom, fits := ⟨hfits, hlast⟩ }⟩
    · exact ⟨sent, h⟩
  | claimed header sample =>
    rw [hpublisher] at hat hfits
    dsimp only
    rw [ringSlotIndex_succ hpower hfits.2]
    exact ⟨sent, { h with
      ordered := h.ordered.write hat
      publisher := Ordered.written hat
      fits := hfits
      consumer := h.consumer.write }⟩
  | written header sample =>
    rw [hpublisher] at hat hfits
    obtain rfl : header = s.mapping.header := by
      simpa [headerCurrent, hpublisher] using hcurrent
    have hhead : s.mapping.header.head.toNat = sent.length := h.ordered.head_eq
    have hordered := h.ordered.publish hat
    rw [← toNat_succ hfits.2] at hordered
    refine ⟨sent ++ [slotOf typeIdentity (s.mapping.header.head + 1) sample],
      { ordered := hordered
        valid := ?_
        published_eq := by simp [h.published_eq, sampleOf_slotOf]
        consumed_eq := h.consumed_eq
        publisher := trivial
        fits := trivial
        consumer := h.consumer.publish }⟩
    intro cursor slot hslot
    rcases Nat.lt_or_ge cursor.toNat sent.length with hn | hn
    · rw [getElem?_append_left hn] at hslot
      exact h.valid cursor slot hslot
    -- the entry at the head is the one just written
    obtain rfl : cursor = s.mapping.header.head := by
      have hlt := (List.getElem_of_getElem? hslot).1
      simp only [length_append, length_singleton] at hlt
      exact UInt64.toNat_inj.mp (by omega)
    rw [hhead, getElem?_concat_length] at hslot
    obtain rfl := Option.some.inj hslot
    exact validRingSlot_slotOf htype hfits.1 hfits.2

omit htype in
theorem consumeStep_exact (hcurrent : headerCurrent s .consumer = true) :
    ∃ taken, Exact typeIdentity slotCount (consumeStep typeIdentity slotCount s) sent taken := by
  have hat := h.consumer
  unfold consumeStep
  cases hconsumer : s.consumer with
  | idle =>
    dsimp only
    split
    · exact ⟨taken, h⟩
    · next hready =>
        refine ⟨taken, { h with consumer := h.ordered.consumer_claim fun heq => hready ?_ }⟩
        exact UInt64.toNat_inj.mp heq
  | claimed header =>
    rw [hconsumer] at hat
    dsimp only
    have hloaded := h.ordered.load hat
    rw [ringSlotIndex_succ hpower (h.succ_lt hat.2)]
    have hvalid : validRingSlot (s.mapping.slots ((header.tail.toNat + 1) % slotCount)) typeIdentity
        (header.tail + 1) = true := h.valid header.tail _ hloaded.2
    rw [if_pos hvalid]
    exact ⟨taken, { h with consumer := hloaded }⟩
  | loaded header slot =>
    rw [hconsumer] at hat
    obtain rfl : header = s.mapping.header := by
      simpa [headerCurrent, hconsumer] using hcurrent
    have hsucc := toNat_succ (h.succ_lt (List.getElem_of_getElem? hat.2).1)
    have hordered := h.ordered.retire hat
    rw [← hsucc] at hordered
    exact ⟨taken ++ [slot],
      { h with
        ordered := hordered
        consumed_eq := by simp [h.consumed_eq]
        publisher := h.publisher.retire ((Nat.le_succ _).trans_eq hsucc.symm)
        consumer := trivial }⟩

theorem step_exact (event : Event) (hcurrent : headerCurrent s event = true) :
    ∃ sent taken,
      Exact typeIdentity slotCount (step typeIdentity slotCount s event) sent taken := by
  cases event with
  | publisher sample =>
    obtain ⟨sent, h⟩ := publishStep_exact htype hpower h sample hcurrent
    exact ⟨sent, taken, h⟩
  | consumer =>
    obtain ⟨taken, h⟩ := consumeStep_exact hpower h hcurrent
    exact ⟨sent, taken, h⟩

omit htype in
theorem Exact.published_split : s.published = s.consumed ++ pending slotCount s := by
  obtain ⟨rest, hrest⟩ := h.ordered.taken_first
  have hlength : s.published.length - s.consumed.length = rest.length := by
    simp [h.published_eq, h.consumed_eq, ← hrest]
  rw [h.published_eq, h.consumed_eq, ← hrest, map_append]
  refine congrArg _ (ext_getElem? fun offset => ?_)
  rw [pending, hlength, getElem?_map, getElem?_map]
  rcases Nat.lt_or_ge offset rest.length with hlt | hge
  · have hsent : taken.length + offset < sent.length := by
      rw [← hrest, length_append]
      omega
    have hheld := h.ordered.held (taken.length + offset) (Nat.le_add_right _ _) hsent
    have hfits : taken.length + offset + 1 < UInt64.size := by
      rw [← h.ordered.head_eq] at hsent
      exact (Nat.succ_le_of_lt hsent).trans_lt s.mapping.header.head.toNat_lt
    rw [← hrest, getElem?_append_right (Nat.le_add_right _ _), Nat.add_sub_cancel_left] at hheld
    rw [hheld, getElem?_range hlt, Option.map_some, Option.map_some, ringSlotIndex, h.consumed_eq,
      length_map, UInt64.toNat_ofNat_of_lt' hfits, and_pred_eq_mod hpower]
    rfl
  · rw [getElem?_eq_none hge, getElem?_eq_none (by simpa using hge)]
    rfl

end Invariant

theorem format_ok {mappingLen slotCount : Nat} {typeIdentity : UInt64} {mapping : Mapping}
    (h : format mappingLen typeIdentity slotCount = .ok mapping) :
    isPowerOfTwo slotCount = true ∧ typeIdentity ≠ 0 ∧
      mapping = ⟨⟨0, 0, .active⟩, fun _ => RingSlot.zeroed⟩ := by
  simp only [format, bind_eq_ok_iff, rejectIf_eq_ok_iff, exists_const,
    pure_eq_ok_iff, Bool.or_eq_false_iff] at h
  obtain ⟨⟨-, hpower⟩, ⟨-, htype⟩, rfl⟩ := h
  exact ⟨by simpa using hpower, by simpa using htype, rfl⟩

theorem exact_start (typeIdentity : UInt64) (slotCount : Nat) (slots : Nat → RingSlot) :
    Exact typeIdentity slotCount (State.start ⟨⟨0, 0, .active⟩, slots⟩) [] [] :=
  { ordered := ordered_empty slots
    valid := by simp
    published_eq := rfl
    consumed_eq := rfl
    publisher := trivial
    fits := trivial
    consumer := trivial }

def sampleA : Sample := ⟨[1], false⟩
def sampleB : Sample := ⟨[2], false⟩

/-- Two publishes and two consumes, each left to finish before the next one begins. -/
def inTurn : List Event :=
  [.publisher sampleA, .publisher sampleA, .publisher sampleA,
    .publisher sampleB, .publisher sampleB, .publisher sampleB,
    .consumer, .consumer, .consumer, .consumer, .consumer, .consumer]

/-- The second publish reads the header before the first sample is consumed and writes it
back after. -/
def overlapped : List Event :=
  [.publisher sampleA, .publisher sampleA, .publisher sampleA,
    .publisher sampleB, .publisher sampleB,
    .consumer, .consumer, .consumer,
    .publisher sampleB,
    .consumer, .consumer, .consumer]

end SlimeOs.StreamRing
