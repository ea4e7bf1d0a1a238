import Mathlib.Algebra.Group.Nat.Defs
import Mathlib.Data.List.Basic
import Mathlib.Order.Nat

/-!
A ring of slots between one producer and one consumer, each of which works in
separate steps: it takes a copy of the cursors, writes or reads one slot, and then
moves its own cursor. Between two of its steps the other party may take any number
of steps, so that a copy can be out of date when it is used.

Entries are numbered from one and entry `n` has slot `n % count`.
-/

namespace SlimeOs.SharedRing

open List

def isPowerOfTwo (n : Nat) : Bool := 2 ^ n.log2 == n

theorem and_pred_eq_mod {count : Nat} (h : isPowerOfTwo count = true) (n : Nat) :
    n &&& (count - 1) = n % count := by
  rw [← beq_iff_eq.mp h]
  exact Nat.and_two_pow_sub_one_eq_mod n count.log2

structure Lane (α : Type) where
  head : Nat
  tail : Nat
  slots : Nat → α

/-- What the producer is about to do: write its entry, or publish the one it has written. -/
inductive Producer (α : Type) where
  | idle
  | claimed (head tail : Nat) (entry : α)
  | written (head : Nat) (entry : α)

/-- What the consumer is about to do: read a slot, or give the one it has read free. -/
inductive Consumer (α : Type) where
  | idle
  | claimed (tail : Nat)
  | loaded (tail : Nat) (entry : α)

variable {α : Type} {count head : Nat} {lane : Lane α} {sent taken : List α} {entry : α}

/-- The entries taken are the first of those sent, and the others are in their slots. -/
structure Ordered (count : Nat) (lane : Lane α) (sent taken : List α) : Prop where
  head_eq : lane.head = sent.length
  tail_eq : lane.tail = taken.length
  taken_first : taken <+: sent
  room : sent.length ≤ taken.length + count
  held : ∀ n, taken.length ≤ n → n < sent.length →
    sent[n]? = some (lane.slots ((n + 1) % count))

/-- The producer's copy of its own cursor is current; the consumer can only have moved on. -/
def ProducerAt (count : Nat) (lane : Lane α) : Producer α → Prop
  | .idle => True
  | .claimed head tail _ => head = lane.head ∧ tail ≤ lane.tail ∧ head < tail + count
  | .written head entry =>
    head = lane.head ∧ head < lane.tail + count ∧ lane.slots ((head + 1) % count) = entry

/-- The consumer's copy of its own cursor is current and names an entry that was sent. -/
def ConsumerAt (lane : Lane α) (sent : List α) : Consumer α → Prop
  | .idle => True
  | .claimed tail => tail = lane.tail ∧ tail < sent.length
  | .loaded tail entry => tail = lane.tail ∧ sent[tail]? = some entry

theorem ordered_empty (slots : Nat → α) : Ordered count ⟨0, 0, slots⟩ [] [] :=
  { head_eq := rfl
    tail_eq := rfl
    taken_first := prefix_rfl
    room := Nat.zero_le _
    held := fun n _ hn => absurd hn (Nat.not_lt_zero n) }

theorem ProducerAt.claim (hroom : lane.head < lane.tail + count) :
    ProducerAt count lane (.claimed lane.head lane.tail entry) :=
  ⟨rfl, le_rfl, hroom⟩

namespace Ordered

variable (h : Ordered count lane sent taken)
include h

theorem tail_le_head : lane.tail ≤ lane.head := by
  rw [h.head_eq, h.tail_eq]
  exact h.taken_first.length_le

theorem consumer_claim (hready : lane.head ≠ lane.tail) :
    ConsumerAt lane sent (.claimed lane.tail) := by
  have := h.tail_le_head
  have := h.head_eq
  exact ⟨rfl, by omega⟩

theorem slot_ne {n : Nat} (hn : taken.length ≤ n) (hsent : n < sent.length)
    (hroom : lane.head < lane.tail + count) : (n + 1) % count ≠ (lane.head + 1) % count := by
  intro heq
  have hlt : lane.head - n < count := by
    have := h.tail_eq
    have := h.tail_le_head
    omega
  have hmod := Nat.sub_mod_eq_zero_of_mod_eq heq.symm
  rw [show lane.head + 1 - (n + 1) = lane.head - n by omega, Nat.mod_eq_of_lt hlt] at hmod
  have := h.head_eq
  omega

variable {tail : Nat}

theorem write (hat : ProducerAt count lane (.claimed head tail entry)) :
    Ordered count { lane with slots := Function.update lane.slots ((head + 1) % count) entry }
      sent taken := by
  obtain ⟨rfl, htail, hroom⟩ := hat
  refine ⟨h.head_eq, h.tail_eq, h.taken_first, h.room, fun n hn hsent => ?_⟩
  rw [h.held n hn hsent]
  refine congrArg some (Function.update_of_ne (h.slot_ne hn hsent ?_) entry lane.slots).symm
  omega

omit h in
theorem written {head tail : Nat} {entry : α}
    (hat : ProducerAt count lane (.claimed head tail entry)) :
    ProducerAt count { lane with slots := Function.update lane.slots ((head + 1) % count) entry }
      (.written head entry) := by
  obtain ⟨rfl, htail, hroom⟩ := hat
  exact ⟨rfl, by change lane.head < lane.tail + count; omega, Function.update_self ..⟩

theorem publish (hat : ProducerAt count lane (.written head entry)) :
    Ordered count { lane with head := head + 1 } (sent ++ [entry]) taken := by
  obtain ⟨rfl, hroom, hslot⟩ := hat
  have hhead := h.head_eq
  have htail := h.tail_eq
  refine ⟨by simp [hhead], htail, h.taken_first.trans (prefix_append _ _), ?_, ?_⟩
  · simp only [length_append, length_singleton]
    omega
  intro n hn hsent
  simp only [length_append, length_singleton] at hsent
  rcases Nat.lt_succ_iff_lt_or_eq.mp hsent with hold | rfl
  · rw [getElem?_append_left hold]
    exact h.held n hn hold
  · rw [getElem?_concat_length, ← hhead, hslot]

theorem load (hat : ConsumerAt lane sent (.claimed tail)) :
    ConsumerAt lane sent (.loaded tail (lane.slots ((tail + 1) % count))) := by
  obtain ⟨rfl, hsent⟩ := hat
  exact ⟨rfl, h.held lane.tail h.tail_eq.ge hsent⟩

theorem retire (hat : ConsumerAt lane sent (.loaded tail entry)) :
    Ordered count { lane with tail := tail + 1 } sent (taken ++ [entry]) := by
  obtain ⟨rfl, hentry⟩ := hat
  have htail := h.tail_eq
  obtain ⟨rest, rfl⟩ := h.taken_first
  rw [htail] at hentry
  obtain ⟨rest, rfl⟩ : ∃ rest', rest = entry :: rest' := by
    cases rest with
    | nil => simp at hentry
    | cons x xs => exact ⟨xs, by simpa using hentry⟩
  refine ⟨h.head_eq, by simp [htail], ⟨rest, by simp⟩, ?_, fun n hn hsent => ?_⟩
  · apply h.room.trans
    simp only [length_append, length_singleton]
    omega
  · refine h.held n ?_ hsent
    simp only [length_append, length_singleton] at hn
    omega

end Ordered

section Frame

theorem ProducerAt.retire {producer : Producer α} {tail : Nat}
    (hat : ProducerAt count lane producer) (hle : lane.tail ≤ tail) :
    ProducerAt count { lane with tail := tail } producer := by
  cases producer with
  | idle => trivial
  | claimed head copy entry => exact ⟨hat.1, hat.2.1.trans hle, hat.2.2⟩
  | written head entry => exact
      ⟨hat.1, hat.2.1.trans_le (Nat.add_le_add_right hle count), hat.2.2⟩

variable {consumer : Consumer α}

theorem ConsumerAt.write {slots : Nat → α} (hat : ConsumerAt lane sent consumer) :
    ConsumerAt { lane with slots := slots } sent consumer := by
  cases consumer with
  | idle => trivial
  | claimed tail => exact hat
  | loaded tail entry => exact hat

theorem ConsumerAt.publish (hat : ConsumerAt lane sent consumer) :
    ConsumerAt { lane with head := head } (sent ++ [entry]) consumer := by
  cases consumer with
  | idle => trivial
  | claimed tail => exact
      ⟨hat.1, hat.2.trans (by simp only [length_append, length_singleton]; omega)⟩
  | loaded tail loaded =>
    obtain ⟨htail, hloaded⟩ := hat
    refine ⟨htail, ?_⟩
    rw [getElem?_append_left]
    · exact hloaded
    · exact (List.getElem_of_getElem? hloaded).1

end Frame

end SlimeOs.SharedRing
