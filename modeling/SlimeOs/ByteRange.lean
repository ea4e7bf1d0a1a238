import SlimeOs.ByteLayout

/-!
Ranges of a byte string. A string that is read range by range, each range decoded to a
value that determines its bytes, is the concatenation of the encodings.
-/

namespace SlimeOs.ByteRange

open ByteLayout List

/-- The `width` bytes from `offset` on, as far as there are any. -/
def part (bytes : List UInt8) (offset width : Nat) : List UInt8 := (bytes.drop offset).take width

/-- `get` of a range: nothing when it does not lie inside. -/
def part? (bytes : List UInt8) (offset width : Nat) : Option (List UInt8) :=
  if offset + width ≤ bytes.length then some (part bytes offset width) else none

def numberAt (bytes : List UInt8) (offset width : Nat) : Nat := leValue (part bytes offset width)

def isZero (bytes : List UInt8) : Bool := bytes.all (· == 0)

variable {bytes : List UInt8} {offset width : Nat}

theorem length_part
    (hfit : offset + width ≤ bytes.length) : (part bytes offset width).length = width := by
  simp only [part, length_take, length_drop]
  omega

theorem part_eq_of_part?_eq {range : List UInt8} (h : part? bytes offset width = some range) :
    offset + width ≤ bytes.length ∧ range = part bytes offset width := by
  unfold part? at h
  split at h
  · next hfit => exact ⟨hfit, (Option.some.inj h).symm⟩
  · exact absurd h (by simp)

theorem part_whole (bytes : List UInt8) : part bytes 0 bytes.length = bytes := by
  simp [part]

theorem part_add (bytes : List UInt8) (offset first second : Nat) :
    part bytes offset (first + second) =
      part bytes offset first ++ part bytes (offset + first) second := by
  rw [part, part, part, take_add, drop_drop]

theorem leBytes_numberAt (hfit : offset + width ≤ bytes.length) :
    leBytes width (numberAt bytes offset width) = part bytes offset width := by
  have h := leBytes_leValue (part bytes offset width)
  rwa [length_part hfit] at h

theorem eq_replicate_of_isZero (h : isZero bytes = true) :
    bytes = List.replicate bytes.length 0 := by
  simpa [isZero, eq_replicate_iff] using h

theorem part_of_isZero
    (hfit : offset + width ≤ bytes.length) (h : isZero (part bytes offset width) = true) :
    part bytes offset width = List.replicate width 0 := by
  have hzero := eq_replicate_of_isZero h
  rwa [length_part hfit] at hzero

end SlimeOs.ByteRange
