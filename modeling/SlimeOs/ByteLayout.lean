import Mathlib.Data.List.Basic
import Mathlib.Tactic.Ring

/-!
Fixed-size byte arrays with fields at fixed offsets.

`slice` reads a field, `splice` overwrites one, and the little-endian word
codecs are exact inverses of each other. The offsets of a format are numerals,
so the bounds these lemmas ask for are closed arithmetic.
-/

namespace SlimeOs.ByteLayout

open Option

abbrev Bytes (n : Nat) := Vector UInt8 n

def zeros (n : Nat) : Bytes n := Vector.replicate n 0

/-- The field of `width` bytes at `offset`. -/
def slice {n : Nat} (bytes : Bytes n) (offset width : Nat) : Bytes width :=
  Vector.ofFn fun i => bytes[offset + i.val]?.getD 0

def field (bytes : List UInt8) (offset width : Nat) : Bytes width :=
  Vector.ofFn fun i => bytes.getD (offset + i.val) 0

/-- `copy_from_slice` of a whole field into the bytes at `offset`. -/
def splice {n m : Nat} (bytes : Bytes n) (offset : Nat) (field : Bytes m) : Bytes n :=
  Vector.ofFn fun i =>
    if offset ≤ i.val ∧ i.val < offset + m then field[i.val - offset]?.getD 0
    else bytes[i]

variable {n : Nat} (bytes : Bytes n)

theorem getD_of_lt {i : Nat} (hi : i < n) : bytes[i]?.getD 0 = bytes[i] := by
  rw [Vector.getElem?_eq_getElem hi, getD_some]

theorem getD_of_ge {i : Nat} (hi : ¬ i < n) : bytes[i]?.getD 0 = 0 := by
  rw [Vector.getElem?_eq_none (by omega), getD_none]

theorem getElem_slice (offset width i : Nat) (hi : i < width) :
    (slice bytes offset width)[i] = bytes[offset + i]?.getD 0 := by
  simp [slice]

variable (offset : Nat) {m : Nat}

theorem getElem_splice (field : Bytes m) (i : Nat) (hi : i < n) :
    (splice bytes offset field)[i] =
      if offset ≤ i ∧ i < offset + m then field[i - offset]?.getD 0 else bytes[i] := by
  simp [splice]

theorem slice_splice_same (field : Bytes m)
    (hfit : offset + m ≤ n) : slice (splice bytes offset field) offset m = field := by
  apply Vector.ext
  intro i hi
  have hin : offset + i < n := by omega
  rw [getElem_slice, getD_of_lt _ hin, getElem_splice, if_pos (by omega),
    Nat.add_sub_cancel_left, getD_of_lt _ hi]

theorem slice_splice_of_disjoint (field : Bytes m) (lo width : Nat)
    (hdisjoint : lo + width ≤ offset ∨ offset + m ≤ lo) :
    slice (splice bytes offset field) lo width = slice bytes lo width := by
  apply Vector.ext
  intro i hi
  rw [getElem_slice, getElem_slice]
  by_cases hin : lo + i < n
  · rw [getD_of_lt _ hin, getD_of_lt _ hin, getElem_splice, if_neg (by omega)]
  · rw [getD_of_ge _ hin, getD_of_ge _ hin]

theorem slice_zeros (n offset width : Nat) : slice (zeros n) offset width = zeros width := by
  apply Vector.ext
  intro i hi
  rw [getElem_slice]
  by_cases hin : offset + i < n
  · rw [getD_of_lt _ hin]
    simp [zeros]
  · rw [getD_of_ge _ hin]
    simp [zeros]

variable {second first : Bytes n} {width : Nat}

theorem getElem_eq_of_slice_eq {offset : Nat}
    (hslice : slice first offset width = slice second offset width) (i : Nat)
    (hi : i < n) (hlo : offset ≤ i) (hhi : i < offset + width) :
    first[i] = second[i] := by
  have hlt : i - offset < width := by omega
  have hback : offset + (i - offset) = i := by omega
  have hget := congrArg (fun field : Bytes width => field[i - offset]?.getD 0) hslice
  simpa only [getD_of_lt _ hlt, getElem_slice, hback, getD_of_lt _ hi] using hget

theorem slice_congr {offset : Nat}
    (hbytes : ∀ i (hi : i < n), offset ≤ i → i < offset + width → first[i] = second[i]) :
    slice first offset width = slice second offset width := by
  apply Vector.ext
  intro i hi
  rw [getElem_slice, getElem_slice]
  by_cases hin : offset + i < n
  · rw [getD_of_lt _ hin, getD_of_lt _ hin]
    exact hbytes (offset + i) hin (by omega) (by omega)
  · rw [getD_of_ge _ hin, getD_of_ge _ hin]

variable (bytes : List UInt8)

theorem getElem_field (offset width i : Nat) (hi : i < width) :
    (field bytes offset width)[i] = bytes.getD (offset + i) 0 := by
  simp [field]

theorem slice_field (offset width lo inner : Nat) (hfit : lo + inner ≤ width) :
    slice (field bytes offset width) lo inner = field bytes (offset + lo) inner := by
  apply Vector.ext
  intro i hi
  have hin : lo + i < width := by omega
  rw [getElem_slice, getD_of_lt _ hin, getElem_field, getElem_field, add_assoc]

theorem field_append_left (head : Bytes n) (tail : List UInt8) (offset width : Nat)
    (hfit : offset + width ≤ n) :
    field (head.toList ++ tail) offset width = slice head offset width := by
  apply Vector.ext
  intro i hi
  have hin : offset + i < n := by omega
  have hlist : offset + i < head.toList.length := by simpa using hin
  rw [getElem_field, getElem_slice, getD_of_lt _ hin, List.getD_eq_getElem?_getD,
    List.getElem?_append_left hlist, List.getElem?_eq_getElem hlist, getD_some,
    Vector.getElem_toList]

theorem toList_field (offset width : Nat) (hfit : offset + width ≤ bytes.length) :
    (field bytes offset width).toList = (bytes.drop offset).take width := by
  apply List.ext_getElem
  · simp
    omega
  intro i hi _
  have hwidth : i < width := by simpa using hi
  have hin : offset + i < bytes.length := by omega
  rw [Vector.getElem_toList, getElem_field, List.getElem_take, List.getElem_drop,
    List.getD_eq_getElem?_getD, List.getElem?_eq_getElem hin, getD_some]

theorem flatMap_field (width count : Nat) (hfit : count * width ≤ bytes.length) :
    ((List.range count).map fun index => field bytes (index * width) width).flatMap
        Vector.toList = bytes.take (count * width) := by
  induction count with
  | zero => simp
  | succ count ih =>
    have hwidth : (count + 1) * width = count * width + width := by ring
    rw [List.range_succ, List.map_append, List.flatMap_append, ih (by omega), hwidth, List.take_add]
    simp only [List.map_cons, List.map_nil, List.flatMap_cons, List.flatMap_nil, List.append_nil]
    rw [toList_field bytes _ _ (by omega)]

/-- `n` as `width` bytes, least significant first. -/
def leBytes : Nat → Nat → List UInt8
  | 0, _ => []
  | width + 1, n => UInt8.ofNat n :: leBytes width (n / 256)

/-- The number a list of bytes stands for, least significant first. -/
def leValue : List UInt8 → Nat
  | [] => 0
  | byte :: bytes => byte.toNat + 256 * leValue bytes

@[simp] theorem leBytes_length (width n : Nat) : (leBytes width n).length = width := by
  induction width generalizing n with
  | zero => rfl
  | succ width ih => simp [leBytes, ih]

theorem leValue_lt : leValue bytes < 256 ^ bytes.length := by
  induction bytes with
  | nil => simp [leValue]
  | cons byte bytes ih =>
    have hbyte : byte.toNat < 256 := byte.toNat_lt
    rw [leValue, List.length_cons]
    omega

theorem leValue_leBytes (width n : Nat) (hn : n < 256 ^ width) : leValue (leBytes width n) = n := by
  induction width generalizing n with
  | zero =>
    have hzero : n = 0 := by simpa using hn
    subst n
    rfl
  | succ width ih =>
    have hdiv : n / 256 < 256 ^ width := by
      apply Nat.div_lt_of_lt_mul
      rw [mul_comm]
      exact hn
    rw [leBytes, leValue, ih _ hdiv]
    have hbyte : (UInt8.ofNat n).toNat = n % 256 := by simp
    omega

theorem leBytes_leValue : leBytes bytes.length (leValue bytes) = bytes := by
  induction bytes with
  | nil => rfl
  | cons byte bytes ih =>
    have hbyte : byte.toNat < 256 := byte.toNat_lt
    have hhead : UInt8.ofNat (byte.toNat + 256 * leValue bytes) = byte := by
      apply UInt8.toNat_inj.mp
      simp only [UInt8.toNat_ofNat']
      omega
    have htail : (byte.toNat + 256 * leValue bytes) / 256 = leValue bytes := by omega
    rw [List.length_cons, leValue, leBytes, hhead, htail, ih]

/-- `u64::to_le_bytes`. -/
def toLe64 (word : UInt64) : Bytes 8 := ⟨(leBytes 8 word.toNat).toArray, by simp⟩

/-- `u64::from_le_bytes`. -/
def fromLe64 (bytes : Bytes 8) : UInt64 := UInt64.ofNat (leValue bytes.toList)

def toLe32 (word : UInt32) : Bytes 4 := ⟨(leBytes 4 word.toNat).toArray, by simp⟩

def fromLe32 (bytes : Bytes 4) : UInt32 := UInt32.ofNat (leValue bytes.toList)

@[simp] theorem fromLe64_toLe64 (word : UInt64) : fromLe64 (toLe64 word) = word := by
  apply UInt64.toNat_inj.mp
  have hlt := word.toNat_lt
  have hvalue : leValue (toLe64 word).toList = word.toNat := leValue_leBytes 8 word.toNat hlt
  rw [fromLe64, hvalue, UInt64.ofNat_toNat]

@[simp] theorem fromLe32_toLe32 (word : UInt32) : fromLe32 (toLe32 word) = word := by
  apply UInt32.toNat_inj.mp
  have hlt := word.toNat_lt
  have hvalue : leValue (toLe32 word).toList = word.toNat := leValue_leBytes 4 word.toNat hlt
  rw [fromLe32, hvalue, UInt32.ofNat_toNat]

theorem toNat_fromLe64 (bytes : Bytes 8) : (fromLe64 bytes).toNat = leValue bytes.toList := by
  have hlt := leValue_lt bytes.toList
  rw [Vector.length_toList] at hlt
  exact UInt64.toNat_ofNat_of_lt' hlt

theorem toNat_fromLe32 (bytes : Bytes 4) : (fromLe32 bytes).toNat = leValue bytes.toList := by
  have hlt := leValue_lt bytes.toList
  rw [Vector.length_toList] at hlt
  exact UInt32.toNat_ofNat_of_lt' hlt

@[simp] theorem toLe64_fromLe64 (bytes : Bytes 8) : toLe64 (fromLe64 bytes) = bytes := by
  apply Vector.toList_inj.mp
  have hbytes := leBytes_leValue bytes.toList
  rw [Vector.length_toList] at hbytes
  change leBytes 8 (fromLe64 bytes).toNat = bytes.toList
  rw [toNat_fromLe64, hbytes]

@[simp] theorem toLe32_fromLe32 (bytes : Bytes 4) : toLe32 (fromLe32 bytes) = bytes := by
  apply Vector.toList_inj.mp
  have hbytes := leBytes_leValue bytes.toList
  rw [Vector.length_toList] at hbytes
  change leBytes 4 (fromLe32 bytes).toNat = bytes.toList
  rw [toNat_fromLe32, hbytes]

def u32At (bytes : List UInt8) (offset : Nat) : UInt32 := fromLe32 (field bytes offset 4)

def u64At (bytes : List UInt8) (offset : Nat) : UInt64 := fromLe64 (field bytes offset 8)

end SlimeOs.ByteLayout
