import Mathlib.Algebra.Group.Nat.Defs
import Mathlib.Data.List.Perm.Subperm
import Mathlib.Data.Nat.Basic

/-!
The bits of a 64-bit word: which are set, how many, and which is the lowest.
Equalities of words are proved bit by bit.
-/

namespace SlimeOs.BitWord

open List

def testBit (word : UInt64) (bit : Nat) : Bool := word.toBitVec.getLsbD bit

/-- `u64::count_ones`. -/
def countOnes (word : UInt64) : Nat := (List.range 64).countP (testBit word)

theorem ext {first second : UInt64}
    (h : ∀ bit, bit < 64 → testBit first bit = testBit second bit) : first = second := by
  apply UInt64.toBitVec_inj.mp
  apply BitVec.eq_of_getLsbD_eq
  exact h

variable (bit : Nat)

@[simp] theorem testBit_zero : testBit 0 bit = false := by
  simp [testBit]

variable (first second : UInt64)

@[simp] theorem testBit_and :
    testBit (first &&& second) bit = (testBit first bit && testBit second bit) := by
  simp [testBit]

@[simp] theorem testBit_or :
    testBit (first ||| second) bit = (testBit first bit || testBit second bit) := by
  simp [testBit]

variable {bit : Nat} (word : UInt64)

theorem testBit_not (hbit : bit < 64) : testBit (~~~word) bit = !testBit word bit := by
  simp [testBit, hbit]

theorem and_eq_zero_iff :
    first &&& second = 0 ↔
      ∀ bit, bit < 64 → testBit first bit = true → testBit second bit = false := by
  constructor
  · intro h bit hbit hfirst
    have hand : testBit (first &&& second) bit = false := by
      rw [h]
      exact testBit_zero bit
    rw [testBit_and, hfirst] at hand
    exact hand
  · intro h
    apply ext
    intro bit hbit
    rw [testBit_and, testBit_zero]
    rcases hfirst : testBit first bit with _ | _
    · rfl
    · rw [h bit hbit hfirst]
      rfl

/-- `1 << bit`. -/
def bitMask (bit : Nat) : UInt64 := 1 <<< UInt64.ofNat bit

/-- `MAX >> (64 - valid)`. -/
def lowMask (valid : Nat) : UInt64 := UInt64.ofNat (2 ^ 64 - 1) >>> UInt64.ofNat (64 - valid)

/-- `trailing_zeros`. -/
def trailingZeros (word : UInt64) : Nat := ((List.range 64).find? (testBit word)).getD 64

theorem testBit_bitMask (hbit : bit < 64) (other : Nat) :
    testBit (bitMask bit) other = decide (other = bit) := by
  have hword : (bitMask bit).toNat = 2 ^ bit := by
    have hpow : 2 ^ bit < 2 ^ 64 := Nat.pow_lt_pow_right (by decide) hbit
    rw [bitMask, UInt64.toNat_shiftLeft, UInt64.toNat_ofNat', Nat.mod_eq_of_lt (a := bit)
      (by omega), Nat.mod_eq_of_lt hbit, UInt64.toNat_one, Nat.shiftLeft_eq, Nat.one_mul,
      Nat.mod_eq_of_lt hpow]
  have hget : testBit (bitMask bit) other = (bitMask bit).toNat.testBit other := by
    simp [testBit, BitVec.getLsbD]
  rw [hget, hword, Nat.testBit_two_pow]
  simp [eq_comm]

theorem testBit_lowMask {valid : Nat} (hvalid : 0 < valid) (hfits : valid ≤ 64) :
    testBit (lowMask valid) bit = decide (bit < valid) := by
  have hget : testBit (lowMask valid) bit = (lowMask valid).toNat.testBit bit := by
    simp [testBit, BitVec.getLsbD]
  have hword : (lowMask valid).toNat = (2 ^ 64 - 1) >>> (64 - valid) := by
    rw [lowMask, UInt64.toNat_shiftRight, UInt64.toNat_ofNat', UInt64.toNat_ofNat',
      Nat.mod_eq_of_lt (a := 64 - valid) (by omega), Nat.mod_eq_of_lt (a := 64 - valid) (by omega),
      Nat.mod_eq_of_lt (a := 2 ^ 64 - 1) (by decide)]
  rw [hget, hword, Nat.testBit_shiftRight, Nat.testBit_two_pow_sub_one]
  simp only [decide_eq_decide]
  omega

theorem and_bitMask_eq_zero_iff (hbit : bit < 64) :
    word &&& bitMask bit = 0 ↔ testBit word bit = false := by
  rw [and_eq_zero_iff]
  constructor
  · intro h
    by_contra hset
    have hclear := h bit hbit (by simpa using hset)
    rw [testBit_bitMask hbit bit] at hclear
    simp at hclear
  · intro h other hother hset
    rw [testBit_bitMask hbit other, decide_eq_false_iff_not]
    rintro rfl
    rw [h] at hset
    cases hset

variable {word : UInt64}

theorem trailingZeros_spec (hword : word ≠ 0) :
    trailingZeros word < 64 ∧ testBit word (trailingZeros word) = true ∧
      ∀ bit, bit < trailingZeros word → testBit word bit = false := by
  unfold trailingZeros
  rcases hfind : (List.range 64).find? (testBit word) with _ | bit
  · exfalso
    apply hword
    apply ext
    intro bit hbit
    simpa using find?_eq_none.mp hfind bit (mem_range.mpr hbit)
  · rw [find?_range_eq_some] at hfind
    obtain ⟨hset, hmem, hbefore⟩ := hfind
    refine ⟨mem_range.mp hmem, hset, ?_⟩
    intro lower hlower
    simpa using hbefore lower hlower

def OneBit (word : UInt64) : Prop := countOnes word = 1

theorem OneBit.exists_bit (h : OneBit word) : ∃ bit, bit < 64 ∧ testBit word bit = true := by
  have hpos : 0 < (List.range 64).countP (testBit word) := by
    change 0 < countOnes word
    rw [h]
    exact Nat.one_pos
  obtain ⟨bit, hbit, hset⟩ := countP_pos_iff.mp hpos
  exact ⟨bit, mem_range.mp hbit, hset⟩

theorem OneBit.unique (h : OneBit word) {other : Nat} (hbit : bit < 64)
    (hother : other < 64) (hset : testBit word bit = true) (hset' : testBit word other = true) :
    bit = other := by
  by_contra hne
  have hpair : List.Subperm [bit, other] (List.range 64) := by
    apply subperm_of_subset
    · simpa using hne
    intro i hi
    rw [mem_range]
    rcases mem_cons.mp hi with rfl | hi
    · exact hbit
    · rw [mem_singleton.mp hi]
      exact hother
  have hcount := hpair.countP_le (testBit word)
  change _ ≤ countOnes word at hcount
  rw [h] at hcount
  simp [hset, hset'] at hcount

theorem OneBit.and_eq_zero_iff_ne {first second : UInt64} (hfirst : OneBit first)
    (hsecond : OneBit second) : first &&& second = 0 ↔ first ≠ second := by
  rw [and_eq_zero_iff]
  constructor
  · rintro h rfl
    obtain ⟨bit, hbit, hset⟩ := hfirst.exists_bit
    rw [h bit hbit hset] at hset
    cases hset
  intro hne bit hbit hset
  by_contra hother
  rw [Bool.not_eq_false] at hother
  apply hne
  apply ext
  intro i hi
  rcases hi' : testBit first i with _ | _
  · rcases hj : testBit second i with _ | _
    · rfl
    · rw [← hsecond.unique hbit hi hother hj] at hi'
      rw [hset] at hi'
      cases hi'
  · rw [← hfirst.unique hbit hi hset hi', hother]

def orAll (words : List UInt64) : UInt64 := words.foldr (· ||| ·) 0

theorem testBit_orAll (words : List UInt64) (bit : Nat) :
    testBit (orAll words) bit = true ↔ ∃ word ∈ words, testBit word bit = true := by
  induction words with
  | nil => simp [orAll]
  | cons word words ih =>
    change testBit (word ||| orAll words) bit = true ↔ _
    rw [testBit_or, Bool.or_eq_true, ih]
    simp

end SlimeOs.BitWord
