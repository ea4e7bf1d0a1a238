import Mathlib.Data.UInt
import Mathlib.Tactic.Linarith

/-!
Checked and saturating arithmetic on 64-bit words, each operation described by
one equation between natural numbers.
-/

namespace SlimeOs.CheckedWord

open Option

def checkedAdd (a b : UInt64) : Option UInt64 :=
  if a.toNat + b.toNat < 2 ^ 64 then some (a + b) else none

def checkedSub (a b : UInt64) : Option UInt64 :=
  if b ≤ a then some (a - b) else none

def checkedMul (a b : UInt64) : Option UInt64 :=
  if a.toNat * b.toNat < 2 ^ 64 then some (a * b) else none

/-- `1u64.checked_shl`: a shift by the word size or more is undefined. -/
def checkedShlOne (bits : UInt8) : Option UInt64 :=
  if bits.toNat < 64 then some (1 <<< bits.toUInt64) else none

def saturatingAdd (a b : UInt64) : UInt64 := (checkedAdd a b).getD (2 ^ 64 - 1)

/-- Of words that are carried as numbers. -/
def saturatingAddNat (a b : Nat) : Nat := min (a + b) (2 ^ 64 - 1)

def saturatingSub (a b : UInt64) : UInt64 := (checkedSub a b).getD 0

def divCeil (a b : UInt64) : UInt64 := if a % b = 0 then a / b else a / b + 1

def wordMin (a b : UInt64) : UInt64 := if a ≤ b then a else b

theorem exists_toNat_eq {n : Nat} (hfit : n < 2 ^ 64) : ∃ a : UInt64, a.toNat = n :=
  ⟨UInt64.ofNat n, UInt64.toNat_ofNat_of_lt' hfit⟩

variable {a b : UInt64}

theorem checkedAdd_eq_some_iff {c : UInt64} :
    checkedAdd a b = some c ↔ c.toNat = a.toNat + b.toNat := by
  unfold checkedAdd
  split
  next hfit =>
    have hsum : (a + b).toNat = a.toNat + b.toNat := by
      rw [UInt64.toNat_add, Nat.mod_eq_of_lt hfit]
    rw [some.injEq, ← UInt64.toNat_inj, hsum]
    exact eq_comm
  next hfit =>
    have hc := c.toNat_lt
    constructor
    · simp
    · omega

theorem checkedSub_eq_some_iff (a b c : UInt64) :
    checkedSub a b = some c ↔ a.toNat = b.toNat + c.toNat := by
  unfold checkedSub
  split
  next hle =>
    have hnat := UInt64.le_iff_toNat_le.mp hle
    rw [some.injEq, ← UInt64.toNat_inj, UInt64.toNat_sub_of_le a b hle]
    omega
  rename_i hle
  have hnat : ¬ b.toNat ≤ a.toNat := fun h => hle (UInt64.le_iff_toNat_le.mpr h)
  constructor
  · simp
  · omega

theorem exists_checkedAdd {a b : UInt64} (hfit : a.toNat + b.toNat < 2 ^ 64) :
    ∃ c, checkedAdd a b = some c ∧ c.toNat = a.toNat + b.toNat := by
  refine ⟨a + b, by rw [checkedAdd, if_pos hfit], ?_⟩
  rw [UInt64.toNat_add, Nat.mod_eq_of_lt hfit]

theorem exists_checkedSub (hle : b.toNat ≤ a.toNat) :
    ∃ c, checkedSub a b = some c ∧ a.toNat = b.toNat + c.toNat := by
  have hword : b ≤ a := UInt64.le_iff_toNat_le.mpr hle
  refine ⟨a - b, by simp [checkedSub, hword], ?_⟩
  rw [UInt64.toNat_sub_of_le a b hword]
  omega

theorem exists_checkedMul (hfit : a.toNat * b.toNat < 2 ^ 64) :
    ∃ c, checkedMul a b = some c ∧ c.toNat = a.toNat * b.toNat := by
  refine ⟨a * b, by rw [checkedMul, if_pos hfit], ?_⟩
  rw [UInt64.toNat_mul, Nat.mod_eq_of_lt hfit]

variable (a b : UInt64)

theorem toNat_saturatingSub : (saturatingSub a b).toNat = a.toNat - b.toNat := by
  unfold saturatingSub
  rcases hsub : checkedSub a b with _ | c
  · have hlt : ¬ b.toNat ≤ a.toNat := by
      intro hle
      obtain ⟨c, hc, -⟩ := exists_checkedSub hle
      simp [hsub] at hc
    simp only [getD_none, UInt64.toNat_zero]
    omega
  · have := (checkedSub_eq_some_iff a b c).mp hsub
    simp only [getD_some]
    omega

theorem toNat_wordMin : (wordMin a b).toNat = min a.toNat b.toNat := by
  unfold wordMin
  rw [min_def]
  simp only [UInt64.le_iff_toNat_le]
  split <;> rfl

theorem toNat_divCeil (hb : 1 < b.toNat) :
    (divCeil a b).toNat = (a.toNat + (b.toNat - 1)) / b.toNat := by
  have hdecompose := Nat.div_add_mod a.toNat b.toNat
  have hrest : a.toNat % b.toNat < b.toNat := Nat.mod_lt _ (by omega)
  have hdiv := UInt64.toNat_div a b
  have hmod := UInt64.toNat_mod a b
  unfold divCeil
  split
  next hzero =>
    have hexact : a.toNat % b.toNat = 0 := by rw [← hmod, hzero]; rfl
    rw [hdiv]
    symm
    apply Nat.div_eq_of_lt_le
    · rw [mul_comm]
      omega
    · rw [add_mul, mul_comm]
      omega
  next hnonzero =>
    have hpositive : a.toNat % b.toNat ≠ 0 := by
      intro hexact
      exact hnonzero (UInt64.toNat_inj.mp (by rw [hmod, hexact]; rfl))
    have hhalf : a.toNat / b.toNat ≤ a.toNat / 2 := Nat.div_le_div_left hb (by omega)
    have hsmall : a.toNat / b.toNat + 1 < 2 ^ 64 := by
      have := a.toNat_lt
      omega
    rw [UInt64.toNat_add, hdiv, UInt64.toNat_one, Nat.mod_eq_of_lt hsmall]
    symm
    apply Nat.div_eq_of_lt_le
    · rw [add_mul, mul_comm]
      omega
    · rw [add_mul, add_mul, mul_comm]
      omega

end SlimeOs.CheckedWord
