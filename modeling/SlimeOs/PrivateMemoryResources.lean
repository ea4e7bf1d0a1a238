import SlimeOs.CheckedWord
import SlimeOs.FallibleCall

/-!
The resource tuple every private-memory account is kept in, and its checked
componentwise arithmetic. `units` reads one component as a natural number; each
operation is characterised by one equation between units, so that accounting
arguments fix a component and are linear from there on.
-/

namespace SlimeOs.PrivateMemoryResources

open CheckedWord FallibleCall FallibleCall.Outcome

structure Resources where
  bytes : UInt64
  slots : UInt64
  descriptors : UInt64
  extents : UInt64
  tables : UInt64
deriving DecidableEq

inductive Error where
  | overflow
  | inventory
  | placement
  | unavailable
  | guarantee
  | denied
  | maximum
  | incarnation
  | transaction
  | cleanup
deriving DecidableEq

inductive Component where
  | bytes
  | slots
  | descriptors
  | extents
  | tables
deriving DecidableEq

namespace Resources

def zero : Resources := ⟨0, 0, 0, 0, 0⟩

def word (r : Resources) : Component → UInt64
  | .bytes => r.bytes
  | .slots => r.slots
  | .descriptors => r.descriptors
  | .extents => r.extents
  | .tables => r.tables

def units (r : Resources) (k : Component) : Nat := (r.word k).toNat

/-- Apply a partial word operation to every component, failing with `error` at
the first component where it is undefined. -/
def combine (op : UInt64 → UInt64 → Option UInt64) (error : Error)
    (self other : Resources) : Outcome Error Resources := do
  let bytes ← okOr (op self.bytes other.bytes) error
  let slots ← okOr (op self.slots other.slots) error
  let descriptors ← okOr (op self.descriptors other.descriptors) error
  let extents ← okOr (op self.extents other.extents) error
  let tables ← okOr (op self.tables other.tables) error
  pure ⟨bytes, slots, descriptors, extents, tables⟩

def checkedAdd (self other : Resources) : Outcome Error Resources :=
  combine CheckedWord.checkedAdd .overflow self other

def subtract (self other : Resources) : Outcome Error Resources :=
  combine checkedSub .unavailable self other

def pageShare (self : Resources) (pages totalPages : UInt64) : Resources :=
  if totalPages = 0 then zero
  else
    { bytes := self.bytes / totalPages * pages
      slots := self.slots / totalPages * pages
      descriptors := self.descriptors / totalPages * pages
      extents := self.extents / totalPages * pages
      tables := self.tables / totalPages * pages }

def minimum (self other : Resources) : Resources :=
  { bytes := wordMin self.bytes other.bytes
    slots := wordMin self.slots other.slots
    descriptors := wordMin self.descriptors other.descriptors
    extents := wordMin self.extents other.extents
    tables := wordMin self.tables other.tables }

variable (r : Resources) (k : Component)

theorem units_lt : r.units k < 2 ^ 64 := UInt64.toNat_lt _

@[simp] theorem units_zero : zero.units k = 0 := by
  cases k <;> rfl

variable {a b c : Resources}

theorem ext_units (h : ∀ k, a.units k = b.units k) : a = b := by
  have hword : ∀ k, a.word k = b.word k := fun k => UInt64.toNat_inj.mp (h k)
  rcases a with ⟨_, _, _, _, _⟩
  rcases b with ⟨_, _, _, _, _⟩
  simp only [mk.injEq]
  exact ⟨hword .bytes, hword .slots, hword .descriptors, hword .extents, hword .tables⟩

theorem eq_zero_iff : r = zero ↔ ∀ k, r.units k = 0 := by
  constructor
  · rintro rfl k
    exact units_zero k
  · intro h
    exact ext_units fun k => by rw [h k, units_zero]

variable (op : UInt64 → UInt64 → Option UInt64) (error : Error)

theorem combine_eq_ok_iff (a b c : Resources) :
    combine op error a b = .ok c ↔ ∀ k, op (a.word k) (b.word k) = some (c.word k) := by
  simp only [combine, bind_eq_ok_iff, okOr_eq_ok_iff, pure_eq_ok_iff]
  constructor
  · rintro ⟨bytes, hbytes, slots, hslots, descriptors, hdescriptors, extents, hextents,
      tables, htables, rfl⟩ k
    cases k <;> assumption
  · intro h
    exact ⟨_, h .bytes, _, h .slots, _, h .descriptors, _, h .extents, _, h .tables, rfl⟩

theorem exists_combine (h : ∀ k, ∃ word, op (a.word k) (b.word k) = some word) :
    ∃ c, combine op error a b = .ok c := by
  choose f hf using h
  refine ⟨⟨f .bytes, f .slots, f .descriptors, f .extents, f .tables⟩, ?_⟩
  rw [combine_eq_ok_iff]
  intro k
  cases k <;> exact hf _

theorem checkedAdd_eq_ok_iff : a.checkedAdd b = .ok c ↔ ∀ k, c.units k = a.units k + b.units k := by
  simp only [checkedAdd, combine_eq_ok_iff, checkedAdd_eq_some_iff, units]

theorem subtract_eq_ok_iff : a.subtract b = .ok c ↔ ∀ k, a.units k = b.units k + c.units k := by
  simp only [subtract, combine_eq_ok_iff, checkedSub_eq_some_iff, units]

theorem exists_checkedAdd (hfit : ∀ k, a.units k + b.units k < 2 ^ 64) :
    ∃ c, a.checkedAdd b = .ok c ∧ ∀ k, c.units k = a.units k + b.units k := by
  obtain ⟨c, hc⟩ := exists_combine CheckedWord.checkedAdd .overflow
    (fun k => (CheckedWord.exists_checkedAdd (hfit k)).imp fun _ h => h.1)
  exact ⟨c, hc, checkedAdd_eq_ok_iff.mp hc⟩

theorem exists_subtract (hle : ∀ k, b.units k ≤ a.units k) :
    ∃ c, a.subtract b = .ok c ∧ ∀ k, a.units k = b.units k + c.units k := by
  obtain ⟨c, hc⟩ := exists_combine checkedSub .unavailable
    (fun k => (exists_checkedSub (hle k)).imp fun _ h => h.1)
  exact ⟨c, hc, subtract_eq_ok_iff.mp hc⟩

@[simp] theorem units_minimum (a b : Resources) (k : Component) :
    (a.minimum b).units k = min (a.units k) (b.units k) := by
  cases k <;> exact toNat_wordMin _ _

/-- A share of at most the whole does not overflow: it is the pages times the floor-divided amount
of one. -/
theorem units_pageShare {pages totalPages : UInt64}
    (hle : pages.toNat ≤ totalPages.toNat) (k : Component) :
    (r.pageShare pages totalPages).units k = r.units k / totalPages.toNat * pages.toNat := by
  unfold pageShare
  split
  next hzero =>
    subst totalPages
    simp
  have hfit : r.units k / totalPages.toNat * pages.toNat < 2 ^ 64 := by
    calc
      r.units k / totalPages.toNat * pages.toNat ≤
          r.units k / totalPages.toNat * totalPages.toNat := Nat.mul_le_mul_left _ hle
      _ ≤ r.units k := Nat.div_mul_le_self _ _
      _ < 2 ^ 64 := r.units_lt k
  have hword : (r.word k / totalPages * pages).toNat =
      r.units k / totalPages.toNat * pages.toNat := by
    exact Nat.mod_eq_of_lt hfit
  cases k <;> exact hword

end Resources

end SlimeOs.PrivateMemoryResources
