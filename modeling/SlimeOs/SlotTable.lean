import SlimeOs.TableSum

/-!
Fixed tables of optional entries, as in `[Option<T>; N]`. Entries are found by
scanning, put into free slots and taken out of their own. A total over a table
changes by the one entry that was put or taken.
-/

namespace SlimeOs.SlotTable

open Option TableSum

abbrev Slots (α : Type) (n : Nat) := Vector (Option α) n

variable {α κ : Type} {n bound : Nat} {table' : Slots α n} {b : α}

def Holds (table : Slots α n) (i : Nat) (a : α) : Prop := table[i]? = some (some a)

/-- `iter().flatten()`. -/
def entries (table : Slots α n) : List α := table.toList.filterMap id

/-- `iter().position(..)` of an entry with the property. -/
def findSlot (p : α → Bool) (table : Slots α n) : Option Nat :=
  table.toList.findIdx? fun slot => slot.any p

/-- `iter().position(Option::is_none)`. -/
def freeSlot (table : Slots α n) : Option Nat := table.toList.findIdx? Option.isNone

/-- `iter().flatten().find(..)`. -/
def find (p : α → Bool) (table : Slots α n) : Option α := (entries table).find? p

def clearBelow (marks : Vector Bool n) (table : Slots α n) : Nat → Slots α n
  | 0 => table
  | bound + 1 =>
    if marks[bound]? = some true then (clearBelow marks table bound).setIfInBounds bound none
    else clearBelow marks table bound

@[irreducible]
def cleared (marks : Vector Bool n) (table : Slots α n) : Slots α n := clearBelow marks table n

section Lookup

variable {table : Slots α n} {i j : Nat} {a b : α} {p : α → Bool} {slot : Option α}
  {P : Nat → α → Prop} {marks : Vector Bool n}

theorem Holds.lt (h : Holds table i a) : i < n := (Vector.getElem_of_getElem? h).1

theorem Holds.unique (h : Holds table i a) (h' : Holds table i b) : a = b :=
  some.inj (mem_unique h h')

theorem Holds.join (h : Holds table i a) : table[i]?.join = some a := congrArg Option.join h

theorem holds_of_join (h : table[i]?.join = some a) : Holds table i a := join_eq_some_iff.mp h

theorem mem_entries : a ∈ entries table ↔ ∃ i, Holds table i a := by
  simp only [entries, List.mem_filterMap, id_eq, exists_eq_right, Vector.mem_toList_iff, Holds]
  constructor
  · intro hmem
    obtain ⟨i, hi, hget⟩ := Vector.getElem_of_mem hmem
    exact ⟨i, Vector.getElem?_eq_some_iff.mpr ⟨hi, hget⟩⟩
  · rintro ⟨i, hget⟩
    exact Vector.mem_of_getElem? hget

theorem find_eq_some (h : find p table = some a) : (∃ i, Holds table i a) ∧ p a = true :=
  ⟨mem_entries.mp (List.mem_of_find?_eq_some h), List.find?_some h⟩

theorem find_eq_none (h : find p table = none) (ha : Holds table i a) : p a = false := by
  simpa using List.find?_eq_none.mp h a (mem_entries.mpr ⟨i, ha⟩)

theorem findSlot_eq_some (h : findSlot p table = some i) : ∃ a, Holds table i a ∧ p a = true := by
  obtain ⟨hi, hslot, -⟩ := List.findIdx?_eq_some_iff_getElem.mp h
  rw [Vector.length_toList] at hi
  rw [any_eq_true] at hslot
  obtain ⟨a, hget, ha⟩ := hslot
  exact ⟨a, Vector.getElem?_eq_some_iff.mpr ⟨hi, hget⟩, ha⟩

theorem findSlot_eq_none (h : findSlot p table = none) (ha : Holds table i a) : p a = false := by
  have hslot := List.findIdx?_eq_none_iff.mp h (some a)
    (Vector.mem_toList_iff.mpr (Vector.mem_of_getElem? ha))
  simpa using hslot

theorem freeSlot_eq_some (h : freeSlot table = some i) : table[i]? = some none := by
  obtain ⟨hi, hslot, -⟩ := List.findIdx?_eq_some_iff_getElem.mp h
  rw [Vector.length_toList] at hi
  rw [isNone_iff_eq_none] at hslot
  exact Vector.getElem?_eq_some_iff.mpr ⟨hi, hslot⟩

theorem freeSlot_eq_none (h : freeSlot table = none) (hi : i < n) : ∃ a, Holds table i a := by
  have hslot := List.findIdx?_eq_none_iff.mp h table[i]
    (Vector.mem_toList_iff.mpr (Vector.getElem_mem hi))
  rcases hget : table[i] with _ | a
  · rw [hget] at hslot
    cases hslot
  · exact ⟨a, Vector.getElem?_eq_some_iff.mpr ⟨hi, hget⟩⟩

theorem holds_set : Holds (table.setIfInBounds i slot) j a ↔
      (i = j ∧ i < n ∧ slot = some a) ∨ (i ≠ j ∧ Holds table j a) := by
  unfold Holds
  by_cases hij : i = j
  · subst hij
    by_cases hi : i < n
    · simp [hi]
    · simp [hi]
  · simp [hij]

theorem forall_holds_put (hput : P i a) (hkept : ∀ j b, Holds table j b → P j b) :
    ∀ j b, Holds (table.setIfInBounds i (some a)) j b → P j b := by
  intro j b hb
  rcases holds_set.mp hb with ⟨rfl, -, heq⟩ | ⟨-, hb⟩
  · exact some.inj heq ▸ hput
  · exact hkept j b hb

theorem holds_put (hfree : table[i]? = some none) (hb : Holds table j b) :
    Holds (table.setIfInBounds i slot) j b := by
  refine holds_set.mpr (.inr ⟨?_, hb⟩)
  rintro rfl
  exact absurd (hb.symm.trans hfree) nofun

theorem holds_set_none : Holds (table.setIfInBounds i none) j a ↔ i ≠ j ∧ Holds table j a := by
  rw [holds_set]
  simp

/-- An entry that is replaced by a related one leaves every entry with a related one. -/
theorem exists_holds_put {R : α → α → Prop} (ha : Holds table i a) (hput : R b a)
    (hrefl : ∀ c, R c c) : ∀ j c, Holds table j c →
      ∃ d, Holds (table.setIfInBounds i (some b)) j d ∧ R d c := by
  intro j c hc
  by_cases hij : i = j
  · subst hij
    rw [hc.unique ha]
    exact ⟨b, holds_set.mpr (.inl ⟨rfl, ha.lt, rfl⟩), hput⟩
  · exact ⟨c, holds_set.mpr (.inr ⟨hij, hc⟩), hrefl c⟩

theorem not_holds_empty : ¬ Holds (Vector.replicate n (none : Option α)) i a := by
  unfold Holds
  rw [Vector.getElem?_replicate]
  split <;> simp

theorem forall_holds_empty : ∀ i a, Holds (Vector.replicate n none) i a → P i a :=
  fun _ _ ha => absurd ha not_holds_empty

theorem holds_clearBelow :
    Holds (clearBelow marks table bound) i a ↔
      Holds table i a ∧ ¬ (i < bound ∧ marks[i]? = some true) := by
  induction bound with
  | zero => simp [clearBelow]
  | succ bound ih =>
    unfold clearBelow
    by_cases hi : bound = i
    · subst hi
      by_cases hmark : marks[bound]? = some true
      · simp [hmark, holds_set_none]
      · simp [hmark, ih]
    have hlt : i < bound + 1 ↔ i < bound := by omega
    rw [hlt, ← ih]
    split
    · simp [holds_set_none, hi]
    · rfl

theorem Holds.clearBelow (h : Holds table i a) (marks : Vector Bool n) :
    Holds (SlotTable.clearBelow marks table i) i a :=
  holds_clearBelow.mpr ⟨h, fun hlt => Nat.lt_irrefl i hlt.1⟩

theorem holds_cleared :
    Holds (cleared marks table) i a ↔ Holds table i a ∧ marks[i]? ≠ some true := by
  unfold cleared
  rw [holds_clearBelow]
  refine and_congr_right fun ha => ?_
  simp [ha.lt]

theorem holds_of_cleared {marks : Vector Bool n} :
    ∀ i a, Holds (cleared marks table) i a → Holds table i a :=
  fun _ _ ha => (holds_cleared.mp ha).1

theorem holds_map {β : Type} {f : α → β} {b : β} :
    Holds (table.map (Option.map f)) i b ↔ ∃ a, Holds table i a ∧ f a = b := by
  unfold Holds
  rw [Vector.getElem?_map]
  constructor
  · intro h
    obtain ⟨slot, hslot, hb⟩ := map_eq_some_iff.mp h
    obtain ⟨a, rfl, hfa⟩ := map_eq_some_iff.mp hb
    exact ⟨a, hslot, hfa⟩
  · rintro ⟨a, ha, rfl⟩
    rw [ha]
    rfl

end Lookup

section Keys

variable {key : α → κ} {table : Slots α n} {i : Nat} {a : α}

def Distinct (key : α → κ) (table : Slots α n) : Prop :=
  ∀ i j a b, Holds table i a → Holds table j b → key a = key b → i = j

theorem distinct_empty : Distinct key (Vector.replicate n none : Slots α n) :=
  fun _ _ _ _ ha => absurd ha not_holds_empty

section

variable (h : Distinct key table)
include h

theorem Distinct.entry_eq {j : Nat} (ha : Holds table i a)
    (hb : Holds table j b) (hkey : key a = key b) : a = b := by
  obtain rfl := h i j a b ha hb hkey
  exact ha.unique hb

theorem Distinct.find (ha : Holds table i a) (p : α → Bool)
    (hp : ∀ b, p b = true → key b = key a) (hpa : p a = true) :
    SlotTable.find p table = some a := by
  rcases hfind : SlotTable.find p table with _ | b
  · rw [find_eq_none hfind ha] at hpa
    cases hpa
  · obtain ⟨⟨j, hb⟩, hpb⟩ := find_eq_some hfind
    rw [h.entry_eq ha hb (hp b hpb).symm]

theorem Distinct.findSlot (ha : Holds table i a) (p : α → Bool)
    (hp : ∀ b, p b = true → key b = key a) (hpa : p a = true) :
    SlotTable.findSlot p table = some i := by
  rcases hfind : SlotTable.findSlot p table with _ | j
  · rw [findSlot_eq_none hfind ha] at hpa
    cases hpa
  · obtain ⟨b, hb, hpb⟩ := findSlot_eq_some hfind
    rw [h i j a b ha hb (hp b hpb).symm]

theorem Distinct.mono (hsub : ∀ i a, Holds table' i a → Holds table i a) : Distinct key table' :=
  fun i j a b ha hb hkey => h i j a b (hsub i a ha) (hsub j b hb) hkey

theorem Distinct.set (hown : ∀ j b, Holds table j b → key b = key a → j = i) :
    Distinct key (table.setIfInBounds i (some a)) := by
  intro j k b c hb hc hkey
  rw [holds_set] at hb hc
  rcases hb with ⟨rfl, -, hb⟩ | ⟨-, hb⟩ <;> rcases hc with ⟨rfl, -, hc⟩ | ⟨-, hc⟩
  · rfl
  · obtain rfl := some.inj hb
    exact (hown k c hc hkey.symm).symm
  · obtain rfl := some.inj hc
    exact hown j b hb hkey
  · exact h j k b c hb hc hkey

theorem Distinct.put (hnew : ∀ j b, Holds table j b → key b ≠ key a) :
    Distinct key (table.setIfInBounds i (some a)) :=
  h.set fun j b hb hkey => absurd hkey (hnew j b hb)

theorem Distinct.replace (ha : Holds table i a)
    (hkey : key b = key a) : Distinct key (table.setIfInBounds i (some b)) :=
  h.set fun j c hc hsame => h j i c a hc ha (hsame.trans hkey)

end

end Keys

section Totals

variable {table : Slots α n} {i : Nat} {a : α} (weight : α → Nat)

def slotWeight (weight : α → Nat) (slot : Option α) : Nat := (slot.map weight).getD 0

def total (weight : α → Nat) (table : Slots α n) : Nat :=
  tableSum (fun _ slot => slotWeight weight slot) table

theorem total_eq_sum_entries (table : Slots α n) :
    total weight table = ((entries table).map weight).sum := by
  unfold total
  rw [tableSum_eq_sum_toList]
  unfold entries
  induction table.toList with
  | nil => rfl
  | cons slot slots ih =>
    rw [List.map_cons, List.sum_cons, ih]
    cases slot with
    | none => simp [slotWeight]
    | some a => simp [slotWeight]

theorem total_set (hi : i < n) (slot : Option α) :
    total weight (table.setIfInBounds i slot) + slotWeight weight table[i] =
      total weight table + slotWeight weight slot := by
  have hset : table.setIfInBounds i slot = table.set i slot := by
    apply Vector.ext
    intro j hj
    rw [Vector.getElem_setIfInBounds, Vector.getElem_set]
  unfold total
  rw [hset, tableSum_set _ _ hi, tableSum_eq_othersSum_add _ table hi]
  omega

theorem total_put (hfree : table[i]? = some none) :
    total weight (table.setIfInBounds i (some a)) = total weight table + weight a := by
  obtain ⟨hi, hget⟩ := Vector.getElem_of_getElem? hfree
  have hset := @total_set _ _ table i weight hi (some a)
  rw [hget] at hset
  simpa [slotWeight] using hset

theorem total_take (ha : Holds table i a) :
    total weight (table.setIfInBounds i none) + weight a = total weight table := by
  obtain ⟨hi, hget⟩ := Vector.getElem_of_getElem? ha
  have hset := @total_set _ _ table i weight hi none
  rw [hget] at hset
  simpa [slotWeight] using hset

theorem total_replace (ha : Holds table i a) (hweight : weight b = weight a) :
    total weight (table.setIfInBounds i (some b)) = total weight table := by
  obtain ⟨hi, hget⟩ := Vector.getElem_of_getElem? ha
  have hset := @total_set _ _ table i weight hi (some b)
  rw [hget] at hset
  simp only [slotWeight, map_some, getD_some, hweight] at hset
  omega

theorem total_map {f : α → α} (hweight : ∀ a, weight (f a) = weight a) :
    total weight (table.map (Option.map f)) = total weight table := by
  apply tableSum_congr
  intro i hi
  rw [Vector.getElem_map]
  cases table[i] with
  | none => rfl
  | some a => exact hweight a

theorem total_mono (hsub : ∀ i a, Holds table' i a → Holds table i a) :
    total weight table' ≤ total weight table := by
  unfold total tableSum
  refine Finset.sum_le_sum fun i _ => ?_
  change slotWeight weight table'[i.val] ≤ slotWeight weight table[i.val]
  rcases hget : table'[i.val] with _ | a
  · exact Nat.zero_le _
  · have hheld := hsub i.val a (Vector.getElem?_eq_some_iff.mpr ⟨i.isLt, hget⟩)
    rw [(Vector.getElem_of_getElem? hheld).2]

theorem length_entries (table : Slots α n) : (entries table).length = total (fun _ => 1) table := by
  rw [total_eq_sum_entries, List.map_const', List.sum_replicate, smul_eq_mul, mul_one]

theorem le_total_of_full (hfull : ∀ i, i < n → ∃ a, Holds table i a)
    (hweight : ∀ a, 1 ≤ weight a) : n ≤ total weight table := by
  have hone : ∀ i : Fin n, 1 ≤ slotWeight weight table[i] := by
    intro i
    obtain ⟨a, ha⟩ := hfull i.val i.isLt
    rw [Fin.getElem_fin, (Vector.getElem_of_getElem? ha).2]
    exact hweight a
  calc n = ∑ _i : Fin n, 1 := by simp
    _ ≤ _ := Finset.sum_le_sum fun i _ => hone i

theorem exists_freeSlot (h : (entries table).length < n) : ∃ i, freeSlot table = some i := by
  rcases hfree : freeSlot table with _ | i
  · have hfull := le_total_of_full (fun _ => 1) (fun i hi => freeSlot_eq_none hfree hi)
      fun _ => le_refl 1
    rw [← length_entries] at hfull
    omega
  · exact ⟨i, rfl⟩

theorem total_empty : total weight (Vector.replicate n (none : Option α)) = 0 :=
  tableSum_replicate_eq_zero _ none fun _ => rfl

def Adds (table table' : Slots α n) (a : α) : Prop :=
  ∀ weight : α → Nat, total weight table' = total weight table + weight a

theorem adds_put (hfree : table[i]? = some none) : Adds table (table.setIfInBounds i (some a)) a :=
  fun weight => total_put weight hfree

theorem adds_take (ha : Holds table i a) : Adds (table.setIfInBounds i none) table a :=
  fun weight => (total_take weight ha).symm

theorem total_le (hbound : ∀ a, weight a ≤ bound) : total weight table ≤ n * bound := by
  unfold total
  rw [tableSum_eq_sum_toList]
  calc (table.toList.map fun slot => slotWeight weight slot).sum
      ≤ (table.toList.map fun slot => slotWeight weight slot).length • bound := by
        refine List.sum_le_card_nsmul _ _ fun x hx => ?_
        obtain ⟨slot, -, rfl⟩ := List.mem_map.mp hx
        cases slot with
        | none => exact Nat.zero_le _
        | some a => exact hbound a
    _ = n * bound := by rw [List.length_map, Vector.length_toList, smul_eq_mul]

end Totals

end SlimeOs.SlotTable
