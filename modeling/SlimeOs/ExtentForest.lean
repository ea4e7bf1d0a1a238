import Mathlib.Order.CompletePartialOrder
import Mathlib.Order.Interval.Set.Disjoint
import SlimeOs.ExtentBuddy
import SlimeOs.TableSum

/-!
The extent records as a forest. A split record stands over its two halves, which tile its
range; how many whole records cover an address is therefore the same before and after a split
or a merge, and stays what it was for the ranges first retyped from ordinary memory.
-/

namespace SlimeOs.ExtentBuddy

open FallibleCall List ObjectAllocator Option TableSum ExtentRecord
open SlimeOs.ObjectAllocator.ExtentTable (freeWeight_of_free freeWeight_of_held)

abbrev Records := List (Option ExtentRecord)

/-- The addresses of a block of `2 ^ sizeBits` bytes. -/
def blockRange (paddr sizeBits : Nat) : Set Nat := Set.Ico paddr (paddr + 2 ^ sizeBits)

def blockCovers (x paddr sizeBits : Nat) : Nat :=
  if paddr ≤ x ∧ x < paddr + 2 ^ sizeBits then 1 else 0

/-- A split record covers nothing itself. -/
def covers (x : Nat) (entry : Option ExtentRecord) : Nat :=
  match entry with
  | none => 0
  | some record => if record.split then 0 else blockCovers x record.paddr record.sizeBits

def coverage (records : Records) (x : Nat) : Nat := (records.map (covers x)).sum

def rootCoverage (roots : List (Nat × Nat)) (x : Nat) : Nat :=
  (roots.map fun root => blockCovers x root.1 root.2).sum

def freeTotal (records : Records) : Nat := (records.map ExtentTable.freeWeight).sum

def presentCount (records : Records) : Nat := (records.map fun entry => entry.isSome.toNat).sum

theorem presentCount_le (records : Records) : presentCount records ≤ records.length := by
  have hle := sum_le_card_nsmul (records.map fun entry => entry.isSome.toNat) 1
    fun weight hweight => by
      obtain ⟨entry, -, rfl⟩ := List.mem_map.mp hweight
      exact Bool.toNat_le entry.isSome
  simpa [presentCount] using hle

variable {x i j : Nat} {records : Records} {record other record' : ExtentRecord}
  {roots : List (Nat × Nat)}

theorem blockCovers_eq_one_iff {paddr sizeBits : Nat} :
    blockCovers x paddr sizeBits = 1 ↔ x ∈ blockRange paddr sizeBits := by
  simp [blockCovers, blockRange]

theorem blockCovers_halves (x paddr sizeBits : Nat) :
    blockCovers x paddr sizeBits + blockCovers x (paddr + 2 ^ sizeBits) sizeBits =
      blockCovers x paddr (sizeBits + 1) := by
  unfold blockCovers
  split <;> split <;> split <;> omega

/-- The children of a split record: present, apart, and its two halves. -/
structure Halves (records : Records) (parent : ExtentRecord) (low high : Nat) : Prop where
  ne : low ≠ high
  lower : ∃ half, records[low]? = some (some half) ∧ half.paddr = parent.paddr ∧
    half.sizeBits + 1 = parent.sizeBits
  upper : ∃ half, records[high]? = some (some half) ∧
    half.paddr = parent.paddr + 2 ^ half.sizeBits ∧ half.sizeBits + 1 = parent.sizeBits

structure Forest (records : Records) : Prop where
  unowned : ∀ (i : Nat) (record : ExtentRecord), records[i]? = some (some record) →
    record.split = true → record.owner = none ∧ record.origin = none
  halves : ∀ (i : Nat) (record : ExtentRecord), records[i]? = some (some record) →
    record.split = true → ∃ low high, record.children = some (low, high) ∧
      Halves records record low high
  apart : ∀ (i j : Nat) (record record' : ExtentRecord) (children children' : Nat × Nat)
    (child : Nat), records[i]? = some (some record) → records[j]? = some (some record') →
    record.split = true → record'.split = true → record.children = some children →
    record'.children = some children' → (child = children.1 ∨ child = children.2) →
    (child = children'.1 ∨ child = children'.2) → i = j

structure SameBlock (record record' : ExtentRecord) : Prop where
  paddr : record'.paddr = record.paddr
  sizeBits : record'.sizeBits = record.sizeBits
  split : record'.split = record.split
  children : record'.children = record.children

theorem isCommonFree_iff : record.isCommonFree = true ↔
    record.owner = none ∧ record.split = false ∧ record.origin = none := by
  simp [isCommonFree, and_assoc]

/-- A change that splits no record and keeps the place and size of each. -/
theorem Forest.keep (h : Forest records) {records' : Records}
    (hold : ∀ {j : Nat} {other : ExtentRecord}, records'[j]? = some (some other) →
      other.split = true → records[j]? = some (some other))
    (hentry : ∀ {j : Nat} {half : ExtentRecord}, records[j]? = some (some half) →
      ∃ half' : ExtentRecord, records'[j]? = some (some half') ∧ half'.paddr = half.paddr ∧
        half'.sizeBits = half.sizeBits) :
    Forest records' := by
  refine ⟨?_, ?_, ?_⟩
  · intro j other hj hsplit
    exact h.unowned j other (hold hj hsplit) hsplit
  · intro j other hj hsplit
    obtain ⟨low, high, hchildren, hne, ⟨lower, hlower, hpaddr, hbits⟩, upper, hupper, hpaddr',
      hbits'⟩ := h.halves j other (hold hj hsplit) hsplit
    obtain ⟨lower', hlower', hp, hb⟩ := hentry hlower
    obtain ⟨upper', hupper', hp', hb'⟩ := hentry hupper
    refine ⟨low, high, hchildren, hne, ⟨lower', hlower', ?_, ?_⟩, upper', hupper', ?_, ?_⟩
    · rw [hp, hpaddr]
    · rw [hb, hbits]
    · rw [hp', hb', hpaddr']
    · rw [hb', hbits']
  · intro j k other other' children children' child hj hk hsplit hsplit'
    exact h.apart j k other other' children children' child (hold hj hsplit) (hold hk hsplit')
      hsplit hsplit'

theorem getElem?_of_set_whole (hwhole : record.split = false)
    (hj : (records.set i (some record))[j]? = some (some other)) (hsplit : other.split = true) :
    records[j]? = some (some other) := by
  rcases getElem?_set_cases hj with ⟨-, hother⟩ | ⟨-, hj⟩
  · rw [some.inj hother, hwhole] at hsplit
    nomatch hsplit
  · exact hj

theorem Forest.update
    (h : Forest records) (hi : records[i]? = some (some record)) (hwhole : record.split = false)
    (hsame : SameBlock record record') : Forest (records.set i (some record')) := by
  refine h.keep (getElem?_of_set_whole (hsame.split.trans hwhole)) ?_
  intro j half hj
  by_cases hji : j = i
  · subst hji
    obtain rfl : record = half := by simpa using hi.symm.trans hj
    have hlt := (List.getElem_of_getElem? hi).1
    exact ⟨record', getElem?_set_self hlt, hsame.paddr, hsame.sizeBits⟩
  · exact ⟨half, by rw [getElem?_set_ne (Ne.symm hji)]; exact hj, rfl, rfl⟩

theorem Forest.place (h : Forest records)
    (hi : records[i]? = some none) (hwhole : record.split = false) :
    Forest (records.set i (some record)) := by
  refine h.keep (getElem?_of_set_whole hwhole) ?_
  intro j half hj
  have hne : i ≠ j := by
    rintro rfl
    simpa using hi.symm.trans hj
  exact ⟨half, by rw [getElem?_set_ne hne]; exact hj, rfl, rfl⟩

theorem Forest.append (h : Forest records) (count : Nat) :
    Forest (records ++ List.replicate count none) := by
  apply h.keep
  · intro j other hj _
    rw [getElem?_append] at hj
    split at hj
    · exact hj
    · simp [getElem?_replicate] at hj
  · intro j half hj
    refine ⟨half, ?_, rfl, rfl⟩
    rw [getElem?_append_left (List.getElem_of_getElem? hj).1]
    exact hj

def splitRecords (records : Records) (index low high first : Nat) (parent : ExtentRecord) :
    Records :=
  ((records.set low (some (half parent first 0))).set high
    (some (half parent (first + 1) 1))).set index
      (some { parent with split := true, children := some (low, high) })

def mergeRecords (records : Records) (index low high : Nat) (parent : ExtentRecord) : Records :=
  ((records.set low none).set high none).set index
    (some { parent with split := false, children := none })

section Split

variable {records : Records} {index low high first : Nat} {parent : ExtentRecord}

structure Splittable (records : Records) (index low high : Nat) (parent : ExtentRecord) :
    Prop where
  found : records[index]? = some (some parent)
  free : parent.isCommonFree = true
  lowVacant : records[low]? = some none
  highVacant : records[high]? = some none
  ne : low ≠ high
  pos : 0 < parent.sizeBits

section

variable (h : Splittable records index low high parent)
include h

theorem Splittable.low_ne : low ≠ index := by
  rintro rfl
  simpa using h.lowVacant.symm.trans h.found

theorem Splittable.high_ne : high ≠ index := by
  rintro rfl
  simpa using h.highVacant.symm.trans h.found

theorem Splittable.getElem?_low : (splitRecords records index low high first parent)[low]? =
      some (some (half parent first 0)) := by
  have hlt := (List.getElem_of_getElem? h.lowVacant).1
  rw [splitRecords, getElem?_set_ne h.low_ne.symm, getElem?_set_ne h.ne.symm, getElem?_set_self hlt]

theorem Splittable.getElem?_high : (splitRecords records index low high first parent)[high]? =
      some (some (half parent (first + 1) 1)) := by
  have hlt := (List.getElem_of_getElem? h.highVacant).1
  rw [splitRecords, getElem?_set_ne h.high_ne.symm, getElem?_set_self (by simpa using hlt)]

theorem Splittable.getElem?_index : (splitRecords records index low high first parent)[index]? =
      some (some { parent with split := true, children := some (low, high) }) := by
  have hlt := (List.getElem_of_getElem? h.found).1
  rw [splitRecords, getElem?_set_self (by simpa using hlt)]

end

theorem Splittable.getElem?_other (_ : Splittable records index low high parent)
    (hj : j ≠ index) (hlow : j ≠ low) (hhigh : j ≠ high) :
    (splitRecords records index low high first parent)[j]? = records[j]? := by
  rw [splitRecords, getElem?_set_ne hj.symm, getElem?_set_ne hhigh.symm, getElem?_set_ne hlow.symm]

theorem Splittable.split_cases (h : Splittable records index low high parent)
    (hj : (splitRecords records index low high first parent)[j]? = some (some other))
    (hsplit : other.split = true) :
    j = index ∧ other = { parent with split := true, children := some (low, high) } ∨
      j ≠ index ∧ records[j]? = some (some other) := by
  by_cases hindex : j = index
  · subst hindex
    rw [h.getElem?_index] at hj
    exact .inl ⟨rfl, (some.inj (some.inj hj)).symm⟩
  by_cases hlow : j = low
  · subst hlow
    rw [h.getElem?_low] at hj
    obtain rfl := some.inj (some.inj hj)
    nomatch hsplit
  by_cases hhigh : j = high
  · subst hhigh
    rw [h.getElem?_high] at hj
    obtain rfl := some.inj (some.inj hj)
    nomatch hsplit
  · rw [h.getElem?_other hindex hlow hhigh] at hj
    exact .inr ⟨hindex, hj⟩

theorem Forest.split (h : Forest records) (hs : Splittable records index low high parent) :
    Forest (splitRecords records index low high first parent) := by
  obtain ⟨howner, -, horigin⟩ := isCommonFree_iff.mp hs.free
  -- A child of another record is present, so it is neither of the new halves.
  have hchild {half : ExtentRecord} {place : Nat} (hplace : records[place]? = some (some half)) :
      ∃ half', (splitRecords records index low high first parent)[place]? = some (some half') ∧
        half'.paddr = half.paddr ∧ half'.sizeBits = half.sizeBits := by
    have hlow : place ≠ low := by
      rintro rfl
      simpa using hs.lowVacant.symm.trans hplace
    have hhigh : place ≠ high := by
      rintro rfl
      simpa using hs.highVacant.symm.trans hplace
    by_cases hindex : place = index
    · subst hindex
      obtain rfl : parent = half := by simpa using hs.found.symm.trans hplace
      exact ⟨_, hs.getElem?_index, rfl, rfl⟩
    · exact ⟨half, (hs.getElem?_other hindex hlow hhigh).trans hplace, rfl, rfl⟩
  -- The new halves are children of no record that was split before.
  have hnew {j : Nat} {other : ExtentRecord} {children : Nat × Nat} {child : Nat}
      (hj : records[j]? = some (some other)) (hsplit : other.split = true)
      (hchildren : other.children = some children) (hmem : child = children.1 ∨ child = children.2)
      (hvacant : records[child]? = some none) : False := by
    obtain ⟨low', high', hsome, -, ⟨lower, hlower, -⟩, upper, hupper, -⟩ :=
      h.halves j other hj hsplit
    obtain rfl := mem_unique hsome hchildren
    rcases hmem with rfl | rfl
    · simpa using hvacant.symm.trans hlower
    · simpa using hvacant.symm.trans hupper
  refine ⟨?_, ?_, ?_⟩
  · intro j other hj hsplit
    rcases hs.split_cases hj hsplit with ⟨-, rfl⟩ | ⟨-, hj⟩
    · exact ⟨howner, horigin⟩
    · exact h.unowned j other hj hsplit
  · intro j other hj hsplit
    rcases hs.split_cases hj hsplit with ⟨-, rfl⟩ | ⟨-, hj⟩
    · have hpos := hs.pos
      refine ⟨low, high, rfl, hs.ne, ⟨_, hs.getElem?_low, ?_, ?_⟩, _, hs.getElem?_high, ?_, ?_⟩
      · simp [half, new]
      · simp only [half, new]
        omega
      · simp [half, new]
      · simp only [half, new]
        omega
    · obtain ⟨low', high', hchildren, hne, ⟨lower, hlower, hpaddr, hbits⟩, upper, hupper, hpaddr',
        hbits'⟩ := h.halves j other hj hsplit
      obtain ⟨lower', hlower', hp, hb⟩ := hchild hlower
      obtain ⟨upper', hupper', hp', hb'⟩ := hchild hupper
      refine ⟨low', high', hchildren, hne, ⟨lower', hlower', ?_, ?_⟩, upper', hupper', ?_, ?_⟩
      · rw [hp, hpaddr]
      · rw [hb, hbits]
      · rw [hp', hb', hpaddr']
      · rw [hb', hbits']
  · intro j k other other' children children' child hj hk hsplit hsplit' hchildren hchildren'
      hmem hmem'
    rcases hs.split_cases hj hsplit with ⟨rfl, rfl⟩ | ⟨-, hold⟩ <;>
      rcases hs.split_cases hk hsplit' with ⟨rfl, rfl⟩ | ⟨-, hold'⟩
    · rfl
    · obtain rfl := some.inj hchildren
      rcases hmem with rfl | rfl
      · exact (hnew hold' hsplit' hchildren' hmem' hs.lowVacant).elim
      · exact (hnew hold' hsplit' hchildren' hmem' hs.highVacant).elim
    · obtain rfl := some.inj hchildren'
      rcases hmem' with rfl | rfl
      · exact (hnew hold hsplit hchildren hmem hs.lowVacant).elim
      · exact (hnew hold hsplit hchildren hmem hs.highVacant).elim
    · exact h.apart j k other other' children children' child hold hold' hsplit hsplit' hchildren
        hchildren' hmem hmem'

theorem Splittable.sum (h : Splittable records index low high parent) (first : Nat)
    (weight : Option ExtentRecord → Nat) (hnone : weight none = 0) :
    ((splitRecords records index low high first parent).map weight).sum + weight (some parent) =
      (records.map weight).sum + weight (some (half parent first 0)) +
        weight (some (half parent (first + 1) 1)) +
        weight (some { parent with split := true, children := some (low, high) }) := by
  have hlow := sum_map_set (b := some (half parent first 0)) weight h.lowVacant
  have hplaced : (records.set low (some (half parent first 0)))[high]? = some none :=
    (getElem?_set_ne h.ne).trans h.highVacant
  have hhigh := sum_map_set (b := some (half parent (first + 1) 1)) weight hplaced
  have hparent : ((records.set low (some (half parent first 0))).set high
      (some (half parent (first + 1) 1)))[index]? = some (some parent) :=
    ((getElem?_set_ne h.high_ne).trans (getElem?_set_ne h.low_ne)).trans h.found
  have hindex := sum_map_set
    (b := some { parent with split := true, children := some (low, high) }) weight hparent
  rw [splitRecords]
  omega

theorem Splittable.coverage (h : Splittable records index low high parent) (x : Nat) :
    coverage (splitRecords records index low high first parent) x =
      ExtentBuddy.coverage records x := by
  have hsum := h.sum first (covers x) rfl
  have hhalves := blockCovers_halves x parent.paddr (parent.sizeBits - 1)
  rw [Nat.sub_add_cancel h.pos] at hhalves
  have hwhole := (isCommonFree_iff.mp h.free).2.1
  simp only [covers, half, new, hwhole, Bool.false_eq_true, if_false, Nat.zero_mul,
    Nat.one_mul, Nat.add_zero, if_true] at hsum
  unfold ExtentBuddy.coverage
  omega

end Split

section Merge

variable {records : Records} {index low high : Nat} {parent lower upper : ExtentRecord}

structure Mergeable (records : Records) (index low high : Nat) (parent : ExtentRecord)
    (lower upper : ExtentRecord) : Prop where
  found : records[index]? = some (some parent)
  split : parent.split = true
  children : parent.children = some (low, high)
  lowFound : records[low]? = some (some lower)
  highFound : records[high]? = some (some upper)
  lowFree : lower.isCommonFree = true
  highFree : upper.isCommonFree = true

section

variable (h : Mergeable records index low high parent lower upper)
include h

theorem Mergeable.halves (hforest : Forest records) : Halves records parent low high := by
  obtain ⟨low', high', hchildren, hhalves⟩ := hforest.halves index parent h.found h.split
  obtain ⟨rfl, rfl⟩ : low = low' ∧ high = high' := by
    simpa using mem_unique h.children hchildren
  exact hhalves

theorem Mergeable.low_ne : low ≠ index := by
  rintro rfl
  obtain rfl : parent = lower := by simpa using h.found.symm.trans h.lowFound
  exact absurd (h.split.symm.trans (isCommonFree_iff.mp h.lowFree).2.1) nofun

theorem Mergeable.high_ne : high ≠ index := by
  rintro rfl
  obtain rfl : parent = upper := by simpa using h.found.symm.trans h.highFound
  exact absurd (h.split.symm.trans (isCommonFree_iff.mp h.highFree).2.1) nofun

theorem Mergeable.getElem?_index : (mergeRecords records index low high parent)[index]? =
      some (some { parent with split := false, children := none }) := by
  have hlt := (List.getElem_of_getElem? h.found).1
  rw [mergeRecords, getElem?_set_self (by simpa using hlt)]

end

theorem Mergeable.getElem?_other (_ : Mergeable records index low high parent lower upper)
    (hj : j ≠ index) (hlow : j ≠ low) (hhigh : j ≠ high) :
    (mergeRecords records index low high parent)[j]? = records[j]? := by
  rw [mergeRecords, getElem?_set_ne hj.symm, getElem?_set_ne hhigh.symm, getElem?_set_ne hlow.symm]

theorem Mergeable.present_cases (h : Mergeable records index low high parent lower upper)
    (hj : (mergeRecords records index low high parent)[j]? = some (some other)) :
    j = index ∧ other = { parent with split := false, children := none } ∨
      j ≠ index ∧ records[j]? = some (some other) := by
  by_cases hindex : j = index
  · subst hindex
    rw [h.getElem?_index] at hj
    exact .inl ⟨rfl, (some.inj (some.inj hj)).symm⟩
  rw [mergeRecords, getElem?_set_ne (Ne.symm hindex)] at hj
  rcases getElem?_set_cases hj with ⟨-, hnone⟩ | ⟨-, hj⟩
  · nomatch hnone
  rcases getElem?_set_cases hj with ⟨-, hnone⟩ | ⟨-, hj⟩
  · nomatch hnone
  · exact .inr ⟨hindex, hj⟩

theorem Forest.merge (h : Forest records)
    (hm : Mergeable records index low high parent lower upper) :
    Forest (mergeRecords records index low high parent) := by
  -- A record that is split after the merge was split before, under another index.
  have hold {j : Nat} {other : ExtentRecord}
      (hj : (mergeRecords records index low high parent)[j]? = some (some other))
      (hsplit : other.split = true) : j ≠ index ∧ records[j]? = some (some other) := by
    rcases hm.present_cases hj with ⟨-, rfl⟩ | ⟨hne, hj⟩
    · nomatch hsplit
    · exact ⟨hne, hj⟩
  -- Its children are not the halves merged, since those have one parent only.
  have hchild {j place : Nat} {other half : ExtentRecord} {children : Nat × Nat}
      (hne : j ≠ index) (hj : records[j]? = some (some other)) (hsplit : other.split = true)
      (hchildren : other.children = some children) (hmem : place = children.1 ∨ place = children.2)
      (hplace : records[place]? = some (some half)) :
      ∃ half', (mergeRecords records index low high parent)[place]? = some (some half') ∧
        half'.paddr = half.paddr ∧ half'.sizeBits = half.sizeBits := by
    have hapart : place ≠ low ∧ place ≠ high := by
      refine ⟨?_, ?_⟩
      · rintro rfl
        exact hne (h.apart j index other parent children (place, high) place hj hm.found hsplit
          hm.split hchildren hm.children hmem (.inl rfl))
      · rintro rfl
        exact hne (h.apart j index other parent children (low, place) place hj hm.found hsplit
          hm.split hchildren hm.children hmem (.inr rfl))
    by_cases hindex : place = index
    · subst hindex
      obtain rfl : parent = half := by simpa using hm.found.symm.trans hplace
      exact ⟨_, hm.getElem?_index, rfl, rfl⟩
    · exact ⟨half, (hm.getElem?_other hindex hapart.1 hapart.2).trans hplace, rfl, rfl⟩
  refine ⟨?_, ?_, ?_⟩
  · intro j other hj hsplit
    exact h.unowned j other (hold hj hsplit).2 hsplit
  · intro j other hj hsplit
    obtain ⟨hne, hj⟩ := hold hj hsplit
    obtain ⟨low', high', hchildren, hapart, ⟨lower', hlower, hpaddr, hbits⟩, upper', hupper,
      hpaddr', hbits'⟩ := h.halves j other hj hsplit
    obtain ⟨lower'', hlower', hp, hb⟩ := hchild hne hj hsplit hchildren (.inl rfl) hlower
    obtain ⟨upper'', hupper', hp', hb'⟩ := hchild hne hj hsplit hchildren (.inr rfl) hupper
    refine ⟨low', high', hchildren, hapart, ⟨lower'', hlower', ?_, ?_⟩, upper'', hupper', ?_, ?_⟩
    · rw [hp, hpaddr]
    · rw [hb, hbits]
    · rw [hp', hb', hpaddr']
    · rw [hb', hbits']
  · intro j k other other' children children' child hj hk hsplit hsplit'
    exact h.apart j k other other' children children' child (hold hj hsplit).2
      (hold hk hsplit').2 hsplit hsplit'

section

variable (h : Mergeable records index low high parent lower upper)
include h

theorem Mergeable.sum (hne : low ≠ high)
    (weight : Option ExtentRecord → Nat) (hnone : weight none = 0) :
    ((mergeRecords records index low high parent).map weight).sum + weight (some lower) +
        weight (some upper) + weight (some parent) =
      (records.map weight).sum +
        weight (some { parent with split := false, children := none }) := by
  have hlow := sum_map_set (b := none) weight h.lowFound
  have hremoved : (records.set low none)[high]? = some (some upper) :=
    (getElem?_set_ne hne).trans h.highFound
  have hhigh := sum_map_set (b := none) weight hremoved
  have hparent : ((records.set low none).set high none)[index]? = some (some parent) :=
    ((getElem?_set_ne h.high_ne).trans (getElem?_set_ne h.low_ne)).trans h.found
  have hindex := sum_map_set
    (b := some { parent with split := false, children := none }) weight hparent
  rw [mergeRecords]
  omega

theorem Mergeable.coverage (hforest : Forest records) (x : Nat) :
    coverage (mergeRecords records index low high parent) x = ExtentBuddy.coverage records x := by
  obtain ⟨hne, ⟨lower', hlower, hpaddr, hbits⟩, upper', hupper, hpaddr', hbits'⟩ := h.halves hforest
  obtain rfl : lower = lower' := by simpa using h.lowFound.symm.trans hlower
  obtain rfl : upper = upper' := by simpa using h.highFound.symm.trans hupper
  have hsum := h.sum hne (covers x) rfl
  have hsize : upper.sizeBits = lower.sizeBits := by omega
  have hhalves := blockCovers_halves x lower.paddr lower.sizeBits
  simp only [covers, (isCommonFree_iff.mp h.lowFree).2.1, (isCommonFree_iff.mp h.highFree).2.1,
    h.split, Bool.false_eq_true, if_false, if_true, hpaddr', hsize, ← hbits, ← hpaddr] at hsum
  unfold ExtentBuddy.coverage
  omega

theorem Mergeable.freeTotal (hforest : Forest records) :
    freeTotal (mergeRecords records index low high parent) = ExtentBuddy.freeTotal records := by
  obtain ⟨hne, ⟨lower', hlower, -, hbits⟩, upper', hupper, -, hbits'⟩ := h.halves hforest
  obtain rfl : lower = lower' := by simpa using h.lowFound.symm.trans hlower
  obtain rfl : upper = upper' := by simpa using h.highFound.symm.trans hupper
  have hsum := h.sum hne ExtentTable.freeWeight rfl
  have hsize : upper.sizeBits = lower.sizeBits := by omega
  have hheld : parent.isCommonFree = false := by simp [isCommonFree, h.split]
  have hmerged : isCommonFree { parent with split := false, children := none } = true := by
    obtain ⟨howner, horigin⟩ := hforest.unowned index parent h.found h.split
    exact isCommonFree_iff.mpr ⟨howner, rfl, horigin⟩
  have hbytes : 2 ^ parent.sizeBits = 2 ^ lower.sizeBits + 2 ^ lower.sizeBits := by
    rw [← hbits]
    omega
  rw [freeWeight_of_free h.lowFree, freeWeight_of_free h.highFree, freeWeight_of_held hheld,
    freeWeight_of_free hmerged, hsize] at hsum
  change _ = _ + 2 ^ parent.sizeBits at hsum
  unfold ExtentBuddy.freeTotal
  omega

theorem Mergeable.presentCount (hforest : Forest records) :
    presentCount (mergeRecords records index low high parent) + 2 =
      ExtentBuddy.presentCount records := by
  have hsum := h.sum (h.halves hforest).ne (fun entry => entry.isSome.toNat) rfl
  simp only [isSome_some, Bool.toNat_true] at hsum
  unfold ExtentBuddy.presentCount
  omega

end

end Merge

def Apart (roots : List (Nat × Nat)) : Prop :=
  roots.Pairwise fun first second =>
    Disjoint (blockRange first.1 first.2) (blockRange second.1 second.2)

theorem rootCoverage_le_one (h : Apart roots) (x : Nat) : rootCoverage roots x ≤ 1 := by
  induction roots with
  | nil => simp [rootCoverage]
  | cons root roots ih =>
    obtain ⟨hfirst, hrest⟩ := pairwise_cons.mp h
    have hih := ih hrest
    by_cases hx : x ∈ blockRange root.1 root.2
    · have hzero : rootCoverage roots x = 0 := by
        apply sum_eq_zero
        intro weight hweight
        obtain ⟨other, hother, rfl⟩ := List.mem_map.mp hweight
        have hnot := Set.disjoint_left.mp (hfirst other hother) hx
        simpa [blockCovers, blockRange] using hnot
      have hone := blockCovers_eq_one_iff.mpr hx
      simp only [rootCoverage, map_cons, sum_cons] at hzero ⊢
      omega
    · have hzero : blockCovers x root.1 root.2 = 0 := by
        simpa [blockCovers, blockRange] using hx
      simp only [rootCoverage, map_cons, sum_cons] at hih ⊢
      omega

theorem rootCoverage_pos_iff :
    0 < rootCoverage roots x ↔ ∃ root ∈ roots, x ∈ blockRange root.1 root.2 := by
  unfold rootCoverage
  rw [pos_iff_ne_zero, Ne, sum_eq_zero_iff]
  simp [blockCovers, blockRange]

/-- A record that is not split holds the addresses of its block. -/
def Holds (records : Records) (x : Nat) : Prop :=
  ∃ (i : Nat) (record : ExtentRecord), records[i]? = some (some record) ∧
    record.split = false ∧ x ∈ blockRange record.paddr record.sizeBits

theorem coverage_pos_iff : 0 < coverage records x ↔ Holds records x := by
  unfold coverage Holds
  rw [pos_iff_ne_zero, Ne, sum_eq_zero_iff]
  constructor
  · intro h
    simp only [List.mem_map, not_forall] at h
    obtain ⟨_, ⟨entry, hentry, rfl⟩, hweight⟩ := h
    obtain ⟨i, hi⟩ := mem_iff_getElem?.mp hentry
    rcases entry with _ | record
    · exact absurd rfl hweight
    simp only [covers] at hweight
    split at hweight
    · exact absurd rfl hweight
    next hwhole =>
      refine ⟨i, record, hi, by simpa using hwhole, ?_⟩
      simpa [blockCovers, blockRange] using hweight
  · rintro ⟨i, record, hi, hwhole, hx⟩ hzero
    have hcovers := hzero _ (List.mem_map_of_mem (mem_of_getElem? hi))
    simp only [covers, hwhole, Bool.false_eq_true, if_false] at hcovers
    rw [blockCovers_eq_one_iff.mpr hx] at hcovers
    nomatch hcovers

theorem disjoint_of_coverage_le_one (h : ∀ x, coverage records x ≤ 1)
    (hi : records[i]? = some (some record)) (hj : records[j]? = some (some record')) (hne : i ≠ j)
    (hwhole : record.split = false) (hwhole' : record'.split = false) :
    Disjoint (blockRange record.paddr record.sizeBits)
      (blockRange record'.paddr record'.sizeBits) := by
  rw [Set.disjoint_left]
  intro x hx hx'
  have hsum := sum_map_set (b := none) (covers x) hi
  have hremains : (records.set i none)[j]? = some (some record') := (getElem?_set_ne hne).trans hj
  have hle := le_sum_map (covers x) hremains
  have hone := h x
  simp only [covers, hwhole, hwhole', Bool.false_eq_true, if_false,
    blockCovers_eq_one_iff.mpr hx, blockCovers_eq_one_iff.mpr hx'] at hsum hle
  unfold coverage at hone
  omega

end SlimeOs.ExtentBuddy
