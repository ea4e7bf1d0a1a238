import Mathlib.Data.List.InsertIdx
import SlimeOs.FallibleCall

/-!
Arrays of a fixed size that hold a list in their first cells and nothing behind
it. Out of range accesses have no result, as they panic.

`Packed` says which list an array holds. Shifting cells and writing one of them
inserts into the list, removes from it or appends to it.
-/

namespace SlimeOs.FixedArray

open FallibleCall

variable {α : Type} {n : Nat} {cells : Vector (Option α) n} {items : List α}

/-- `copy_within(lo..hi, dest)`. -/
def copyWithin (cells : Vector α n) (lo hi dest : Nat) : Option (Vector α n) :=
  if lo ≤ hi ∧ hi ≤ n ∧ dest + (hi - lo) ≤ n then
    some (Vector.ofFn fun i =>
      if dest ≤ i.val ∧ i.val < dest + (hi - lo) then
        cells[lo + (i.val - dest)]?.getD (cells.get i)
      else cells.get i)
  else none

/-- `cells[index] = value`. -/
def store (cells : Vector α n) (index : Nat) (value : α) : Option (Vector α n) :=
  if index < n then some (cells.setIfInBounds index value) else none

/-- `&cells[..len]`. -/
def leading (cells : Vector α n) (len : Nat) : Option (List α) :=
  if len ≤ n then some (cells.toList.take len) else none

/-- One step of a compaction in place: the entry is taken out and, if it is kept, put
back behind those kept before it. -/
def retainStep (keep : α → Bool) (state : Vector (Option α) n × Nat) (index : Nat) :
    Option (Vector (Option α) n × Nat) := do
  let entry ← state.1[index]?
  let cleared ← store state.1 index none
  if entry.any keep then
    let kept ← store cleared state.2 entry
    pure (kept, state.2 + 1)
  else pure (cleared, state.2)

def retain (keep : α → Bool) (cells : Vector (Option α) n) (len : Nat) :
    Option (Vector (Option α) n × Nat) :=
  (List.range len).foldlM (retainStep keep) (cells, 0)

/-- The array holds the list, cell by cell, and nothing behind it. -/
structure Packed (cells : Vector (Option α) n) (items : List α) : Prop where
  fits : items.length ≤ n
  cell : ∀ i (hi : i < n), cells[i] = items[i]?

theorem packed_empty : Packed (Vector.replicate n (none : Option α)) [] :=
  ⟨Nat.zero_le n, fun i hi => by simp⟩

theorem Packed.leading (h : Packed cells items) :
    leading cells items.length = some (items.map some) := by
  unfold FixedArray.leading
  rw [if_pos h.fits]
  congr 1
  apply List.ext_getElem
  · have hfits := h.fits
    simp
    omega
  intro i hi hi'
  have hlt : i < items.length := by simpa using hi'
  have hcell := h.cell i (Nat.lt_of_lt_of_le hlt h.fits)
  rw [List.getElem?_eq_getElem hlt] at hcell
  simpa using hcell

theorem Packed.get (h : Packed cells items)
    {i : Nat} (hi : i < items.length) : cells[i]? = some (some items[i]) := by
  have hlt : i < n := Nat.lt_of_lt_of_le hi h.fits
  rw [Vector.getElem?_eq_getElem hlt, h.cell i hlt, List.getElem?_eq_getElem hi]

theorem getElem_copyWithin {cells : Vector α n} {lo hi dest : Nat} (hle : lo ≤ hi)
    (hhi : hi ≤ n) (hfit : dest + (hi - lo) ≤ n) :
    ∃ shifted, copyWithin cells lo hi dest = some shifted ∧
      (∀ i (hin : i < n), i < dest ∨ dest + (hi - lo) ≤ i → shifted[i] = cells[i]) ∧
      ∀ i (hin : i < n), dest ≤ i → i < dest + (hi - lo) →
        cells[lo + (i - dest)]? = some shifted[i] := by
  refine ⟨_, if_pos ⟨hle, hhi, hfit⟩, ?_, ?_⟩
  · intro i hin hout
    rw [Vector.getElem_ofFn, if_neg (by simp only; omega)]
    rfl
  intro i hin hlow hhigh
  have hsource : lo + (i - dest) < n := by omega
  rw [Vector.getElem_ofFn, if_pos ⟨hlow, hhigh⟩, Vector.getElem?_eq_getElem hsource,
    Option.getD_some]

theorem getElem_store {cells : Vector α n} {index : Nat} (value : α) (hindex : index < n) :
    ∃ stored, store cells index value = some stored ∧
      ∀ i (hi : i < n), stored[i] = if index = i then value else cells[i] := by
  refine ⟨_, if_pos hindex, ?_⟩
  intro i hi
  rw [Vector.getElem_setIfInBounds]

theorem Packed.insert (h : Packed cells items)
    {position : Nat} (item : α) (hposition : position ≤ items.length) (hroom : items.length < n) :
    ∃ shifted stored, copyWithin cells position items.length (position + 1) = some shifted ∧
      store shifted position (some item) = some stored ∧
      Packed stored (items.insertIdx position item) := by
  obtain ⟨shifted, hshift, hkept, hmoved⟩ := @getElem_copyWithin _ _ cells position items.length
    (position + 1) hposition h.fits (by omega)
  obtain ⟨stored, hstore, hcells⟩ := @getElem_store _ _ shifted position (some item) (by omega)
  refine ⟨shifted, stored, hshift, hstore, ?_, ?_⟩
  · rw [List.length_insertIdx_of_le_length hposition]
    omega
  intro i hi
  rw [hcells i hi, List.getElem?_insertIdx]
  rcases Nat.lt_trichotomy i position with hlt | rfl | hgt
  · rw [if_neg (by omega), if_pos hlt, hkept i hi (by omega), h.cell i hi]
  · rw [if_pos rfl, if_neg (by omega), if_pos rfl, if_pos hposition]
  rw [if_neg (by omega), if_neg (by omega), if_neg (by omega)]
  by_cases hlast : i ≤ items.length
  · have hfrom := hmoved i hi (by omega) (by omega)
    have hsource : position + (i - (position + 1)) = i - 1 := by omega
    rw [hsource, Vector.getElem?_eq_getElem (by omega), h.cell (i - 1) (by omega)] at hfrom
    exact (Option.some.inj hfrom).symm
  · rw [hkept i hi (by omega), h.cell i hi, List.getElem?_eq_none (by omega),
      List.getElem?_eq_none (by omega)]

theorem Packed.remove {items : List α} (h : Packed cells items)
    {position : Nat} (hposition : position < items.length) :
    ∃ shifted stored, copyWithin cells (position + 1) items.length position = some shifted ∧
      store shifted (items.length - 1) none = some stored ∧
      Packed stored (items.eraseIdx position) := by
  have hfits := h.fits
  obtain ⟨shifted, hshift, hkept, hmoved⟩ := @getElem_copyWithin _ _ cells (position + 1)
    items.length position hposition h.fits (by omega)
  obtain ⟨stored, hstore, hcells⟩ :=
    @getElem_store _ _ shifted (items.length - 1) (none : Option α) (by omega)
  refine ⟨shifted, stored, hshift, hstore, ?_, ?_⟩
  · rw [List.length_eraseIdx_of_lt hposition]
    omega
  intro i hi
  rw [hcells i hi, List.getElem?_eraseIdx]
  rcases Nat.lt_trichotomy i (items.length - 1) with hlt | rfl | hgt
  · rw [if_neg (by omega)]
    by_cases hbefore : i < position
    · rw [if_pos hbefore, hkept i hi (by omega), h.cell i hi]
    have hfrom := hmoved i hi (by omega) (by omega)
    have hsource : position + 1 + (i - position) = i + 1 := by omega
    rw [hsource, Vector.getElem?_eq_getElem (by omega), h.cell (i + 1) (by omega)] at hfrom
    rw [if_neg hbefore]
    exact (Option.some.inj hfrom).symm
  · rw [if_pos rfl, if_neg (by omega), List.getElem?_eq_none (by omega)]
  · rw [if_neg (by omega), if_neg (by omega), hkept i hi (by omega), h.cell i hi,
      List.getElem?_eq_none (by omega), List.getElem?_eq_none (by omega)]

theorem Packed.append (h : Packed cells items) (item : α) (hroom : items.length < n) :
    ∃ stored, store cells items.length (some item) = some stored ∧
      Packed stored (items ++ [item]) := by
  obtain ⟨stored, hstore, hcells⟩ := @getElem_store _ _ cells items.length (some item) hroom
  refine ⟨stored, hstore, ?_, ?_⟩
  · rw [List.length_append]
    exact hroom
  intro i hi
  rw [hcells i hi]
  rcases Nat.lt_trichotomy i items.length with hlt | rfl | hgt
  · rw [if_neg (by omega), h.cell i hi, List.getElem?_append_left hlt]
  · rw [if_pos rfl, List.getElem?_concat_length]
  · rw [if_neg (by omega), h.cell i hi, List.getElem?_eq_none (by omega),
      List.getElem?_eq_none (by simp; omega)]

/-- The compaction after `done` entries: those kept, a gap, and the entries to come. -/
structure Compacting (keep : α → Bool) (items : List α) (done : Nat)
    (state : Vector (Option α) n × Nat) : Prop where
  count : state.2 = ((items.take done).filter keep).length
  kept : ∀ i (hi : i < n), i < state.2 → state.1[i] = ((items.take done).filter keep)[i]?
  gap : ∀ i (hi : i < n), state.2 ≤ i → i < done → state.1[i] = none
  rest : ∀ i (hi : i < n), done ≤ i → state.1[i] = items[i]?

theorem Compacting.step {keep : α → Bool} {done : Nat}
    {state : Vector (Option α) n × Nat} (h : Compacting keep items done state)
    (hfits : items.length ≤ n) (hdone : done < items.length) :
    ∃ state', retainStep keep state done = some state' ∧
      Compacting keep items (done + 1) state' := by
  have hlt : done < n := by omega
  have hentry : state.1[done]? = some (some items[done]) := by
    rw [Vector.getElem?_eq_getElem hlt, h.rest done hlt (Nat.le_refl done),
      List.getElem?_eq_getElem hdone]
  have htake := (List.take_append_getElem hdone).symm
  have hcount : state.2 ≤ done := by
    have hlength := List.length_filter_le keep (items.take done)
    rw [h.count]
    rw [List.length_take] at hlength
    omega
  obtain ⟨cleared, hclear, hcleared⟩ := @getElem_store _ _ state.1 done (none : Option α) hlt
  by_cases hkeep : keep items[done] = true
  · obtain ⟨stored, hstore, hstored⟩ :=
      @getElem_store _ _ cleared state.2 (some items[done]) (by omega)
    have hfilter : (items.take (done + 1)).filter keep =
        (items.take done).filter keep ++ [items[done]] := by
      rw [htake, List.filter_append, List.filter_singleton, hkeep]
      rfl
    refine ⟨(stored, state.2 + 1), ?_, ?_, ?_, ?_, ?_⟩
    · simp [retainStep, hentry, hclear, hkeep, hstore]
    · rw [hfilter, List.length_append, List.length_singleton, ← h.count]
    · intro i hi hlow
      rw [hfilter, hstored i hi, hcleared i hi]
      rcases Nat.lt_or_eq_of_le (Nat.le_of_lt_succ hlow) with hbefore | rfl
      · rw [if_neg (by omega), if_neg (by omega), h.kept i hi hbefore,
          List.getElem?_append_left (by rw [← h.count]; exact hbefore)]
      · rw [if_pos rfl, h.count, List.getElem?_concat_length]
    · intro i hi hlow hhigh
      rw [hstored i hi, hcleared i hi, if_neg (by omega)]
      split
      · rfl
      · exact h.gap i hi (by omega) (by omega)
    · intro i hi hlow
      rw [hstored i hi, hcleared i hi, if_neg (by omega), if_neg (by omega)]
      exact h.rest i hi (by omega)
  · have hfilter : (items.take (done + 1)).filter keep = (items.take done).filter keep := by
      rw [htake, List.filter_append]
      simp [hkeep]
    refine ⟨(cleared, state.2), ?_, ?_, ?_, ?_, ?_⟩
    · simp [retainStep, hentry, hclear, hkeep]
    · rw [hfilter, ← h.count]
    · intro i hi hlow
      rw [hfilter, hcleared i hi, if_neg (by omega), h.kept i hi hlow]
    · intro i hi hlow hhigh
      rw [hcleared i hi]
      split
      · rfl
      · exact h.gap i hi hlow (by omega)
    · intro i hi hlow
      rw [hcleared i hi, if_neg (by omega)]
      exact h.rest i hi (by omega)

theorem Packed.compacting (h : Packed cells items) (keep : α → Bool) :
    ∃ state, FixedArray.retain keep cells items.length = some state ∧
      Compacting keep items items.length state := by
  apply loop_invariant (Compacting keep items)
  · refine ⟨by simp, ?_, ?_, fun i hi _ => h.cell i hi⟩
    · intro i hi hlow
      exact absurd hlow (Nat.not_lt_zero i)
    · intro i hi _ hhigh
      exact absurd hhigh (Nat.not_lt_zero i)
  · intro done state hdone hstate
    exact hstate.step h.fits hdone

theorem Packed.retain (h : Packed cells items) (keep : α → Bool) :
    ∃ kept, FixedArray.retain keep cells items.length =
        some (kept, (items.filter keep).length) ∧ Packed kept (items.filter keep) := by
  obtain ⟨⟨kept, count⟩, hfold, hinv⟩ := h.compacting keep
  have hcount := hinv.count
  have hfits := h.fits
  have hlength := List.length_filter_le keep items
  rw [List.take_length] at hcount
  subst hcount
  refine ⟨kept, hfold, by omega, ?_⟩
  intro i hi
  by_cases hlow : i < (items.filter keep).length
  · have hkept := hinv.kept i hi hlow
    rw [List.take_length] at hkept
    exact hkept
  rw [List.getElem?_eq_none (Nat.not_lt.mp hlow)]
  by_cases hgap : i < items.length
  · exact hinv.gap i hi (Nat.not_lt.mp hlow) hgap
  · have hrest := hinv.rest i hi (Nat.not_lt.mp hgap)
    rw [List.getElem?_eq_none (Nat.not_lt.mp hgap)] at hrest
    exact hrest

end SlimeOs.FixedArray
