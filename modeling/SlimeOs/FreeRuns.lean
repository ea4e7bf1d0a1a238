import Mathlib.Order.Bounds.Basic

/-!
Runs of adjacent free cells, and the scan for the lowest run of a given length.

The cells are numbered, some of them are free, and `Linked` says which
neighbours may share a run. A scan visits the cells in ascending order and keeps
the run that ends where it stands.
-/

namespace SlimeOs.FreeRuns

variable (Linked : Nat → Nat → Prop) (Free : Nat → Prop)

/-- At least one cell, all of them free, each linked to the next. -/
structure FreeRun (start count : Nat) : Prop where
  nonempty : 0 < count
  free : ∀ i, i < count → Free (start + i)
  linked : ∀ i, i + 1 < count → Linked (start + i) (start + i + 1)

/-- What a scan for `count` cells knows once it has seen every cell below `bound`: the run
that ends at the bound, and that no run below it was long enough. -/
structure Scanned (count bound start run : Nat) : Prop where
  short : run < count
  current : 0 < run → start + run = bound ∧ FreeRun Linked Free start run
  longest : ∀ s, s < bound → FreeRun Linked Free s (bound - s) → 0 < run ∧ start ≤ s
  missing : ∀ s, s + count ≤ bound → ¬ FreeRun Linked Free s count

/-- The scan sees a free cell. The run it keeps is the old one and the cell, if they are
linked, or the cell alone. -/
structure Extends (bound start run start' run' : Nat) : Prop where
  joined : 0 < run → Linked (bound - 1) bound → start' = start ∧ run' = run + 1
  alone : ¬ (0 < run ∧ Linked (bound - 1) bound) → start' = bound ∧ run' = 1

variable {Linked : Nat → Nat → Prop} {Free : Nat → Prop} {start count bound run start' run' : Nat}

theorem FreeRun.shorten {length : Nat} (h : FreeRun Linked Free start count) (hpos : 0 < length)
    (hle : length ≤ count) : FreeRun Linked Free start length :=
  ⟨hpos, fun i hi => h.free i (by omega), fun i hi => h.linked i (by omega)⟩

theorem FreeRun.extend (h : FreeRun Linked Free start count) (hfree : Free (start + count))
    (hlinked : Linked (start + count - 1) (start + count)) :
    FreeRun Linked Free start (count + 1) := by
  refine ⟨Nat.succ_pos _, ?_, ?_⟩
  · intro i hi
    rcases lt_or_eq_of_le (Nat.le_of_lt_succ hi) with hlt | rfl
    · exact h.free i hlt
    · exact hfree
  intro i hi
  by_cases hlast : i + 1 = count
  · have hi' : start + i = start + count - 1 := by omega
    have hnext : start + i + 1 = start + count := by omega
    rw [hnext, hi']
    exact hlinked
  · exact h.linked i (by omega)

theorem freeRun_one {cell : Nat} (hfree : Free cell) : FreeRun Linked Free cell 1 := by
  refine ⟨one_pos, ?_, ?_⟩
  · intro i hi
    obtain rfl : i = 0 := by omega
    exact hfree
  · intro i hi
    omega

theorem scanned_zero (hcount : 0 < count) : Scanned Linked Free count 0 start 0 := by
  refine ⟨hcount, fun h => absurd h (Nat.lt_irrefl 0), fun s hs => absurd hs (Nat.not_lt_zero s),
    fun s hs => ?_⟩
  omega

theorem Scanned.skip (h : Scanned Linked Free count bound start run) {bound' : Nat}
    (hlt : bound < bound') (htaken : ∀ cell, bound ≤ cell → cell < bound' → ¬ Free cell)
    (start' : Nat) : Scanned Linked Free count bound' start' 0 := by
  have hpos := Nat.zero_lt_of_lt h.short
  refine ⟨hpos, fun hrun => absurd hrun (lt_irrefl 0), ?_, ?_⟩
  · intro s hs hrun
    have hlast := hrun.free (bound' - s - 1) (by omega)
    exact absurd hlast (htaken _ (by omega) (by omega))
  intro s hs hrun
  by_cases hbelow : s + count ≤ bound
  · exact h.missing s hbelow hrun
  · exact htaken (s + (count - 1)) (by omega) (by omega) (hrun.free (count - 1) (by omega))

section

variable (h : Scanned Linked Free count bound start run)
include h

theorem Scanned.current_extends
    (hfree : Free bound) (hextends : Extends Linked bound start run start' run') :
    start' + run' = bound + 1 ∧ FreeRun Linked Free start' run' := by
  by_cases hjoin : 0 < run ∧ Linked (bound - 1) bound
  · obtain ⟨hrun, hlinked⟩ := hjoin
    obtain ⟨rfl, rfl⟩ := hextends.joined hrun hlinked
    obtain ⟨hbound, hcurrent⟩ := h.current hrun
    subst hbound
    exact ⟨by omega, hcurrent.extend hfree hlinked⟩
  · obtain ⟨rfl, rfl⟩ := hextends.alone hjoin
    exact ⟨rfl, freeRun_one hfree⟩

theorem Scanned.longest_extends (hextends : Extends Linked bound start run start' run') (s : Nat)
    (hs : s < bound + 1) (hrun : FreeRun Linked Free s (bound + 1 - s)) :
    0 < run' ∧ start' ≤ s := by
  by_cases hbefore : s < bound
  · have hprevious := h.longest s hbefore (hrun.shorten (by omega) (by omega))
    have hlinked := hrun.linked (bound - 1 - s) (by omega)
    have hlast : s + (bound - 1 - s) = bound - 1 := by omega
    have hnext : bound - 1 + 1 = bound := by omega
    rw [hlast, hnext] at hlinked
    obtain ⟨rfl, rfl⟩ := hextends.joined hprevious.1 hlinked
    exact ⟨Nat.succ_pos _, hprevious.2⟩
  · by_cases hjoin : 0 < run ∧ Linked (bound - 1) bound
    · obtain ⟨rfl, rfl⟩ := hextends.joined hjoin.1 hjoin.2
      have hbound := (h.current hjoin.1).1
      exact ⟨Nat.succ_pos _, by omega⟩
    · obtain ⟨rfl, rfl⟩ := hextends.alone hjoin
      exact ⟨one_pos, by omega⟩

theorem Scanned.extends_le
    (hextends : Extends Linked bound start run start' run') : run' ≤ count := by
  have hshort := h.short
  by_cases hjoin : 0 < run ∧ Linked (bound - 1) bound
  · obtain ⟨rfl, rfl⟩ := hextends.joined hjoin.1 hjoin.2
    exact hshort
  · obtain ⟨rfl, rfl⟩ := hextends.alone hjoin
    omega

theorem Scanned.extend (hfree : Free bound) (hextends : Extends Linked bound start run start' run')
    (hshort : run' < count) : Scanned Linked Free count (bound + 1) start' run' := by
  have hcurrent := h.current_extends hfree hextends
  refine ⟨hshort, fun _ => hcurrent, h.longest_extends hextends, ?_⟩
  intro s hs hrun
  by_cases hbelow : s + count ≤ bound
  · exact h.missing s hbelow hrun
  have hlength : bound + 1 - s = count := by omega
  have hlongest := h.longest_extends hextends s (by omega) (hlength ▸ hrun)
  omega

theorem Scanned.found
    (hfree : Free bound) (hextends : Extends Linked bound start run start' count) :
    IsLeast {s | FreeRun Linked Free s count} start' := by
  have hcurrent := h.current_extends hfree hextends
  refine ⟨hcurrent.2, ?_⟩
  intro s hs
  by_contra hlower
  exact h.missing s (by omega) hs

theorem Scanned.exhausted
    (hend : ∀ cell, Free cell → cell < bound) (s : Nat) : ¬ FreeRun Linked Free s count := by
  intro hrun
  have hlast := hend _ (hrun.free (count - 1) (by have := hrun.nonempty; omega))
  exact h.missing s (by omega) hrun

end

end SlimeOs.FreeRuns
