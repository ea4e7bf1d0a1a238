import Mathlib.Algebra.BigOperators.Fin
import Mathlib.Algebra.Order.BigOperators.Group.Finset

/-!
Sums over the entries of a fixed-size table, where an entry's weight may depend
on its position. Writing one entry changes the sum by that entry alone.
-/

namespace SlimeOs.TableSum

variable {α : Type} {n : Nat} {second first : Nat → α → Nat} {xs : List α}

def tableSum (weight : Nat → α → Nat) (table : Vector α n) : Nat :=
  ∑ i : Fin n, weight i.val (table.get i)

def othersSum (weight : Nat → α → Nat) (table : Vector α n) (i : Nat) : Nat :=
  ∑ j : Fin n, if j.val = i then 0 else weight j.val (table.get j)

variable (weight : Nat → α → Nat) (table : Vector α n) {i : Nat}

theorem tableSum_eq_othersSum_add
    (hi : i < n) : tableSum weight table = othersSum weight table i + weight i table[i] := by
  have hentry : ∑ j : Fin n, (if j = (⟨i, hi⟩ : Fin n) then weight i table[i] else 0) =
      weight i table[i] := by
    simp
  rw [othersSum, ← hentry, ← Finset.sum_add_distrib]
  apply Finset.sum_congr rfl
  intro j _
  by_cases hj : j.val = i
  · subst hj
    simp
    rfl
  · have hne : j ≠ ⟨i, hi⟩ := fun heq => hj (congrArg Fin.val heq)
    simp [hj, hne]

theorem othersSum_set (hi : i < n)
    (entry : α) : othersSum weight (table.set i entry) i = othersSum weight table i := by
  apply Finset.sum_congr rfl
  intro j _
  by_cases hj : j.val = i
  · simp [hj]
  · have hne : i ≠ j.val := fun heq => hj heq.symm
    rw [if_neg hj, if_neg hj]
    exact congrArg (weight j.val) (Vector.getElem_set_ne hi j.isLt hne)

theorem tableSum_set (hi : i < n) (entry : α) :
    tableSum weight (table.set i entry) = othersSum weight table i + weight i entry := by
  rw [tableSum_eq_othersSum_add weight (table.set i entry) hi, othersSum_set,
    Vector.getElem_set_self]

theorem le_tableSum (i : Nat) (hi : i < n) : weight i table[i] ≤ tableSum weight table :=
  Finset.single_le_sum (f := fun j : Fin n => weight j.val table[j])
    (fun _ _ => Nat.zero_le _) (Finset.mem_univ ⟨i, hi⟩)

theorem tableSum_replicate_eq_zero (entry : α) (hzero : ∀ i, weight i entry = 0) :
    tableSum weight (Vector.replicate n entry) = 0 := by
  apply Finset.sum_eq_zero
  intro i _
  have hentry : (Vector.replicate n entry).get i = entry := Vector.getElem_replicate i.isLt
  rw [hentry]
  exact hzero i.val

theorem tableSum_congr {table table' : Vector α n}
    (heq : ∀ i (hi : i < n), first i table[i] = second i table'[i]) :
    tableSum first table = tableSum second table' := by
  apply Finset.sum_congr rfl
  intro i _
  exact heq i.val i.isLt

theorem tableSum_le_mul {table : Vector α n} (factor : Nat)
    (hle : ∀ i (hi : i < n), first i table[i] ≤ factor * second i table[i]) :
    tableSum first table ≤ factor * tableSum second table := by
  rw [tableSum, tableSum, Finset.mul_sum]
  apply Finset.sum_le_sum
  intro i _
  exact hle i.val i.isLt

theorem tableSum_eq_sum_range (default : α) (count : Nat) (hcount : count ≤ n)
    (hzero : ∀ i (hi : i < n), count ≤ i → weight i table[i] = 0) :
    tableSum weight table =
      ((List.range count).map fun i => weight i (table[i]?.getD default)).sum := by
  let extended : Nat → Nat := fun i => weight i (table[i]?.getD default)
  have hentry : ∀ i (hi : i < n), extended i = weight i table[i] := by
    intro i hi
    simp [extended, hi]
  have hfull : tableSum weight table = ∑ i ∈ Finset.range n, extended i := by
    rw [Finset.sum_range]
    apply Finset.sum_congr rfl
    intro i _
    exact (hentry i.val i.isLt).symm
  have hprefix : ∑ i ∈ Finset.range count, extended i = ∑ i ∈ Finset.range n, extended i := by
    apply Finset.sum_subset (Finset.range_mono hcount)
    intro i hi hnot
    have hlt : i < n := Finset.mem_range.mp hi
    rw [hentry i hlt]
    exact hzero i hlt (by simpa using hnot)
  rw [hfull, ← hprefix]
  exact Multiset.sum_coe _

variable (weight : α → Nat)

theorem tableSum_eq_sum_toList :
    tableSum (fun _ => weight) table = (table.toList.map weight).sum := by
  have hentries : table.toList.map weight = List.ofFn fun i : Fin n => weight table[i] := by
    apply List.ext_getElem
    · simp
    · intro i _ _
      simp
  rw [hentries, List.sum_ofFn]
  rfl

theorem sum_map_set {a b : α} (h : xs[i]? = some a) :
    ((xs.set i b).map weight).sum + weight a = (xs.map weight).sum + weight b := by
  induction xs generalizing i with
  | nil => nomatch h
  | cons x xs ih =>
    rcases i with _ | i
    · obtain rfl : x = a := by simpa using h
      simp only [List.set_cons_zero, List.map_cons, List.sum_cons]
      omega
    · have hrest := ih (by simpa using h)
      simp only [List.set_cons_succ, List.map_cons, List.sum_cons]
      omega

theorem le_sum_map {a : α} (h : xs[i]? = some a) : weight a ≤ (xs.map weight).sum :=
  List.single_le_sum (by simp) _ (List.mem_map_of_mem (List.mem_of_getElem? h))

end SlimeOs.TableSum
