import Mathlib.Order.Interval.Finset.Nat
import Mathlib.Order.Interval.Set.Disjoint
import SlimeOs.PrivateMemoryPlan

/-!
The inventory check compares no addresses. It accepts a partition whose ranges are disjoint, lie
inside ordinary ranges and hold as many bytes as these, and by counting that is a tiling.
-/

namespace SlimeOs.PrivateMemoryInventory

open CheckedWord FallibleCall FallibleCall.Outcome List PrivateMemoryPlan PrivateMemoryResources

def checkDisjoint (ranges : List Range) (_ : Unit) (entry : Range × Nat) : Outcome Error Unit := do
  let stop ← entry.1.stop
  rejectIf
    (entry.1.bytes == 0 ||
      (ranges.take entry.2).any fun other =>
        decide (entry.1.start < other.stop.toOption.getD (2 ^ 64 - 1)) &&
          decide (other.start < stop))
    .inventory

def disjoint (ranges : List Range) : Outcome Error Unit :=
  ranges.zipIdx.foldlM (checkDisjoint ranges) ()

/-- The ends are compared in the order of `Option`. -/
def inside (range parent : Range) : Bool :=
  decide (parent.start ≤ range.start) &&
    match range.stop.toOption, parent.stop.toOption with
    | none, _ => true
    | some _, none => false
    | some stop, some parentStop => decide (stop ≤ parentStop)

def addBytes (sum : UInt64) (range : Range) : Outcome Error UInt64 :=
  okOr (checkedAdd sum range.bytes) .overflow

/-- One range of the partition, with the bytes so far and the available part of them. -/
def countRange (ordinary : List Range) (carried : UInt64 × UInt64) (range : Range) :
    Outcome Error (UInt64 × UInt64) := do
  rejectIf (!ordinary.any (inside range)) .inventory
  let total ← addBytes carried.1 range
  let available ← if range.free then addBytes carried.2 range else pure carried.2
  pure (total, available)

def inventoryAvailable (ordinary partition : List Range) : Outcome Error UInt64 := do
  disjoint ordinary
  disjoint partition
  let (total, available) ← partition.foldlM (countRange ordinary) (0, 0)
  let admitted ← ordinary.foldlM addBytes 0
  rejectIf (total != admitted) .inventory
  pure available

def addresses (range : Range) : Finset Nat :=
  Finset.Ico range.start.toNat (range.start.toNat + range.bytes.toNat)

def covered (ranges : List Range) : Finset Nat := ranges.toFinset.biUnion addresses

def Sized (range : Range) : Prop :=
  range.bytes ≠ 0 ∧ range.start.toNat + range.bytes.toNat ≤ 2 ^ 64 - 1

def Apart (ranges : List Range) : Prop :=
  ranges.Pairwise fun a b => Disjoint (addresses a) (addresses b)

/-- The conditions that are checked range by range. -/
structure Fitted (ordinary partition : List Range) : Prop where
  sized : ∀ range ∈ ordinary, Sized range
  apart : Apart ordinary
  sizedParts : ∀ range ∈ partition, Sized range
  apartParts : Apart partition
  inside : ∀ range ∈ partition, ∃ parent ∈ ordinary, addresses range ⊆ addresses parent

/-- What no comparison of the check states: each ordinary address lies in exactly one part. -/
structure Tiling (ordinary partition : List Range) : Prop extends Fitted ordinary partition where
  covers : ∀ parent ∈ ordinary, ∀ address ∈ addresses parent,
    ∃! range, range ∈ partition ∧ address ∈ addresses range

variable {range other parent : Range} {ranges ordinary partition : List Range}

theorem Sized.stop (h : Sized range) : ∃ stop, checkedAdd range.start range.bytes = some stop ∧
    stop.toNat = range.start.toNat + range.bytes.toNat :=
  exists_checkedAdd (by have := h.2; omega)

theorem Sized.pos (h : Sized range) : 0 < range.bytes.toNat :=
  Nat.pos_of_ne_zero fun hzero => h.1 (UInt64.toNat_inj.mp hzero)

theorem checkDisjoint_eq_ok_iff {i : Nat} : checkDisjoint ranges () (range, i) = .ok () ↔
    Sized range ∧ ∀ other ∈ ranges.take i,
      ¬ (range.start.toNat < (other.stop.toOption.getD (2 ^ 64 - 1)).toNat ∧
        other.start.toNat < range.start.toNat + range.bytes.toNat) := by
  simp only [checkDisjoint, Range.stop, bind_eq_ok_iff, okOr_eq_ok_iff, rejectIf_eq_ok_iff,
    Bool.or_eq_false_iff, beq_eq_false_iff_ne, any_eq_false, Bool.and_eq_true, decide_eq_true_eq,
    UInt64.lt_iff_toNat_lt]
  constructor
  · rintro ⟨stop, hstop, hbytes, hothers⟩
    rw [checkedAdd_eq_some_iff] at hstop
    rw [hstop] at hothers
    have := stop.toNat_lt
    exact ⟨⟨hbytes, by omega⟩, hothers⟩
  · rintro ⟨hsized, hothers⟩
    obtain ⟨stop, hok, hstop⟩ := hsized.stop
    exact ⟨stop, hok, hsized.1, by rwa [hstop]⟩

theorem disjoint_eq_ok_iff :
    disjoint ranges = .ok () ↔ (∀ range ∈ ranges, Sized range) ∧ Apart ranges := by
  rw [disjoint, foldlM_zipIdx_eq_ok_iff fun i range _ => checkDisjoint_eq_ok_iff]
  refine and_congr_right fun hsized => Pairwise.iff_of_mem fun {other range} hother hrange => ?_
  obtain ⟨stop, hok, hstop⟩ := (hsized other hother).stop
  have hpos := (hsized other hother).pos
  have hpos' := (hsized range hrange).pos
  rw [Range.stop, hok, addresses, addresses, ← Finset.disjoint_coe, Finset.coe_Ico, Finset.coe_Ico,
    Set.Ico_disjoint_Ico]
  simp only [okOr, Except.toOption, Option.getD_some, hstop]
  omega

theorem any_inside_iff (hrange : Sized range) (hordinary : ∀ parent ∈ ordinary, Sized parent) :
    ordinary.any (inside range) = true ↔
      ∃ parent ∈ ordinary, addresses range ⊆ addresses parent := by
  rw [any_eq_true]
  refine exists_congr fun parent => and_congr_right fun hparent => ?_
  obtain ⟨stop, hok, hstop⟩ := hrange.stop
  obtain ⟨stop', hok', hstop'⟩ := (hordinary parent hparent).stop
  have hpos := hrange.pos
  rw [addresses, addresses, Finset.Ico_subset_Ico_iff (by omega)]
  simp [inside, Range.stop, okOr, hok, hok', Except.toOption, UInt64.le_iff_toNat_le, hstop, hstop']

theorem mem_covered {address : Nat} :
    address ∈ covered ranges ↔ ∃ range ∈ ranges, address ∈ addresses range := by
  simp [covered]

/-- Of disjoint ranges the sum of the bytes is the number of their addresses. -/
theorem Apart.foldlM_addBytes (h : Apart ranges) {start sum : UInt64} :
    ranges.foldlM addBytes start = .ok sum ↔ sum.toNat = start.toNat + (covered ranges).card := by
  induction ranges generalizing start with
  | nil => simp [UInt64.toNat_inj, eq_comm (a := sum), covered]
  | cons range ranges ih =>
    obtain ⟨hfirst, hrest⟩ := pairwise_cons.mp h
    have hcard : (covered (range :: ranges)).card = range.bytes.toNat + (covered ranges).card := by
      have hsplit : covered (range :: ranges) = addresses range ∪ covered ranges := by
        simp [covered]
      rw [hsplit, Finset.card_union_of_disjoint]
      · simp [addresses]
      · simpa [covered, Finset.disjoint_biUnion_right] using hfirst
    rw [foldlM_cons, bind_eq_ok_iff]
    simp only [addBytes, okOr_eq_ok_iff, checkedAdd_eq_some_iff, ih hrest]
    constructor
    · rintro ⟨next, hnext, hsum⟩
      omega
    · intro hsum
      have := sum.toNat_lt
      obtain ⟨next, hnext⟩ := exists_toNat_eq (n := start.toNat + range.bytes.toNat) (by omega)
      exact ⟨next, hnext, by omega⟩

theorem foldlM_countRange_eq_ok_iff {carried result : UInt64 × UInt64} :
    partition.foldlM (countRange ordinary) carried = .ok result ↔
      (∀ range ∈ partition, ordinary.any (inside range) = true) ∧
      partition.foldlM addBytes carried.1 = .ok result.1 ∧
      (partition.filter Range.free).foldlM addBytes carried.2 = .ok result.2 := by
  induction partition generalizing carried with
  | nil => simp [Prod.ext_iff]
  | cons range partition ih =>
    simp only [foldlM_cons, bind_eq_ok_iff, ih, forall_mem_cons, filter_cons, countRange,
      rejectIf_eq_ok_iff, Bool.not_eq_false']
    cases range.free
    · simp only [Bool.false_eq_true, if_false, bind_eq_ok_iff, pure_eq_ok_iff]
      grind
    · simp only [if_true, foldlM_cons, bind_eq_ok_iff, pure_eq_ok_iff]
      grind

section Fitted

variable (h : Fitted ordinary partition)

include h

theorem Fitted.covered_subset : covered partition ⊆ covered ordinary := by
  intro address haddress
  obtain ⟨range, hrange, hmem⟩ := mem_covered.mp haddress
  obtain ⟨parent, hparent, hsub⟩ := h.inside range hrange
  exact mem_covered.mpr ⟨parent, hparent, hsub hmem⟩

theorem Fitted.card_lt : (covered ordinary).card < 2 ^ 64 := by
  have hsub : covered ordinary ⊆ Finset.range (2 ^ 64 - 1) := by
    intro address haddress
    obtain ⟨range, hrange, hmem⟩ := mem_covered.mp haddress
    have hsized := (h.sized range hrange).2
    have hlt := (Finset.mem_Ico.mp hmem).2
    exact Finset.mem_range.mpr (by omega)
  have hle := Finset.card_le_card hsub
  rw [Finset.card_range] at hle
  omega

/-- A partition inside the ordinary ranges leaves no address out exactly when it is as large. -/
theorem Fitted.tiling_iff :
    Tiling ordinary partition ↔ (covered partition).card = (covered ordinary).card := by
  constructor
  · intro htiling
    refine congrArg Finset.card (h.covered_subset.antisymm fun address haddress => ?_)
    obtain ⟨parent, hparent, hmem⟩ := mem_covered.mp haddress
    obtain ⟨range, hrange, -⟩ := htiling.covers parent hparent address hmem
    exact mem_covered.mpr ⟨range, hrange⟩
  · intro hcard
    have hsame := Finset.eq_of_subset_of_card_le h.covered_subset hcard.ge
    refine ⟨h, fun parent hparent address hmem => ?_⟩
    have hcovered := mem_covered.mpr ⟨parent, hparent, hmem⟩
    rw [← hsame] at hcovered
    obtain ⟨range, hrange, hin⟩ := mem_covered.mp hcovered
    refine ⟨range, ⟨hrange, hin⟩, ?_⟩
    rintro other ⟨hother, hin'⟩
    by_contra hne
    have hapart := h.apartParts.forall hother hrange hne
    exact Finset.disjoint_left.mp hapart hin' hin

end Fitted

/-- The inventory is accepted exactly when the partition tiles it, and the answer is the number
of addresses in its free ranges. -/
theorem inventoryAvailable_exact (ordinary partition : List Range) :
    ((∃ n, inventoryAvailable ordinary partition = .ok n) ↔ Tiling ordinary partition) ∧
      ∀ n, inventoryAvailable ordinary partition = .ok n →
        n.toNat = (covered (partition.filter Range.free)).card := by
  have hanswer (n : UInt64) (hn : inventoryAvailable ordinary partition = .ok n) :
      Tiling ordinary partition ∧ n.toNat = (covered (partition.filter Range.free)).card := by
    simp only [inventoryAvailable, bind_eq_ok_iff, foldlM_countRange_eq_ok_iff, rejectIf_eq_ok_iff,
      pure_eq_ok_iff, bne_eq_false_iff_eq] at hn
    obtain ⟨_, hordinary, _, hpartition, ⟨total, available⟩, ⟨hinside, htotal, havailable⟩,
      -, hadmitted, -, rfl, rfl⟩ := hn
    obtain ⟨hsized, hapart⟩ := disjoint_eq_ok_iff.mp hordinary
    obtain ⟨hsized', hapart'⟩ := disjoint_eq_ok_iff.mp hpartition
    have h : Fitted ordinary partition := ⟨hsized, hapart, hsized', hapart', fun range hrange =>
      (any_inside_iff (hsized' range hrange) hsized).mp (hinside range hrange)⟩
    rw [hapart'.foldlM_addBytes] at htotal
    rw [hapart.foldlM_addBytes] at hadmitted
    rw [Apart.foldlM_addBytes (hapart'.filter _)] at havailable
    exact ⟨h.tiling_iff.mpr (by simpa using htotal.symm.trans hadmitted), by simpa using havailable⟩
  refine ⟨⟨fun h => h.elim fun n hn => (hanswer n hn).1, fun htiling => ?_⟩,
    fun n hn => (hanswer n hn).2⟩
  -- Both sums are cardinalities below `2 ^ 64`, so no addition overflows.
  have h := htiling.toFitted
  have hfree : covered (partition.filter Range.free) ⊆ covered partition :=
    Finset.biUnion_subset_biUnion_of_subset_left _ fun range => by simp +contextual
  obtain ⟨total, htotal⟩ := exists_toNat_eq h.card_lt
  obtain ⟨n, hn⟩ := exists_toNat_eq
    ((Finset.card_le_card (hfree.trans h.covered_subset)).trans_lt h.card_lt)
  have hcount : partition.foldlM (countRange ordinary) (0, 0) = .ok (total, n) := by
    rw [foldlM_countRange_eq_ok_iff, h.apartParts.foldlM_addBytes, h.tiling_iff.mp htiling,
      Apart.foldlM_addBytes (h.apartParts.filter _)]
    exact ⟨fun range hrange => (any_inside_iff (h.sizedParts range hrange) h.sized).mpr
      (h.inside range hrange), by simpa using htotal, by simpa using hn⟩
  have hadmitted : ordinary.foldlM addBytes 0 = .ok total := by
    rw [h.apart.foldlM_addBytes]
    simpa using htotal
  refine ⟨n, ?_⟩
  rw [inventoryAvailable, disjoint_eq_ok_iff.mpr ⟨h.sized, h.apart⟩,
    disjoint_eq_ok_iff.mpr ⟨h.sizedParts, h.apartParts⟩, hcount, hadmitted]
  simp [rejectIf, bind, Except.bind, pure, Except.pure]

end SlimeOs.PrivateMemoryInventory
