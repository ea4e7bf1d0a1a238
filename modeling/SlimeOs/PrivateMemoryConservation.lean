import SlimeOs.PrivateMemoryAccounts

/-!
Nothing the ledger admitted is ever lost or created. Every unit of the available
tuple stays in exactly one pool, and every entitlement's guarantee is either free
or charged to one of its members, after any sequence of calls.
-/

namespace SlimeOs.PrivateMemoryConservation

open ByteLayout FallibleCall Option PrivateMemoryAccounts PrivateMemoryLedger PrivateMemoryPolicy
  Vector PrivateMemoryResources TableSum Resources

def rootReserved (s : Ledger) (k : Component) : Nat :=
  match s.rootPending with
  | some reserved => reserved.units k
  | none => 0

def pendingElastic (s : Ledger) (k : Component) : Nat :=
  match s.pending with
  | some q => q.elastic.units k
  | none => 0

def elasticSum (s : Ledger) (k : Component) : Nat :=
  tableSum (fun _ m => m.elastic.units k) s.members

def guaranteeSum (total : Vector Resources maxEntitlements) (k : Component) : Nat :=
  tableSum (fun _ resources => resources.units k) total

def accounted (s : Ledger) (k : Component) : Nat :=
  s.free.units k + s.rootOwned.units k + s.systemOwned.units k + rootReserved s k +
    elasticSum s k + pendingElastic s k +
    (s.policy.reserve.units k - s.operationalSpent.units k) + guaranteeSum s.guaranteeTotal k

structure Balanced (available : Resources) (s : Ledger) : Prop where
  policy : s.policy.WellFormed
  conserved : ∀ k, accounted s k = available.units k
  spent_le : ∀ k, s.operationalSpent.units k ≤ s.policy.reserve.units k
  entitled : ∀ index (h : index < maxEntitlements) k,
    s.guaranteeFree[index].units k + cohortSum s index (fun m => m.guaranteed.units k) +
      cohortPending s index (fun q => q.guaranteed.units k) = s.guaranteeTotal[index].units k

variable {s s' ledger : Ledger} {operation : Operation} {available : Resources} {policy : Policy}

theorem accounted_change (hspent : ∀ k, s.operationalSpent.units k ≤ s.policy.reserve.units k)
    (hchange : Change s operation s') (k : Component) : accounted s' k = accounted s k := by
  have hspent := hspent k
  have helasticSum : ∀ position (h : position < maxSubjects), elasticSum s k =
      othersSum (fun _ m => m.elastic.units k) s.members position +
        s.members[position].elastic.units k :=
    fun position h => tableSum_eq_othersSum_add _ s.members h
  cases hchange with
  | bound hlt _ _ _ =>
    simp only [accounted, rootReserved, pendingElastic, helasticSum _ hlt]
    simp only [elasticSum, tableSum_set]
  | quarantined hlt =>
    simp only [accounted, rootReserved, pendingElastic, helasticSum _ hlt]
    simp only [elasticSum, tableSum_set]
  | retained hlt hunits =>
    have hunits := hunits k
    simp only [accounted, rootReserved, pendingElastic, helasticSum _ hlt]
    simp only [elasticSum, tableSum_set]
    omega
  | rootReserved hnone hunits =>
    have hunits := hunits k
    simp only [accounted, rootReserved, pendingElastic, elasticSum, hnone]
    omega
  | rootSettled hreserved hunits hspent' =>
    have hunits := hunits k
    have hspent' := hspent' k
    simp only [accounted, rootReserved, pendingElastic, elasticSum, hreserved]
    omega
  | reconciled hunits hspent' =>
    have hunits := hunits k
    have hspent' := hspent' k
    simp only [accounted, rootReserved, pendingElastic, elasticSum]
    omega
  | begun hnone _ _ _ _ _ _ _ _ _ _ _ hfree _ =>
    have hfree := hfree k
    simp only [accounted, rootReserved, pendingElastic, elasticSum, hnone]
    omega
  | committed hpending hlt _ helastic _ _ =>
    have helastic := helastic k
    simp only [accounted, rootReserved, pendingElastic, hpending, helasticSum _ hlt]
    simp only [elasticSum, tableSum_set]
    omega
  | aborted clean hpending hlt _ _ _ _ helastic hspent' _ _ =>
    have helastic := helastic k
    have hspent' := hspent' k
    simp only [accounted, rootReserved, pendingElastic, hpending, helasticSum _ hlt]
    simp only [elasticSum, tableSum_set]
    omega
  | retired hlt _ _ _ _ _ helastic hspent' =>
    have helastic := helastic k
    have hspent' := hspent' k
    simp only [accounted, rootReserved, pendingElastic, helasticSum _ hlt]
    simp only [elasticSum, tableSum_set, Member.default, units_zero]
    omega

theorem entitled_change (hchange : Change s operation s')
    (index : Nat) (hindex : index < maxEntitlements) (k : Component)
    (hentitled : s.guaranteeFree[index].units k +
      cohortSum s index (fun m => m.guaranteed.units k) +
      cohortPending s index (fun q => q.guaranteed.units k) = s.guaranteeTotal[index].units k) :
    s'.guaranteeFree[index].units k + cohortSum s' index (fun m => m.guaranteed.units k) +
      cohortPending s' index (fun q => q.guaranteed.units k) =
        s'.guaranteeTotal[index].units k := by
  have hcohortSum : ∀ position (h : position < maxSubjects),
      cohortSum s index (fun m => m.guaranteed.units k) =
        othersSum (cohortWeight s.policy index fun m => m.guaranteed.units k) s.members position +
          cohortWeight s.policy index (fun m => m.guaranteed.units k) position
            s.members[position] :=
    fun position h => tableSum_eq_othersSum_add _ s.members h
  cases hchange with
  | bound hlt _ _ _ =>
    rw [hcohortSum _ hlt] at hentitled
    simpa only [cohortSum, cohortPending, tableSum_set, cohortWeight] using hentitled
  | quarantined hlt =>
    rw [hcohortSum _ hlt] at hentitled
    simpa only [cohortSum, cohortPending, tableSum_set, cohortWeight] using hentitled
  | retained hlt hunits =>
    rw [hcohortSum _ hlt] at hentitled
    simpa only [cohortSum, cohortPending, tableSum_set, cohortWeight] using hentitled
  | rootReserved _ _ => exact hentitled
  | rootSettled _ _ _ => exact hentitled
  | reconciled _ _ => exact hentitled
  | @begun _ q drawn _ _ _ _ hnone _ _ _ hlimit hmember _ _ _ _ _ _ _ hguarantee =>
    have hguarantee := hguarantee k
    simp only [cohortSum, cohortPending, hnone] at hentitled
    simp only [cohortSum, cohortPending, hmember, some.injEq, getElem_set]
    by_cases hsame : drawn = index
    · subst hsame
      simp only [if_true]
      omega
    · simp only [hsame, if_false]
      omega
  | committed hpending hlt hguaranteed _ _ _ =>
    have hguaranteed := hguaranteed k
    rw [hcohortSum _ hlt] at hentitled
    simp only [cohortPending, hpending, cohortWeight] at hentitled
    simp only [cohortSum, cohortPending, tableSum_set, cohortWeight]
    split_ifs at hentitled ⊢ <;> omega
  | @aborted clean _ q _ refunded _ _ _ _ _ _ _ hpending hlt hlimit hmember hguaranteed
      hguarantee _ _ _ _ =>
      have hguaranteed := hguaranteed k
      have hguarantee := hguarantee k
      rw [hcohortSum _ hlt] at hentitled
      simp only [cohortPending, hpending, cohortWeight, hmember, some.injEq] at hentitled
      simp only [cohortSum, cohortPending, tableSum_set, cohortWeight, hmember,
        some.injEq, getElem_set]
      by_cases hsame : refunded = index
      · subst hsame
        simp only [if_true] at hentitled ⊢
        rcases clean with _ | _ <;> simp at hguaranteed hguarantee <;> omega
      · simp only [hsame, if_false] at hentitled ⊢
        omega
  | @retired _ token refunded _ _ _ hlt _ _ hlimit hmember hguarantee _ _ =>
    have hguarantee := hguarantee k
    rw [hcohortSum _ hlt] at hentitled
    simp only [cohortPending, cohortWeight, hmember, some.injEq] at hentitled
    simp only [cohortSum, cohortPending, tableSum_set, cohortWeight, hmember,
      some.injEq, getElem_set, Member.default, units_zero]
    by_cases hsame : refunded = index
    · subst hsame
      simp only [if_true] at hentitled ⊢
      omega
    · simp only [hsame, if_false] at hentitled ⊢
      omega

theorem Change.balanced
    (h : Balanced available s) (hchange : Change s operation s') : Balanced available s' := by
  obtain ⟨hpolicy, hconserved, hspent, hentitled⟩ := h
  have hfixed : s'.policy = s.policy := by cases hchange <;> rfl
  refine ⟨by rw [hfixed]; exact hpolicy, fun k => ?_, fun k => ?_, fun index hindex k => ?_⟩
  · rw [accounted_change hspent hchange, hconserved]
  · have hspent := hspent k
    cases hchange with
    | rootSettled _ _ hspent' => exact (hspent' k).trans hspent
    | reconciled _ hspent' => exact hspent' k
    | aborted _ _ _ _ _ _ _ _ hspent' _ _ => exact (hspent' k).trans hspent
    | retired _ _ _ _ _ _ _ hspent' => exact (hspent' k).trans hspent
    | _ => exact hspent
  · exact entitled_change hchange index hindex k (hentitled index hindex k)

theorem admitGuarantee_foldlM_units (guarantees : List Resources) (next : Nat)
    {free free' : Resources} {total total' : Vector Resources maxEntitlements}
    (hloop : (guarantees.zipIdx next).foldlM (Ledger.admitGuarantee policy) (free, total) =
      .ok (free', total')) (hfresh : ∀ index (h : index < maxEntitlements), next ≤ index →
      total[index] = Resources.zero) (k : Component) :
    free'.units k + guaranteeSum total' k = free.units k + guaranteeSum total k := by
  induction guarantees generalizing next free total with
  | nil =>
    obtain ⟨rfl, rfl⟩ : free = free' ∧ total = total' := by simpa using hloop
    rfl
  | cons resources guarantees ih =>
    rw [List.zipIdx_cons, List.foldlM_cons, Outcome.bind_eq_ok_iff] at hloop
    obtain ⟨⟨middle, rows⟩, hstep, hrest⟩ := hloop
    simp only [Ledger.admitGuarantee, Outcome.bind_eq_ok_iff] at hstep
    obtain ⟨_, -, _, -, _, -, left, hleft, hwrite⟩ := hstep
    split at hwrite
    next hlt =>
      obtain ⟨rfl, rfl⟩ : left = middle ∧ total.set next resources = rows := by
        simpa using hwrite
      have hrow : guaranteeSum total k =
          othersSum (fun _ resources => resources.units k) total next + total[next].units k :=
        tableSum_eq_othersSum_add _ total hlt
      have hset : guaranteeSum (total.set next resources) k =
          othersSum (fun _ resources => resources.units k) total next + resources.units k :=
        tableSum_set _ total hlt resources
      have hleft := subtract_eq_ok_iff.mp hleft k
      have hzero := hfresh next hlt (Nat.le_refl next)
      rw [ih (next + 1) hrest]
      · rw [hzero, units_zero] at hrow
        omega
      · intro index hindex hnext
        rw [getElem_set_ne hlt hindex (by omega)]
        exact hfresh index hindex (by omega)
    · simp at hwrite

theorem admission_balanced (hpolicy : policy.WellFormed)
    {instances : List Instance} {guarantees : List Resources}
    (h : Ledger.admission policy instances available guarantees = .ok ledger) :
    Balanced available ledger := by
  obtain ⟨start, free, total, hstart, hloop, rfl⟩ := admission_eq_ok h
  refine ⟨hpolicy, fun k => ?_, fun k => ?_, fun index hindex k => ?_⟩
  · have hmoved := admitGuarantee_foldlM_units guarantees 0 hloop (by simp) k
    have hempty : guaranteeSum (replicate maxEntitlements zero) k = 0 :=
      tableSum_replicate_eq_zero _ _ fun _ => units_zero k
    have helastic : tableSum (fun _ (m : Member) => m.elastic.units k)
        (replicate maxSubjects Member.default) = 0 :=
      tableSum_replicate_eq_zero _ _ fun _ => units_zero k
    have hstart := subtract_eq_ok_iff.mp hstart k
    simp only [accounted, rootReserved, pendingElastic, elasticSum, units_zero, helastic]
    omega
  · simp
  · rw [cohortSum_fresh rfl index (units_zero k)]
    simp [cohortPending]

theorem after_balanced (h : Balanced available ledger) (operations : List Operation) :
    Balanced available (ledger.after operations) := by
  refine run_invariant Ledger.step (Balanced available) ?_ ledger operations h
  intro s operation hs
  rcases step_change s hs.policy operation with hsame | hchange
  · rw [hsame]
    exact hs
  · exact Change.balanced hs hchange

theorem foldlM_holdCommon (resources : List Resources) (held : Resources)
    (hfit : ∀ k, held.units k + (resources.map fun r => r.units k).sum < 2 ^ 64) :
    ∃ total, resources.foldlM Ledger.holdCommon held = .ok total := by
  induction resources generalizing held with
  | nil => exact ⟨held, rfl⟩
  | cons first rest ih =>
    simp only [List.map_cons, List.sum_cons] at hfit
    obtain ⟨next, hnext, hunits⟩ := @exists_checkedAdd held first fun k => by
      have := hfit k
      omega
    obtain ⟨total, htotal⟩ := ih next fun k => by
      have := hfit k
      rw [hunits k]
      omega
    refine ⟨total, ?_⟩
    rw [List.foldlM_cons, Outcome.bind_eq_ok_iff]
    exact ⟨next, by rw [Ledger.holdCommon, hnext], htotal⟩

theorem Balanced.commonHeld (h : Balanced available s) : ∃ held, s.commonHeld = .ok held := by
  refine foldlM_holdCommon _ _ fun k => ?_
  have hbound := available.units_lt k
  have hconserved := h.conserved k
  have hmembers : elasticSum s k =
      ((s.members.toList.map fun m => m.elastic).map fun r => r.units k).sum := by
    rw [List.map_map]
    exact tableSum_eq_sum_toList s.members fun m : Member => m.elastic.units k
  have hpending : pendingElastic s k =
      ((s.pending.toList.map fun q => q.elastic).map fun r => r.units k).sum := by
    unfold pendingElastic
    split <;> rename_i hq <;> simp [hq]
  rw [List.map_append, List.sum_append, units_zero]
  unfold accounted at hconserved
  omega

theorem Balanced.remainingOperationalReserve
    (h : Balanced available s) : ∃ remaining, s.remainingOperationalReserve = .ok remaining := by
  obtain ⟨remaining, hremaining, -⟩ := exists_subtract h.spent_le
  exact ⟨remaining, by rw [Ledger.remainingOperationalReserve, hremaining]⟩

/-- After any calls on an admitted ledger every pool adds up to what was
available, every guarantee is free or charged within its own entitlement, and
the two sums the source computes with `expect` are defined. -/
theorem after_conserved {bytes : List UInt8} {policy : Policy}
    (hdecode : Policy.decode bytes = .ok policy) {instances : List Instance}
    {available : Resources} {guarantees : List Resources} {ledger : Ledger}
    (hadmission : Ledger.admission policy instances available guarantees = .ok ledger)
    (operations : List Operation) :
    (∀ k, accounted (ledger.after operations) k = available.units k) ∧
    (∀ index (h : index < maxEntitlements) k,
      (ledger.after operations).guaranteeFree[index].units k +
          cohortSum (ledger.after operations) index (fun m => m.guaranteed.units k) +
          cohortPending (ledger.after operations) index (fun q => q.guaranteed.units k) =
        (ledger.after operations).guaranteeTotal[index].units k) ∧
    (∃ held, (ledger.after operations).commonHeld = .ok held) ∧
    ∃ remaining, (ledger.after operations).remainingOperationalReserve = .ok remaining := by
  have hbalanced := after_balanced
    (admission_balanced (Policy.decode_wellFormed hdecode) hadmission) operations
  exact ⟨hbalanced.conserved, hbalanced.entitled, hbalanced.commonHeld,
    hbalanced.remainingOperationalReserve⟩

/-! A policy of one subject whose entitlement guarantees two of its eight pages. -/

def sampleIdentity : Identity := (zeros 32).set 0 1

def sampleBytes : List UInt8 :=
  magic.toList ++ [2, 0, 0, 0] ++ [80, 0, 0, 0] ++ List.replicate 8 0 ++
    [1, 0, 0, 0] ++ [1, 0, 0, 0] ++ [248, 0, 0, 0] ++ List.replicate 44 0 ++
    sampleIdentity.toList ++ List.replicate 32 0 ++
    [2, 0, 0, 0, 0, 0, 0, 0] ++ [8, 0, 0, 0, 0, 0, 0, 0] ++ List.replicate 8 0 ++
    sampleIdentity.toList ++ sampleIdentity.toList ++
    [8, 0, 0, 0, 0, 0, 0, 0] ++ List.replicate 8 0

def samplePolicy : Policy :=
  { bytes := sampleBytes
    header := ⟨magic, 2, 80, 0, 1, 1, 248, 0, 0, 0, 0, 0, 0⟩ }

def sampleAvailable : Resources := ⟨262144, 64, 64, 64, 64⟩

def sampleGuarantee : Resources := ⟨8192, 2, 2, 1, 2⟩

def sampleLedger : Ledger :=
  { policy := samplePolicy
    free := ⟨253952, 62, 62, 63, 62⟩
    rootOwned := Resources.zero
    systemOwned := Resources.zero
    operationalSpent := Resources.zero
    rootPending := none
    poolPages := 64
    guaranteeTotal := (Vector.replicate maxEntitlements Resources.zero).set 0 sampleGuarantee
    guaranteeFree := (Vector.replicate maxEntitlements Resources.zero).set 0 sampleGuarantee
    members := Vector.replicate maxSubjects Member.default
    pending := none }

theorem sampleBytes_decode : Policy.decode sampleBytes = .ok samplePolicy := by
  decide +kernel

theorem sampleLedger_admission :
    Ledger.admission samplePolicy [⟨sampleIdentity, none⟩] sampleAvailable [sampleGuarantee] =
      .ok sampleLedger := by
  decide +kernel

theorem after_conserved_sample :
    Policy.decode sampleBytes = .ok samplePolicy ∧
    Ledger.admission samplePolicy [⟨sampleIdentity, none⟩] sampleAvailable [sampleGuarantee] =
      .ok sampleLedger ∧
    ∀ k, accounted (sampleLedger.after
      [.bind sampleIdentity, .begin ⟨0, 1⟩ 1 ⟨⟨8192, 2, 2, 1, 1⟩, Resources.zero, 0⟩,
        .abort ⟨0, 1⟩ ⟨4096, 1, 1, 0, 1⟩ true]) k = sampleAvailable.units k :=
  ⟨sampleBytes_decode, sampleLedger_admission,
    (after_conserved sampleBytes_decode sampleLedger_admission _).1⟩

end SlimeOs.PrivateMemoryConservation
