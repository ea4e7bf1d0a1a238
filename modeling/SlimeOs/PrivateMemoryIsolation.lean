import SlimeOs.PrivateMemoryLimits

/-!
Guarantee isolation. As long as transactions draw on guarantees without a
witness, each draws at most the floor-divided share of one page for every
guarantee page it redeems. The shares of the pages not yet redeemed are then
still in the entitlement's own free row, whatever happened to the common pool.
-/

namespace SlimeOs.PrivateMemoryIsolation

open ByteLayout CheckedWord FallibleCall PrivateMemoryAccounts PrivateMemoryConservation Member
  PrivateMemoryLedger PrivateMemoryLedgerCalls PrivateMemoryLimits PrivateMemoryPlan Except Option
  PrivateMemoryPolicy PrivateMemoryResources TableSum Resources

/-- A call that passes no witness to `begin`. -/
def WitnessFree : Operation → Prop
  | .begin _ _ plan => plan.guaranteed = Resources.zero
  | _ => True

def pageUnits (s : Ledger) (index : Nat) (entry : Entitlement) (k : Component) : Nat :=
  (s.guaranteeTotal[index]?.getD Resources.zero).units k / entry.guaranteePages.toNat

structure Enveloped (s : Ledger) : Prop where
  members : ∀ position (h : position < maxSubjects) index entry,
    s.policy.entitlementOf position = some index → s.policy.entitlement index = some entry →
    ∀ k, s.members[position].guaranteed.units k ≤
      pageUnits s index entry k * s.members[position].guaranteePages.toNat
  pending : ∀ q index entry, s.pending = some q →
    s.policy.entitlementOf q.member.subject = some index →
    s.policy.entitlement index = some entry →
    ∀ k, q.guaranteed.units k ≤ pageUnits s index entry k * q.guaranteePages.toNat

variable {s : Ledger} {index : Nat} {available : Resources} {entry : Entitlement} {pages : UInt64}
  {plan : Plan}

theorem pageUnits_eq (hlt : index < maxEntitlements) (entry : Entitlement) (k : Component) :
    pageUnits s index entry k = s.guaranteeTotal[index].units k / entry.guaranteePages.toNat := by
  simp [pageUnits, hlt]

section Steps

variable {s s' : Ledger} {operation : Operation}

theorem SameTerms.pageUnits (hterms : SameTerms s s') (index : Nat) (entry : Entitlement)
    (k : Component) : pageUnits s' index entry k = pageUnits s index entry k := by
  rw [PrivateMemoryIsolation.pageUnits, hterms.guaranteeTotal]
  rfl

theorem enveloped_members (h : Enveloped s) (hterms : SameTerms s s')
    (hfootprint : Footprint s operation s') (position : Nat) (hlt : position < maxSubjects)
    (index : Nat) (entry : Entitlement) (hindex : s'.policy.entitlementOf position = some index)
    (hentry : s'.policy.entitlement index = some entry) (k : Component) :
    s'.members[position].guaranteed.units k ≤
      pageUnits s' index entry k * s'.members[position].guaranteePages.toNat := by
  rw [hterms.policy] at hindex hentry
  rw [SameTerms.pageUnits hterms]
  have hbefore := h.members position hlt index entry hindex hentry k
  cases hfootprint with
  | unmoved _ hmembers =>
    rw [(hmembers position hlt).guaranteed, (hmembers position hlt).guaranteePages]
    exact hbefore
  | opened _ _ hmembers _ _ _ _ _ _ _ _ _ =>
    simpa only [hmembers] using hbefore
  | @settled _ _ q m hpending _ howner hmembers _ hredeemed =>
    simp only [hmembers, Vector.getElem_set]
    split
    next hown =>
      subst hown
      rcases hredeemed with ⟨hpages, hunits⟩ | ⟨hpages, hunits⟩
      · rw [hpages, hunits k]
        exact hbefore
      · have hdrawn := h.pending q index entry hpending hindex hentry k
        rw [hpages, hunits k, mul_add]
        omega
    · exact hbefore
  | released _ _ hmembers =>
    simp only [hmembers, Vector.getElem_set]
    split
    · simp [Member.default]
    · exact hbefore

theorem Change.enveloped (h : Enveloped s) (hfree : WitnessFree operation)
    (hchange : Change s operation s') : Enveloped s' := by
  have hterms := Change.sameTerms hchange
  have hfootprint := Change.footprint hchange
  refine ⟨enveloped_members h hterms hfootprint, fun q index entry hq hindex hentry k => ?_⟩
  rw [hterms.policy] at hindex hentry
  rw [SameTerms.pageUnits hterms]
  cases hfootprint with
  | unmoved hpending _ => exact h.pending q index entry (hpending ▸ hq) hindex hentry k
  | @opened plan _ q' index' entry' _ _ hpending _ _ hlimit hindex' hentry' _ _ _ _ hshare =>
    obtain rfl := mem_unique hpending hq
    obtain rfl := mem_unique hindex' hindex
    obtain rfl := mem_unique hentry' hentry
    rw [pageUnits_eq hlimit]
    exact hshare hfree k
  | settled _ hnone _ _ _ _ => simp [hnone] at hq
  | released _ hpending _ => exact h.pending q index entry (hpending ▸ hq) hindex hentry k

end Steps

/-- After witness-free calls a guarantee row holds the shares of the pages its entitlement has not
redeemed. -/
theorem Enveloped.share_le_free (h : Enveloped s)
    (hsound : Sound available s) (hnone : s.pending = none) (hlt : index < maxEntitlements)
    (hentry : s.policy.entitlement index = some entry) (k : Component) :
    pageUnits s index entry k * (entry.guaranteePages.toNat -
      cohortSum s index fun m => m.guaranteePages.toNat) ≤ s.guaranteeFree[index].units k := by
  have hwhole : pageUnits s index entry k * entry.guaranteePages.toNat ≤
      s.guaranteeTotal[index].units k := by
    rw [pageUnits_eq hlt]
    exact Nat.div_mul_le_self _ _
  have hdrawn : cohortSum s index (fun m => m.guaranteed.units k) ≤
      pageUnits s index entry k * cohortSum s index fun m => m.guaranteePages.toNat := by
    apply tableSum_le_mul
    intro position hposition
    by_cases hmember : s.policy.entitlementOf position = some index
    · simp only [cohortWeight, hmember, if_true]
      exact h.members position hposition index entry hmember hentry k
    · simp [cohortWeight, hmember]
  have hentitled := hsound.balanced.entitled index hlt k
  have hredeemed := hsound.limited.redeemed index entry hentry
  simp only [cohortPending, hnone, Nat.add_zero] at hentitled hredeemed
  rw [Nat.mul_sub]
  omega

/-- Without a witness, a plan that fits the shares of its pages is drawn from the
guarantee alone. -/
theorem redeem_eq_resources (hlt : index < maxEntitlements) {redeemed : UInt64}
    (hwitness : plan.guaranteed = zero)
    (hpages : pages.toNat ≤ entry.guaranteePages.toNat - redeemed.toNat)
    (hshare : ∀ k, plan.resources.units k ≤ pageUnits s index entry k * pages.toNat)
    (hfree : ∀ k, plan.resources.units k ≤ s.guaranteeFree[index].units k) :
    s.redeem index entry redeemed pages plan = .ok (pages, plan.resources) := by
  have hmin : wordMin pages (saturatingSub entry.guaranteePages redeemed) = pages := by
    apply UInt64.toNat_inj.mp
    rw [toNat_wordMin, toNat_saturatingSub]
    omega
  have hall : (plan.resources.minimum (s.guaranteeTotal[index].pageShare pages
      entry.guaranteePages)).minimum s.guaranteeFree[index] = plan.resources := by
    apply ext_units
    intro k
    have hshare := hshare k
    have hfree := hfree k
    rw [pageUnits_eq hlt] at hshare
    rw [units_minimum, units_minimum, units_pageShare _ (by omega)]
    omega
  simp [Ledger.redeem, hwitness, hmin, hlt, Outcome.unwrap, hall, bind, Except.bind, pure,
    Except.pure]

/-- A transaction within every limit whose plan fits the shares of its pages opens without the
common pool. -/
theorem begin_isolated (hsound : Sound available s)
    (henveloped : Enveloped s) (hnone : s.pending = none) {token : Incarnation} {m : Member}
    (hm : s.member token = .ok m) (hclear : m.quarantined = false)
    (hindex : s.policy.entitlementOf token.subject = some index) (hlt : index < maxEntitlements)
    (hentry : s.policy.entitlement index = some entry) {limit : UInt64}
    (hlimit : s.pageLimit token = .ok limit) (hwitness : plan.guaranteed = zero)
    (hredeemable : pages.toNat ≤ entry.guaranteePages.toNat -
      cohortSum s index fun m => m.guaranteePages.toNat)
    (hsubject : charged m + pages.toNat ≤ limit.toNat)
    (hcohort : cohortSum s index charged + pages.toNat ≤ (entitlementLimit s entry).toNat)
    (hpayload : pages.toNat * pageBytes.toNat ≤ plan.resources.bytes.toNat)
    (hshare : ∀ k, plan.resources.units k ≤ pageUnits s index entry k * pages.toNat) :
    ∃ s', Ledger.begin token pages plan s = (.ok (), s') ∧ s'.free = s.free := by
  obtain ⟨_, -, hidentity⟩ := (Policy.entitlementOf_eq_some_iff _ _ _).mp hindex
  obtain ⟨held, hheld, hheldNat⟩ := exists_checkedAdd
    (show m.pages.toNat + m.heldPayloadPages.toNat < 2 ^ 64 by
      have := limit.toNat_lt
      simp only [charged] at hsubject
      omega)
  obtain ⟨requested, hrequested, hrequestedNat⟩ := exists_checkedAdd
    (show held.toNat + pages.toNat < 2 ^ 64 by
      have := limit.toNat_lt
      simp only [charged] at hsubject
      omega)
  obtain ⟨total, htotal⟩ := exists_toNat_eq
    (show pages.toNat + cohortSum s index charged < 2 ^ 64 by
      have := (entitlementLimit s entry).toNat_lt
      omega)
  have hredeemedLe := hsound.limited.redeemed index entry hentry
  obtain ⟨redeemed, hredeemed⟩ := exists_toNat_eq
    (show cohortSum s index (fun m => m.guaranteePages.toNat) < 2 ^ 64 by
      have := entry.guaranteePages.toNat_lt
      omega)
  have hloop := (foldlM_addCohortMember_range hsound.balanced.policy hidentity hentry pages total
    redeemed).mpr ⟨htotal, hredeemed⟩
  obtain ⟨payload, hpayloadWord, hpayloadNat⟩ := exists_checkedMul
    (show pages.toNat * pageBytes.toNat < 2 ^ 64 by
      have := plan.resources.bytes.toNat_lt
      omega)
  have hfreeRow : ∀ k, plan.resources.units k ≤ s.guaranteeFree[index].units k := by
    intro k
    calc
      plan.resources.units k ≤ pageUnits s index entry k * pages.toNat := hshare k
      _ ≤ pageUnits s index entry k * (entry.guaranteePages.toNat -
          cohortSum s index fun m => m.guaranteePages.toNat) := Nat.mul_le_mul_left _ hredeemable
      _ ≤ s.guaranteeFree[index].units k :=
          henveloped.share_le_free hsound hnone hlt hentry k
  have hredeem := redeem_eq_resources hlt hwitness (hredeemed ▸ hredeemable) hshare hfreeRow
  -- Everything is drawn from the guarantee, so the elastic part is nothing.
  have helastic : plan.resources.subtract plan.resources = .ok zero := by
    rw [subtract_eq_ok_iff]
    simp
  have hfree : s.free.subtract zero = .ok s.free := by
    rw [subtract_eq_ok_iff]
    simp
  obtain ⟨guaranteeFree, hguaranteeFree, -⟩ := exists_subtract hfreeRow
  obtain ⟨hposition, rfl, -, -⟩ := (member_eq_ok_iff s token m).mp hm
  obtain ⟨_, hguaranteed, -⟩ := @exists_checkedAdd s.members[token.subject].guaranteed
    plan.resources fun k => by
      have hentitled := hsound.balanced.entitled index hlt k
      have hbound := s.guaranteeTotal[index].units_lt k
      have hrow := le_cohortSum hposition hindex fun m => m.guaranteed.units k
      have hfree := hfreeRow k
      omega
  obtain ⟨_, helasticSum, -⟩ := @exists_checkedAdd s.members[token.subject].elastic
    zero fun k => by
      have hbound := s.members[token.subject].elastic.units_lt k
      simpa using hbound
  refine ⟨_, (begin_ok_iff token pages plan () s _).mpr ⟨by simp [hnone], _, hm, hclear, index,
    (entitlement_eq_ok_iff s token index).mpr hindex, entry, hentry, held, hheld, requested,
    hrequested, limit, hlimit, total, redeemed, hloop, ?_, payload, hpayloadWord, ?_, ?_, pages,
    plan.resources, hredeem, zero, helastic, s.free, hfree, s.guaranteeFree[index],
    Vector.getElem?_eq_getElem hlt, guaranteeFree, hguaranteeFree, ⟨_, hguaranteed⟩,
    ⟨_, helasticSum⟩, hlt, rfl⟩, rfl⟩
  · simp only [Bool.or_eq_false_iff, decide_eq_false_iff_not, UInt64.not_lt, UInt64.le_iff_toNat_le]
    simp only [charged] at hsubject
    simp only [entitlementLimit] at hcohort
    exact ⟨by omega, by omega⟩
  · simp only [decide_eq_false_iff_not, UInt64.not_lt, UInt64.le_iff_toNat_le]
    omega
  · simp only [Bool.and_eq_false_iff, beq_eq_false_iff_ne, bne_eq_false_iff_eq]
    by_cases hzero : pages = 0
    · right
      rw [eq_zero_iff]
      intro k
      have hnothing := hshare k
      rw [hzero] at hnothing
      simpa using hnothing
    · exact .inl hzero

theorem after_enveloped {ledger : Ledger}
    (h : Sound available ledger ∧ Enveloped ledger) (operations : List Operation)
    (hfree : ∀ operation ∈ operations, WitnessFree operation) :
    Sound available (ledger.after operations) ∧ Enveloped (ledger.after operations) := by
  refine run_invariant_of Ledger.step (fun s => Sound available s ∧ Enveloped s) WitnessFree ?_
    ledger operations h hfree
  rintro s operation ⟨hsound, henveloped⟩ hwitness
  refine ⟨step_sound s operation hsound, ?_⟩
  rcases step_change s hsound.balanced.policy operation with hsame | hchange
  · rw [hsame]
    exact henveloped
  · exact Change.enveloped henveloped hwitness hchange

/-- In every state that witness-free calls reach, a live member without
quarantine can open any transaction of redeemable pages within its limits whose
plan fits the per-page shares, and the common pool is left alone. -/
theorem guarantee_isolated {bytes : List UInt8} {policy : Policy}
    (hdecode : Policy.decode bytes = .ok policy) {instances : List Instance}
    {available : Resources} {guarantees : List Resources} {ledger : Ledger}
    (hadmission : Ledger.admission policy instances available guarantees = .ok ledger)
    {operations : List Operation} (hfree : ∀ operation ∈ operations, WitnessFree operation)
    {s : Ledger} (hs : ledger.after operations = s) (hidle : s.pending = none)
    {token : Incarnation} {m : Member} (hm : s.member token = .ok m)
    (hclear : m.quarantined = false) :
    ∃ index entry limit redeemable, s.entitlement token = .ok index ∧
      s.policy.entitlement index = some entry ∧ s.pageLimit token = .ok limit ∧
      s.redeemableGuarantee token = .ok redeemable ∧
      ∃ h : index < maxEntitlements, ∀ pages plan,
        plan.guaranteed = Resources.zero → pages ≤ redeemable →
        m.pages.toNat + m.heldPayloadPages.toNat + pages.toNat ≤ limit.toNat →
        cohortSum s index (fun m => m.pages.toNat + m.heldPayloadPages.toNat) + pages.toNat ≤
          (entitlementLimit s entry).toNat →
        pages.toNat * pageBytes.toNat ≤ plan.resources.bytes.toNat →
        (∀ k, plan.resources.units k ≤
          pages.toNat * (s.guaranteeTotal[index].units k / entry.guaranteePages.toNat)) →
        ∃ s', Ledger.begin token pages plan s = (.ok (), s') ∧ s'.free = s.free := by
  have hadmitted : Sound available ledger :=
    Reachable.sound ⟨bytes, policy, instances, guarantees, ledger, [], hdecode, hadmission, rfl⟩
  have hfresh : Enveloped ledger := by
    obtain ⟨_, _, _, -, -, rfl⟩ := admission_eq_ok hadmission
    refine ⟨fun position hlt index entry _ _ k => ?_, fun q index entry hq => nomatch hq⟩
    simp [Member.default]
  obtain ⟨hsound, henveloped⟩ := after_enveloped ⟨hadmitted, hfresh⟩ operations hfree
  rw [hs] at hsound henveloped
  obtain ⟨subject, index, entry, hsubject, hindex, hentry, hlt⟩ := hsound.lookup hm
  have hredeemable : ∃ redeemable, s.redeemableGuarantee token = .ok redeemable := by
    simp [Ledger.redeemableGuarantee, hm, (entitlement_eq_ok_iff s token index).mpr hindex,
      hentry, Outcome.okOr, bind, Except.bind, pure, Except.pure]
  obtain ⟨redeemable, hredeemable⟩ := hredeemable
  have hredeemableNat := redeemableGuarantee_eq_ok hsound.balanced.policy hredeemable hindex hentry
    (by
      have hredeemed := hsound.limited.redeemed index entry hentry
      have hbound := entry.guaranteePages.toNat_lt
      omega)
  have hlimit := (pageLimit_eq_ok_iff s token _).mpr ⟨subject, hsubject, rfl⟩
  refine ⟨index, entry, subjectLimit s subject, redeemable,
    (entitlement_eq_ok_iff s token index).mpr hindex, hentry, hlimit, hredeemable, hlt, ?_⟩
  intro pages plan hwitness hpages hpageLimit hcohort hpayload hshare
  refine begin_isolated hsound henveloped hidle hm hclear hindex hlt hentry hlimit hwitness
    ?_ hpageLimit hcohort hpayload ?_
  · rw [← hredeemableNat]
    exact UInt64.le_iff_toNat_le.mp hpages
  · intro k
    rw [pageUnits_eq hlt, mul_comm]
    exact hshare k

/-- The root reserved the whole common pool, and the subject was bound again after
a failed rollback and a retirement. -/
def drainedLedger : Ledger :=
  { sampleLedger with
    free := Resources.zero
    rootPending := some ⟨253952, 62, 62, 63, 62⟩
    members := sampleLedger.members.set 0 { Member.default with epoch := 2, live := true } }

theorem drainedLedger_after :
    sampleLedger.after [.bind sampleIdentity, .reserveRoot ⟨253952, 62, 62, 63, 62⟩,
      .begin ⟨0, 1⟩ 1 ⟨⟨4096, 1, 1, 0, 1⟩, zero, 0⟩,
      .abort ⟨0, 1⟩ zero false, .retire ⟨0, 1⟩ true, .bind sampleIdentity] =
      drainedLedger := by
  decide +kernel

theorem guarantee_isolated_drained :
    drainedLedger.free = Resources.zero ∧
    ∃ s', Ledger.begin ⟨0, 2⟩ 2 ⟨⟨8192, 2, 2, 0, 2⟩, Resources.zero, 0⟩ drainedLedger =
      (.ok (), s') ∧ s'.free = drainedLedger.free := by
  have htotal : drainedLedger.guaranteeTotal[0] = sampleGuarantee := by decide +kernel
  obtain ⟨index, entry, limit, redeemable, hindex, hentry, hlimit, hredeemable, hlt, hbegin⟩ :=
    guarantee_isolated sampleBytes_decode sampleLedger_admission
      (by simp [WitnessFree]) drainedLedger_after rfl
      (show drainedLedger.member ⟨0, 2⟩ = .ok { Member.default with epoch := 2, live := true } by
        decide +kernel) rfl
  obtain rfl := ok.inj
    ((show drainedLedger.entitlement ⟨0, 2⟩ = .ok 0 by decide +kernel).symm.trans hindex)
  obtain rfl := some.inj
    ((show drainedLedger.policy.entitlement 0 =
      some ⟨sampleIdentity, zeros 32, 2, 8, fixed, 0⟩ by decide +kernel).symm.trans hentry)
  obtain rfl := ok.inj
    ((show drainedLedger.pageLimit ⟨0, 2⟩ = .ok 8 by decide +kernel).symm.trans hlimit)
  obtain rfl := ok.inj
    ((show drainedLedger.redeemableGuarantee ⟨0, 2⟩ = .ok 2 by decide +kernel).symm.trans
      hredeemable)
  refine ⟨rfl, hbegin 2 _ rfl (by decide) (by decide) (by decide +kernel) (by decide) ?_⟩
  intro k
  rw [htotal]
  cases k <;> decide

end SlimeOs.PrivateMemoryIsolation
