import SlimeOs.PrivateMemoryConservation

/-!
Page limits and guarantee redemption. `begin` is the only call that compares
pages with a limit, while commits, aborts and retirements move the pages later.
Seen through what members hold and what is pending, a call does one of four
things, and none but `begin` ever raises a total.
-/

namespace SlimeOs.PrivateMemoryLimits

open Option ByteLayout FallibleCall PrivateMemoryAccounts PrivateMemoryConservation
  PrivateMemoryLedger Member PrivateMemoryLedgerCalls PrivateMemoryPlan PrivateMemoryPolicy
  PrivateMemoryResources TableSum

/-- What the admission fixed and no call rewrites. -/
structure SameTerms (s s' : Ledger) : Prop where
  policy : s'.policy = s.policy
  poolPages : s'.poolPages = s.poolPages
  guaranteeTotal : s'.guaranteeTotal = s.guaranteeTotal

/-- The member's pages and its share of the guarantee are as before. -/
structure SameHoldings (m m' : Member) : Prop where
  charged : Member.charged m' = Member.charged m
  guaranteePages : m'.guaranteePages = m.guaranteePages
  guaranteed : m'.guaranteed = m.guaranteed

/-- A change, seen through the members' holdings and the pending transaction. -/
inductive Footprint (s : Ledger) : Operation → Ledger → Prop where
  | unmoved {operation : Operation} {s' : Ledger} (hpending : s'.pending = s.pending)
      (hmembers : ∀ position (h : position < maxSubjects),
        SameHoldings s.members[position] s'.members[position]) :
      Footprint s operation s'
  | opened {plan : Plan} {s' : Ledger} {q : Pending} {index : Nat} {entry : Entitlement}
      {subject : Subject} (hnone : s.pending = none) (hpending : s'.pending = some q)
      (hmembers : s'.members = s.members)
      (hlt : q.member.subject < maxSubjects) (hlimit : index < maxEntitlements)
      (hindex : s.policy.entitlementOf q.member.subject = some index)
      (hentry : s.policy.entitlement index = some entry)
      (hsubject : s.policy.subject q.member.subject = some subject)
      (hsubjectLimit : Member.charged s.members[q.member.subject] + q.pages.toNat ≤
        (subjectLimit s subject).toNat)
      (hentitlementLimit : cohortSum s index Member.charged + q.pages.toNat ≤
        (entitlementLimit s entry).toNat)
      (hredeemed : q.guaranteePages.toNat ≤ entry.guaranteePages.toNat -
        cohortSum s index fun m => m.guaranteePages.toNat)
      (hshare : plan.guaranteed = Resources.zero → ∀ k, q.guaranteed.units k ≤
        s.guaranteeTotal[index].units k / entry.guaranteePages.toNat * q.guaranteePages.toNat) :
      Footprint s (.begin q.member q.pages plan) s'
  | settled {operation : Operation} {s' : Ledger} {q : Pending} {m : Member}
      (hpending : s.pending = some q) (hnone : s'.pending = none)
      (hlt : q.member.subject < maxSubjects)
      (hmembers : s'.members = s.members.set q.member.subject m)
      (hcharged : Member.charged m ≤ Member.charged s.members[q.member.subject] + q.pages.toNat)
      (hredeemed :
        (m.guaranteePages.toNat = s.members[q.member.subject].guaranteePages.toNat ∧
          ∀ k, m.guaranteed.units k = s.members[q.member.subject].guaranteed.units k) ∨
        (m.guaranteePages.toNat =
            s.members[q.member.subject].guaranteePages.toNat + q.guaranteePages.toNat ∧
          ∀ k, m.guaranteed.units k =
            s.members[q.member.subject].guaranteed.units k + q.guaranteed.units k)) :
      Footprint s operation s'
  | released {operation : Operation} {s' : Ledger} {position : Nat} {epoch : UInt64}
      (hlt : position < maxSubjects) (hpending : s'.pending = s.pending)
      (hmembers : s'.members = s.members.set position { Member.default with epoch := epoch }) :
      Footprint s operation s'

variable {amount : Member → Nat} {available : Resources} {guarantees : List Resources}
  {instances : List Instance} {policy : Policy} {ledger : Ledger}

section Footprints

variable {s s' : Ledger} {operation : Operation}

theorem Change.sameTerms (hchange : Change s operation s') : SameTerms s s' := by
  cases hchange <;> exact ⟨rfl, rfl, rfl⟩

theorem sameHoldings_refl (m : Member) : SameHoldings m m := ⟨rfl, rfl, rfl⟩

theorem sameHoldings_set {members : Vector Member maxSubjects} {written : Nat} {m : Member}
    (hlt : written < maxSubjects) (hm : SameHoldings members[written] m) (position : Nat)
    (h : position < maxSubjects) :
    SameHoldings members[position] (members.set written m)[position] := by
  rw [Vector.getElem_set]
  split
  next heq =>
    subst heq
    exact hm
  · exact sameHoldings_refl _

theorem Change.footprint (hchange : Change s operation s') : Footprint s operation s' := by
  cases hchange with
  | bound hlt _ _ _ => exact .unmoved rfl (sameHoldings_set hlt ⟨rfl, rfl, rfl⟩)
  | quarantined hlt => exact .unmoved rfl (sameHoldings_set hlt ⟨rfl, rfl, rfl⟩)
  | retained hlt _ => exact .unmoved rfl (sameHoldings_set hlt ⟨rfl, rfl, rfl⟩)
  | rootReserved _ _ => exact .unmoved rfl fun _ _ => sameHoldings_refl _
  | rootSettled _ _ _ => exact .unmoved rfl fun _ _ => sameHoldings_refl _
  | reconciled _ _ => exact .unmoved rfl fun _ _ => sameHoldings_refl _
  | begun hnone hlt _ _ hlimit hindex hentry hsubject hsubjectLimit hentitlementLimit hredeemed
      hshare _ _ =>
      exact .opened hnone rfl rfl hlt hlimit hindex hentry hsubject hsubjectLimit
        hentitlementLimit hredeemed hshare
  | committed hpending hlt hguaranteed _ hpages hguaranteePages =>
    refine .settled hpending rfl hlt rfl ?_ (.inr ⟨hguaranteePages, hguaranteed⟩)
    simp only [charged]
    omega
  | aborted clean hpending hlt _ _ hguaranteed _ _ _ hheld hguaranteePages =>
    refine .settled hpending rfl hlt rfl ?_ ?_
    · simp only [charged]
      split at hheld <;> omega
    · rcases clean with _ | _
      · exact .inr ⟨hguaranteePages, hguaranteed⟩
      · exact .inl ⟨hguaranteePages, hguaranteed⟩
  | retired hlt _ _ _ _ _ _ _ => exact .released hlt rfl rfl

theorem cohortSum_congr (hpolicy : s'.policy = s.policy)
    (hmembers : ∀ position (h : position < maxSubjects),
      amount s'.members[position] = amount s.members[position]) (index : Nat) :
    cohortSum s' index amount = cohortSum s index amount := by
  unfold cohortSum
  rw [hpolicy]
  apply tableSum_congr
  intro position hlt
  simp only [cohortWeight, hmembers position hlt]

theorem cohortSum_set {amount : Member → Nat} {position : Nat} {m : Member}
    (hpolicy : s'.policy = s.policy) (hlt : position < maxSubjects)
    (hmembers : s'.members = s.members.set position m) (index : Nat) :
    cohortSum s' index amount + cohortWeight s.policy index amount position s.members[position] =
      cohortSum s index amount + cohortWeight s.policy index amount position m := by
  unfold cohortSum
  rw [hpolicy, hmembers, tableSum_set, tableSum_eq_othersSum_add _ s.members hlt]
  omega

end Footprints

/-- What the pending transaction adds to the pages of the subject at `position`. -/
def subjectPending (s : Ledger) (position : Nat) : Nat :=
  match s.pending with
  | some q => if q.member.subject = position then q.pages.toNat else 0
  | none => 0

structure Limited (s : Ledger) : Prop where
  subjects : ∀ position (h : position < maxSubjects) subject,
    s.policy.subject position = some subject →
      Member.charged s.members[position] + subjectPending s position ≤
        (subjectLimit s subject).toNat
  cohorts : ∀ index entry, s.policy.entitlement index = some entry →
    cohortSum s index Member.charged + cohortPending s index (fun q => q.pages.toNat) ≤
      (entitlementLimit s entry).toNat
  redeemed : ∀ index entry, s.policy.entitlement index = some entry →
    cohortSum s index (fun m => m.guaranteePages.toNat) +
      cohortPending s index (fun q => q.guaranteePages.toNat) ≤ entry.guaranteePages.toNat

section Steps

variable {s s' : Ledger} {operation : Operation} {q : Pending}

theorem limited_subjects (hterms : SameTerms s s') (hfootprint : Footprint s operation s')
    (h : Limited s) (position : Nat) (hlt : position < maxSubjects) (subject : Subject)
    (hsubject : s'.policy.subject position = some subject) :
    Member.charged s'.members[position] + subjectPending s' position ≤
      (subjectLimit s' subject).toNat := by
  rw [hterms.policy] at hsubject
  have hlimit : subjectLimit s' subject = subjectLimit s subject := by
    rw [subjectLimit, subjectLimit, hterms.poolPages]
  have hbefore := h.subjects position hlt subject hsubject
  rw [hlimit]
  cases hfootprint with
  | unmoved hpending hmembers =>
    rw [(hmembers position hlt).charged]
    simpa only [subjectPending, hpending] using hbefore
  | @opened _ _ q _ _ owner hnone hpending hmembers _ _ _ _ howner hsubjectLimit _ _ _ =>
    simp only [subjectPending, hnone] at hbefore
    simp only [subjectPending, hpending, hmembers]
    split
    next hown =>
      subst hown
      obtain rfl := mem_unique howner hsubject
      exact hsubjectLimit
    · exact hbefore
  | @settled _ _ q m hpending hnone howner hmembers hcharged _ =>
    simp only [subjectPending, hpending] at hbefore
    simp only [subjectPending, hnone, hmembers, Vector.getElem_set]
    split
    next hown =>
      subst hown
      simp only [if_true] at hbefore
      omega
    next hother =>
      simpa only [hother, if_false] using hbefore
  | released _ hpending hmembers =>
    simp only [subjectPending] at hbefore
    simp only [subjectPending, hpending, hmembers, Vector.getElem_set]
    split
    · simp only [Member.charged, Member.default, UInt64.toNat_zero]
      omega
    · exact hbefore

/-- A cohort total that only transactions raise: what holds for the pages also
holds for the guarantee pages. -/
theorem cohort_footprint {due : Pending → Nat} {bound : Nat}
    (hterms : SameTerms s s') (hfootprint : Footprint s operation s') (index : Nat)
    (hsame : ∀ m m', SameHoldings m m' → amount m' = amount m)
    (hzero : ∀ epoch, amount { default with epoch := epoch } = 0)
    (hopened : ∀ q, s.policy.entitlementOf q.member.subject = some index →
      s.pending = none → s'.pending = some q → cohortSum s index amount + due q ≤ bound)
    (hsettled : ∀ q (h : q.member.subject < maxSubjects), s.pending = some q → s'.pending = none →
      amount s'.members[q.member.subject] ≤ amount s.members[q.member.subject] + due q)
    (hbefore : cohortSum s index amount + cohortPending s index due ≤ bound) :
    cohortSum s' index amount + cohortPending s' index due ≤ bound := by
  cases hfootprint with
  | unmoved hpending hmembers =>
    rw [cohortSum_congr hterms.policy (fun p h => hsame _ _ (hmembers p h))]
    simpa only [cohortPending, hpending, hterms.policy] using hbefore
  | @opened _ _ q _ _ _ hnone hpending hmembers _ _ _ _ _ _ _ _ _ =>
    rw [cohortSum_congr hterms.policy (fun p h => by rw [hmembers])]
    simp only [cohortPending, hpending, hterms.policy]
    split
    next hmember =>
      exact hopened q hmember hnone hpending
    · simpa only [cohortPending, hnone] using hbefore
  | @settled _ _ q m hpending hnone hlt hmembers _ _ =>
    have hset := @cohortSum_set s s' amount q.member.subject m hterms.policy hlt hmembers index
    have hdue := hsettled q hlt hpending hnone
    simp only [hmembers, Vector.getElem_set_self] at hdue
    simp only [cohortPending, hpending] at hbefore
    simp only [cohortPending, hnone]
    simp only [cohortWeight] at hset
    split at hset
    next hmember =>
      simp only [hmember, if_true] at hbefore
      omega
    next hmember =>
      omega
  | @released _ _ position epoch hlt hpending hmembers =>
    have hset := @cohortSum_set s s' amount position _ hterms.policy hlt hmembers index
    have hnew : cohortWeight s.policy index amount position
        { default with epoch := epoch } = 0 := by
      simp [cohortWeight, hzero]
    simp only [cohortPending] at hbefore
    simp only [cohortPending, hpending, hterms.policy]
    omega

/-- A transaction just opened passed the limits of its entitlement. -/
theorem Footprint.of_opened {index : Nat} {entry : Entitlement}
    (hfootprint : Footprint s operation s') (hnone : s.pending = none) (hopen : s'.pending = some q)
    (hindex : s.policy.entitlementOf q.member.subject = some index)
    (hentry : s.policy.entitlement index = some entry) :
    cohortSum s index charged + q.pages.toNat ≤ (entitlementLimit s entry).toNat ∧
      q.guaranteePages.toNat ≤ entry.guaranteePages.toNat -
        cohortSum s index fun m => m.guaranteePages.toNat := by
  cases hfootprint with
  | unmoved hpending _ => simp [hpending, hnone] at hopen
  | @opened _ _ q' index' entry' _ _ hpending _ _ _ hindex' hentry' _ _ hpages hredeemed _ =>
    obtain rfl := mem_unique hpending hopen
    obtain rfl := mem_unique hindex' hindex
    obtain rfl := mem_unique hentry' hentry
    exact ⟨hpages, hredeemed⟩
  | settled hpending _ _ _ _ _ => simp [hpending] at hnone
  | released _ hpending _ => simp [hpending, hnone] at hopen

/-- A transaction just settled left its owner at most its own pages and guarantee pages. -/
theorem Footprint.of_settled (hfootprint : Footprint s operation s')
    (hpending : s.pending = some q) (hnone : s'.pending = none)
    (hlt : q.member.subject < maxSubjects) :
    charged s'.members[q.member.subject] ≤
        charged s.members[q.member.subject] + q.pages.toNat ∧
      s'.members[q.member.subject].guaranteePages.toNat ≤
        s.members[q.member.subject].guaranteePages.toNat + q.guaranteePages.toNat := by
  cases hfootprint with
  | unmoved hsame _ => simp [hsame, hpending] at hnone
  | opened hnone' _ _ _ _ _ _ _ _ _ _ _ => simp [hpending] at hnone'
  | @settled _ _ q' _ hpending' _ _ hmembers hcharged hredeemed =>
    obtain rfl := mem_unique hpending' hpending
    simp only [hmembers, Vector.getElem_set_self]
    exact ⟨hcharged, by omega⟩
  | released _ hsame _ => simp [hsame, hpending] at hnone

theorem Change.limited (h : Limited s) (hchange : Change s operation s') : Limited s' := by
  have hterms := Change.sameTerms hchange
  have hfootprint := Change.footprint hchange
  refine ⟨limited_subjects hterms hfootprint h, ?_, ?_⟩
  · intro index entry hentry
    rw [hterms.policy] at hentry
    have hlimit : entitlementLimit s' entry = entitlementLimit s entry := by
      rw [entitlementLimit, entitlementLimit, hterms.poolPages]
    rw [hlimit]
    refine cohort_footprint hterms hfootprint index (fun _ _ hsame => hsame.charged)
      (fun _ => rfl) ?_ ?_ (h.cohorts index entry hentry)
    · intro q hindex hnone hopen
      exact (hfootprint.of_opened hnone hopen hindex hentry).1
    · intro q hlt hpending hnone
      exact (hfootprint.of_settled hpending hnone hlt).1
  · intro index entry hentry
    rw [hterms.policy] at hentry
    have hbefore := h.redeemed index entry hentry
    refine cohort_footprint hterms hfootprint index
      (fun _ _ hsame => by rw [hsame.guaranteePages]) (fun _ => rfl) ?_ ?_ hbefore
    · intro q hindex hnone hopen
      have hredeemed := (hfootprint.of_opened hnone hopen hindex hentry).2
      omega
    · intro q hlt hpending hnone
      exact (hfootprint.of_settled hpending hnone hlt).2

end Steps

theorem admission_limited
    (h : Ledger.admission policy instances available guarantees = .ok ledger) : Limited ledger := by
  obtain ⟨_, _, _, -, -, rfl⟩ := admission_eq_ok h
  refine ⟨fun position hlt subject _ => ?_, fun index entry _ => ?_, fun index entry _ => ?_⟩
  · simp [subjectPending, Member.charged, Member.default]
  · rw [cohortSum_fresh rfl index (by rfl)]
    simp [cohortPending]
  · rw [cohortSum_fresh rfl index (by rfl)]
    simp [cohortPending]

theorem admission_kept
    (h : Ledger.admission policy instances available guarantees = .ok ledger) : Kept ledger := by
  obtain ⟨_, _, _, -, -, rfl⟩ := admission_eq_ok h
  refine ⟨fun position hlt hlive => ?_, fun q hq => nomatch hq⟩
  simp [Member.default] at hlive

/-- Everything that holds of a ledger between calls. -/
structure Sound (available : Resources) (s : Ledger) : Prop where
  balanced : Balanced available s
  kept : Kept s
  limited : Limited s

theorem step_sound (s : Ledger) (operation : Operation)
    (h : Sound available s) : Sound available (s.step operation) := by
  rcases step_change s h.balanced.policy operation with hsame | hchange
  · rw [hsame]
    exact h
  · exact ⟨Change.balanced h.balanced hchange, Change.kept h.kept hchange,
      Change.limited h.limited hchange⟩

def Reachable (available : Resources) (s : Ledger) : Prop :=
  ∃ bytes policy instances guarantees ledger operations, Policy.decode bytes = .ok policy ∧
    Ledger.admission policy instances available guarantees = .ok ledger ∧
    ledger.after operations = s

theorem Reachable.sound {s : Ledger} (h : Reachable available s) : Sound available s := by
  obtain ⟨bytes, policy, instances, guarantees, ledger, operations, hdecode, hadmission, rfl⟩ := h
  apply run_invariant Ledger.step (Sound available) step_sound ledger operations
  exact ⟨admission_balanced (Policy.decode_wellFormed hdecode) hadmission,
    admission_kept hadmission, admission_limited hadmission⟩

theorem Sound.lookup {s : Ledger} (h : Sound available s)
    {token : Incarnation} {m : Member} (hm : s.member token = .ok m) :
    ∃ subject index entry, s.policy.subject token.subject = some subject ∧
      s.policy.entitlementOf token.subject = some index ∧
      s.policy.entitlement index = some entry ∧ index < maxEntitlements := by
  obtain ⟨hlt, rfl, hlive, -⟩ := (member_eq_ok_iff s token m).mp hm
  have hpolicy := h.balanced.policy
  have hcount := h.kept.live_subject token.subject hlt hlive
  obtain ⟨subject, index, hsubject, hindex⟩ := hpolicy.subject_entitled token.subject hcount
  have hindexCount := Policy.entitlementIndex_lt hindex
  obtain ⟨entry, hentry⟩ := hpolicy.entitlement_isSome index hindexCount
  exact ⟨subject, index, entry, hsubject,
    (Policy.entitlementOf_eq_some_iff _ _ _).mpr ⟨subject, hsubject, hindex⟩, hentry,
    lt_of_lt_of_le hindexCount hpolicy.entitlementCount_le⟩

def ownPending (s : Ledger) (token : Incarnation) : Nat :=
  match s.pending with
  | some q => if q.member = token then q.pages.toNat else 0
  | none => 0

theorem ownPending_le (s : Ledger) (token : Incarnation) :
    ownPending s token ≤ subjectPending s token.subject := by
  unfold ownPending subjectPending
  split
  next q _ =>
    by_cases hown : q.member = token
    · simp [hown]
    · simp [hown]
  · exact le_refl 0

/-- In every reachable ledger each live member stays within its own limit, each
entitlement within its limit, and no entitlement redeems more guarantee pages
than it declares, the open transaction included. -/
theorem reachable_limits {available : Resources} {s : Ledger} (h : Reachable available s) :
    (∀ token m, s.member token = .ok m → ∃ limit, s.pageLimit token = .ok limit ∧
      m.pages.toNat + m.heldPayloadPages.toNat + ownPending s token ≤ limit.toNat) ∧
    (∀ index entry, s.policy.entitlement index = some entry →
      cohortSum s index (fun m => m.pages.toNat + m.heldPayloadPages.toNat) +
        cohortPending s index (fun q => q.pages.toNat) ≤ (entitlementLimit s entry).toNat) ∧
    ∀ index entry, s.policy.entitlement index = some entry →
      cohortSum s index (fun m => m.guaranteePages.toNat) +
        cohortPending s index (fun q => q.guaranteePages.toNat) ≤ entry.guaranteePages.toNat := by
  have hsound := h.sound
  refine ⟨?_, hsound.limited.cohorts, hsound.limited.redeemed⟩
  intro token m hm
  obtain ⟨subject, _, _, hsubject, -, -, -⟩ := hsound.lookup hm
  obtain ⟨hlt, rfl, -, -⟩ := (member_eq_ok_iff s token m).mp hm
  refine ⟨subjectLimit s subject, (pageLimit_eq_ok_iff s token _).mpr ⟨subject, hsubject, rfl⟩, ?_⟩
  have hown := ownPending_le s token
  have hlimit := hsound.limited.subjects token.subject hlt subject hsubject
  simp only [Member.charged] at hlimit
  omega

theorem sampleLedger_reachable (operations : List Operation) :
    Reachable sampleAvailable (sampleLedger.after operations) :=
  ⟨sampleBytes, samplePolicy, [⟨sampleIdentity, none⟩], [sampleGuarantee], sampleLedger,
    operations, sampleBytes_decode, sampleLedger_admission, rfl⟩

theorem reachable_limits_sample :
    cohortSum (sampleLedger.after [.bind sampleIdentity,
        .begin ⟨0, 1⟩ 3 ⟨⟨16384, 4, 4, 1, 1⟩, Resources.zero, 0⟩, .commit ⟨0, 1⟩]) 0
      (fun m => m.pages.toNat + m.heldPayloadPages.toNat) ≤ 8 := by
  have hentry : (sampleLedger.after [.bind sampleIdentity,
      .begin ⟨0, 1⟩ 3 ⟨⟨16384, 4, 4, 1, 1⟩, Resources.zero, 0⟩,
      .commit ⟨0, 1⟩]).policy.entitlement 0 =
        some ⟨sampleIdentity, zeros 32, 2, 8, fixed, 0⟩ := by
    decide +kernel
  exact Nat.le_trans (Nat.le_add_right _ _)
    ((reachable_limits (sampleLedger_reachable _)).2.1 0 _ hentry)

end SlimeOs.PrivateMemoryLimits
