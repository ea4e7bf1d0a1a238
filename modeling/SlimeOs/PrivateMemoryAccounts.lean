import SlimeOs.PrivateMemoryLedgerCalls
import SlimeOs.TableSum

/-!
The books of the private-memory ledger. What an entitlement's members hold
together is a sum over the member table; the loops of `begin` and
`redeemable_guarantee` compute such sums. `Change` lists everything one call can
do to the books, in units, and `step_change` says that no call does anything
else. Every invariant of the ledger is argued from it.
-/

namespace SlimeOs.PrivateMemoryAccounts

open CheckedWord FallibleCall FallibleCall.Outcome List PrivateMemoryLedger PrivateMemoryLedgerCalls
  Option PrivateMemoryPlan PrivateMemoryPolicy PrivateMemoryResources TableSum Resources

def subjectLimit (s : Ledger) (subject : Subject) : UInt64 :=
  if subject.maximumMode == fixed then subject.maximumPages else s.poolPages

def entitlementLimit (s : Ledger) (entitlement : Entitlement) : UInt64 :=
  if entitlement.maximumMode == fixed then entitlement.maximumPages else s.poolPages

def cohortWeight (policy : Policy) (index : Nat) (amount : Member → Nat) (position : Nat)
    (m : Member) : Nat :=
  if policy.entitlementOf position = some index then amount m else 0

def cohortSum (s : Ledger) (index : Nat) (amount : Member → Nat) : Nat :=
  tableSum (cohortWeight s.policy index amount) s.members

/-- What the pending transaction holds, if its member belongs to the entitlement. -/
def cohortPending (s : Ledger) (index : Nat) (amount : Pending → Nat) : Nat :=
  match s.pending with
  | some q => if s.policy.entitlementOf q.member.subject = some index then amount q else 0
  | none => 0

def Member.charged (m : Member) : Nat := m.pages.toNat + m.heldPayloadPages.toNat

variable {s : Ledger} {position index : Nat} {token : Incarnation} {resources : Resources}
  {pages : UInt64} {plan : Plan}

theorem le_cohortSum (hlt : position < maxSubjects)
    (hmember : s.policy.entitlementOf position = some index) (amount : Member → Nat) :
    amount s.members[position] ≤ cohortSum s index amount := by
  have hle := le_tableSum (cohortWeight s.policy index amount) s.members position hlt
  rw [cohortWeight, if_pos hmember] at hle
  exact hle

theorem pageLimit_eq_ok_iff (s : Ledger) (token : Incarnation) (limit : UInt64) :
    s.pageLimit token = .ok limit ↔
      ∃ subject, s.policy.subject token.subject = some subject ∧
        subjectLimit s subject = limit := by
  simp only [Ledger.pageLimit, subjectLimit, bind_eq_ok_iff, unwrap_eq_ok_iff, pure_eq_ok_iff]

theorem entitlement_eq_ok_iff (s : Ledger) (token : Incarnation) (index : Nat) :
    s.entitlement token = .ok index ↔ s.policy.entitlementOf token.subject = some index := by
  simp [Ledger.entitlement, bind_eq_ok_iff, Policy.entitlementOf_eq_some_iff]

section Cohort

variable {s : Ledger} {identity : Identity} {index : Nat} {entry : Entitlement}

def positionShare (s : Ledger) (index : Nat) (amount : Member → Nat) (position : Nat) : Nat :=
  if s.policy.entitlementOf position = some index then
    amount (s.members[position]?.getD Member.default)
  else 0

theorem cohortSum_eq_sum_range (s : Ledger) (hpolicy : s.policy.WellFormed) (index : Nat)
    (amount : Member → Nat) :
    cohortSum s index amount =
      ((List.range s.policy.subjectCount).map (positionShare s index amount)).sum := by
  apply tableSum_eq_sum_range _ s.members Member.default s.policy.subjectCount
    hpolicy.subjectCount_le
  intro position hposition hcount
  rw [cohortWeight, if_neg]
  intro hmember
  have hlt := Policy.entitlementOf_lt hmember
  omega

theorem addCohortMember_eq_ok_iff (hpolicy : s.policy.WellFormed)
    (hindex : s.policy.entitlementIndex identity = some index)
    (hentry : s.policy.entitlement index = some entry)
    (hposition : position < s.policy.subjectCount) (carried next : UInt64 × UInt64) :
    s.addCohortMember entry carried position = .ok next ↔
      next.1.toNat = carried.1.toNat + positionShare s index Member.charged position ∧
      next.2.toNat = carried.2.toNat +
        positionShare s index (fun m => m.guaranteePages.toNat) position := by
  obtain ⟨subject, _, hsubject, -⟩ := hpolicy.subject_entitled position hposition
  have hmember := Policy.entitlementOf_eq_some_iff_identity hindex hentry hsubject
  have hlt := lt_of_lt_of_le hposition hpolicy.subjectCount_le
  have htable : s.members[position]? = some s.members[position] := Vector.getElem?_eq_getElem hlt
  obtain ⟨next1, next2⟩ := next
  by_cases hin : subject.entitlement = entry.identity
  · simp only [Ledger.addCohortMember, positionShare, Member.charged, hsubject, htable, hin,
      hmember, if_true, unwrap, bind_eq_ok_iff, okOr_eq_ok_iff,
      pure_eq_ok_iff, Except.ok.injEq, exists_eq_left', checkedAdd_eq_some_iff,
      getD_some, Prod.mk.injEq]
    constructor
    · rintro ⟨held, hheld, total, htotal, redeemed, hredeemed, rfl, rfl⟩
      exact ⟨by omega, hredeemed⟩
    rintro ⟨htotal, hredeemed⟩
    have hfit := next1.toNat_lt
    obtain ⟨held, -, hheld⟩ := exists_checkedAdd
      (show carried.1.toNat + s.members[position].pages.toNat < 2 ^ 64 by omega)
    exact ⟨held, hheld, next1, by omega, next2, hredeemed, rfl, rfl⟩
  · simp only [Ledger.addCohortMember, positionShare, hsubject, hin, hmember, if_false,
      unwrap, bind_eq_ok_iff, pure_eq_ok_iff, Except.ok.injEq,
      exists_eq_left', add_zero, UInt64.toNat_inj]
    rw [Prod.ext_iff]
    exact ⟨fun h => ⟨h.1.symm, h.2.symm⟩, fun h => ⟨h.1.symm, h.2.symm⟩⟩

/-- The loop of `begin` completes exactly when both running sums fit in a word,
and then returns them. -/
theorem foldlM_addCohortMember_eq_ok_iff (hpolicy : s.policy.WellFormed)
    (hindex : s.policy.entitlementIndex identity = some index)
    (hentry : s.policy.entitlement index = some entry) (positions : List Nat)
    (hpositions : ∀ position ∈ positions, position < s.policy.subjectCount)
    (start finish : UInt64 × UInt64) :
    positions.foldlM (s.addCohortMember entry) start = .ok finish ↔
      finish.1.toNat = start.1.toNat + (positions.map (positionShare s index Member.charged)).sum ∧
      finish.2.toNat = start.2.toNat +
        (positions.map (positionShare s index fun m => m.guaranteePages.toNat)).sum := by
  induction positions generalizing start with
  | nil =>
    simp only [foldlM_nil, pure_eq_ok_iff, map_nil, sum_nil, add_zero, UInt64.toNat_inj]
    rw [Prod.ext_iff]
    exact ⟨fun h => ⟨h.1.symm, h.2.symm⟩, fun h => ⟨h.1.symm, h.2.symm⟩⟩
  | cons position positions ih =>
    have hfirst := addCohortMember_eq_ok_iff hpolicy hindex hentry
      (hpositions position (by simp)) start
    have hrest := ih fun p hp => hpositions p (by simp [hp])
    simp only [foldlM_cons, bind_eq_ok_iff, hfirst, hrest, map_cons, sum_cons]
    constructor
    · rintro ⟨next, ⟨htotal, hredeemed⟩, htotals, hredeemeds⟩
      exact ⟨by omega, by omega⟩
    rintro ⟨htotal, hredeemed⟩
    have hfit1 := finish.1.toNat_lt
    have hfit2 := finish.2.toNat_lt
    -- The running sums only grow, so a finish that fits has middles that fit.
    obtain ⟨next1, hnext1⟩ := exists_toNat_eq
      (show start.1.toNat + positionShare s index Member.charged position < 2 ^ 64 by omega)
    obtain ⟨next2, hnext2⟩ := exists_toNat_eq
      (show start.2.toNat + positionShare s index (fun m => m.guaranteePages.toNat) position <
        2 ^ 64 by omega)
    exact ⟨(next1, next2), ⟨hnext1, hnext2⟩, by simp only; omega, by simp only; omega⟩

theorem foldlM_addCohortMember_range (hpolicy : s.policy.WellFormed)
    (hindex : s.policy.entitlementIndex identity = some index)
    (hentry : s.policy.entitlement index = some entry) (pages total redeemed : UInt64) :
    (List.range s.policy.subjectCount).foldlM (s.addCohortMember entry) (pages, 0) =
        .ok (total, redeemed) ↔
      total.toNat = pages.toNat + cohortSum s index Member.charged ∧
      redeemed.toNat = cohortSum s index fun m => m.guaranteePages.toNat := by
  have hloop := foldlM_addCohortMember_eq_ok_iff hpolicy hindex hentry
    (List.range s.policy.subjectCount) (fun _ h => mem_range.mp h) (pages, 0) (total, redeemed)
  rw [cohortSum_eq_sum_range s hpolicy, cohortSum_eq_sum_range s hpolicy, hloop]
  simp

theorem sum_filter_map_eq (test : Nat → Bool) (amount : Nat → Nat) (positions : List Nat) :
    ((positions.filter test).map amount).sum =
      (positions.map fun position => if test position then amount position else 0).sum := by
  induction positions with
  | nil => rfl
  | cons position positions ih =>
    by_cases htest : test position <;> simp [htest, ih]

theorem toNat_foldl_add (words : List UInt64) (start : UInt64)
    (hfit : start.toNat + (words.map UInt64.toNat).sum < 2 ^ 64) :
    (words.foldl (· + ·) start).toNat = start.toNat + (words.map UInt64.toNat).sum := by
  induction words generalizing start with
  | nil => simp
  | cons word words ih =>
    simp only [map_cons, sum_cons] at hfit
    have hnext : (start + word).toNat = start.toNat + word.toNat := by
      rw [UInt64.toNat_add, Nat.mod_eq_of_lt (by omega)]
    rw [foldl_cons, ih (start + word) (by omega), map_cons, sum_cons]
    omega

/-- The unchecked sum of `redeemable_guarantee` is the cohort's sum when that
sum fits in a word. -/
theorem redeemableGuarantee_eq_ok (hpolicy : s.policy.WellFormed)
    {redeemable : UInt64} (hredeemable : s.redeemableGuarantee token = .ok redeemable)
    (hindex : s.policy.entitlementOf token.subject = some index)
    (hentry : s.policy.entitlement index = some entry)
    (hfit : cohortSum s index (fun m => m.guaranteePages.toNat) < 2 ^ 64) :
    redeemable.toNat =
      entry.guaranteePages.toNat - cohortSum s index fun m => m.guaranteePages.toNat := by
  obtain ⟨subject, -, hidentity⟩ := (Policy.entitlementOf_eq_some_iff _ _ _).mp hindex
  simp only [Ledger.redeemableGuarantee, bind_eq_ok_iff, okOr_eq_ok_iff,
    pure_eq_ok_iff, entitlement_eq_ok_iff, hindex, some.injEq, exists_eq_left',
    hentry] at hredeemable
  obtain ⟨_, -, rfl⟩ := hredeemable
  have hcohort : ((((List.range s.policy.subjectCount).filter (s.inCohort entry)).map
      fun position => (s.members[position]?.getD Member.default).guaranteePages).map
        UInt64.toNat).sum = cohortSum s index fun m => m.guaranteePages.toNat := by
    rw [cohortSum_eq_sum_range s hpolicy, List.map_map, sum_filter_map_eq]
    apply congrArg List.sum
    apply map_congr_left
    intro position hposition
    obtain ⟨other, _, hother, -⟩ := hpolicy.subject_entitled position (mem_range.mp hposition)
    have hmember := Policy.entitlementOf_eq_some_iff_identity hidentity hentry hother
    simp [Ledger.inCohort, positionShare, hother, hmember]
  rw [toNat_saturatingSub, toNat_foldl_add _ _ (by rw [hcohort]; simpa using hfit), hcohort]
  simp

end Cohort

theorem refundCommon_units {free spent : Resources}
    (h : s.refundCommon resources = .ok (free, spent)) (k : Component) :
    free.units k + s.operationalSpent.units k = s.free.units k + resources.units k + spent.units k ∧
      spent.units k ≤ s.operationalSpent.units k := by
  simp only [Ledger.refundCommon, bind_eq_ok_iff, pure_eq_ok_iff,
    subtract_eq_ok_iff, checkedAdd_eq_ok_iff, Prod.mk.injEq] at h
  obtain ⟨rest, hrest, free', hfree, spent', hspent, rfl, rfl⟩ := h
  have hrest := hrest k
  have hfree := hfree k
  have hspent := hspent k
  omega

theorem exists_refundCommon {s : Ledger} (hfit : ∀ k, s.free.units k + resources.units k < 2 ^ 64) :
    ∃ free spent, s.refundCommon resources = .ok (free, spent) := by
  obtain ⟨rest, hrest, hrestUnits⟩ := @exists_subtract resources
    (resources.minimum s.operationalSpent) fun k => by rw [units_minimum]; omega
  obtain ⟨free, hfree, -⟩ := @exists_checkedAdd s.free rest fun k => by
    have := hfit k
    have := hrestUnits k
    omega
  obtain ⟨spent, hspent, -⟩ := @exists_subtract s.operationalSpent
    (resources.minimum s.operationalSpent) fun k => by rw [units_minimum]; omega
  refine ⟨free, spent, ?_⟩
  simp [Ledger.refundCommon, hrest, hfree, hspent, bind, Except.bind]

/-- Without a witness a transaction draws at most the shares of the guarantee pages it redeems, with
one what the certificate says, and no more than the entitlement has left. -/
theorem redeem_eq_ok {entry : Entitlement}
    {redeemed guaranteePages : UInt64} {guaranteed : Resources} (hlt : index < maxEntitlements)
    (h : s.redeem index entry redeemed pages plan = .ok (guaranteePages, guaranteed)) :
    guaranteePages.toNat ≤ entry.guaranteePages.toNat - redeemed.toNat ∧
      (plan.guaranteed = zero → ∀ k, guaranteed.units k ≤
        s.guaranteeTotal[index].units k / entry.guaranteePages.toNat * guaranteePages.toNat) := by
  unfold Ledger.redeem at h
  split at h
  next hzero =>
    have htotal : s.guaranteeTotal[index]? = some s.guaranteeTotal[index] :=
      Vector.getElem?_eq_getElem hlt
    simp only [bind_eq_ok_iff, unwrap_eq_ok_iff, pure_eq_ok_iff,
      Prod.mk.injEq, htotal, some.injEq, exists_eq_left'] at h
    obtain ⟨-, -, rfl, rfl⟩ := h
    have hpages : (wordMin pages (saturatingSub entry.guaranteePages redeemed)).toNat ≤
        entry.guaranteePages.toNat - redeemed.toNat := by
      rw [toNat_wordMin, toNat_saturatingSub]
      omega
    refine ⟨hpages, fun _ k => ?_⟩
    rw [units_minimum, units_minimum, units_pageShare _ (by omega)]
    omega
  next hzero =>
    simp only [bind_eq_ok_iff, rejectIf_eq_ok_iff, pure_eq_ok_iff,
      Prod.mk.injEq, Bool.or_eq_false_iff, decide_eq_false_iff_not, UInt64.not_lt,
      UInt64.le_iff_toNat_le, toNat_saturatingSub] at h
    obtain ⟨-, ⟨-, hpages⟩, rfl, rfl⟩ := h
    exact ⟨hpages, fun h => absurd h hzero⟩

/-- Everything one call can do to a ledger it changes. -/
inductive Change (s : Ledger) : Operation → Ledger → Prop where
  | bound {operation : Operation} {position : Nat} {epoch : UInt64}
      (hlt : position < maxSubjects) (hsubject : position < s.policy.subjectCount)
      (hidle : s.members[position].live = false)
      (hepoch : epoch.toNat = s.members[position].epoch.toNat + 1) :
      Change s operation
        { s with
          members := s.members.set position
            { s.members[position] with epoch := epoch, live := true } }
  | quarantined {operation : Operation} {position : Nat} (hlt : position < maxSubjects) :
      Change s operation
        { s with
          members := s.members.set position { s.members[position] with quarantined := true } }
  | retained {operation : Operation} {position : Nat} {free elastic : Resources}
      (hlt : position < maxSubjects)
      (hunits : ∀ k, free.units k + elastic.units k =
        s.free.units k + s.members[position].elastic.units k) :
      Change s operation
        { s with
          free := free
          members := s.members.set position
            { s.members[position] with elastic := elastic, quarantined := true } }
  | rootReserved {operation : Operation} {resources free : Resources}
      (hnone : s.rootPending = none)
      (hunits : ∀ k, s.free.units k = resources.units k + free.units k) :
      Change s operation { s with free := free, rootPending := some resources }
  | rootSettled {operation : Operation} {reserved owned free spent : Resources}
      (hreserved : s.rootPending = some reserved)
      (hunits : ∀ k, free.units k + owned.units k + s.operationalSpent.units k =
        s.free.units k + s.rootOwned.units k + reserved.units k + spent.units k)
      (hspent : ∀ k, spent.units k ≤ s.operationalSpent.units k) :
      Change s operation
        { s with
          rootOwned := owned
          free := free
          operationalSpent := spent
          rootPending := none }
  | reconciled {operation : Operation} {root system free spent : Resources}
      (hunits : ∀ k, free.units k + root.units k + system.units k + s.operationalSpent.units k =
        s.free.units k + s.rootOwned.units k + s.systemOwned.units k + spent.units k)
      (hspent : ∀ k, spent.units k ≤ s.policy.reserve.units k) :
      Change s operation
        { s with
          free := free
          operationalSpent := spent
          rootOwned := root
          systemOwned := system }
  | begun {plan : Plan} {q : Pending} {index : Nat} {entry : Entitlement} {subject : Subject}
      {free guaranteeFree : Resources} (hnone : s.pending = none)
      (hlt : q.member.subject < maxSubjects)
      (hlive : s.members[q.member.subject].live = true)
      (hepoch : s.members[q.member.subject].epoch = q.member.epoch)
      (hlimit : index < maxEntitlements)
      (hindex : s.policy.entitlementOf q.member.subject = some index)
      (hentry : s.policy.entitlement index = some entry)
      (hsubject : s.policy.subject q.member.subject = some subject)
      (hsubjectLimit : Member.charged s.members[q.member.subject] + q.pages.toNat ≤
        (subjectLimit s subject).toNat)
      (hentitlementLimit : cohortSum s index Member.charged + q.pages.toNat ≤
        (entitlementLimit s entry).toNat)
      (hredeemed : q.guaranteePages.toNat ≤ entry.guaranteePages.toNat -
        cohortSum s index fun m => m.guaranteePages.toNat)
      (hshare : plan.guaranteed = Resources.zero → ∀ k, q.guaranteed.units k ≤
        s.guaranteeTotal[index].units k / entry.guaranteePages.toNat * q.guaranteePages.toNat)
      (hfree : ∀ k, s.free.units k = q.elastic.units k + free.units k)
      (hguarantee : ∀ k, s.guaranteeFree[index].units k =
        q.guaranteed.units k + guaranteeFree.units k) :
      Change s (.begin q.member q.pages plan)
        { s with
          free := free
          guaranteeFree := s.guaranteeFree.set index guaranteeFree
          pending := some q }
  | committed {operation : Operation} {q : Pending} {guaranteed elastic : Resources}
      {pages guaranteePages : UInt64} (hpending : s.pending = some q)
      (hlt : q.member.subject < maxSubjects)
      (hguaranteed : ∀ k, guaranteed.units k =
        s.members[q.member.subject].guaranteed.units k + q.guaranteed.units k)
      (helastic : ∀ k, elastic.units k =
        s.members[q.member.subject].elastic.units k + q.elastic.units k)
      (hpages : pages.toNat = s.members[q.member.subject].pages.toNat + q.pages.toNat)
      (hguaranteePages : guaranteePages.toNat =
        s.members[q.member.subject].guaranteePages.toNat + q.guaranteePages.toNat) :
      Change s operation
        { s with
          members := s.members.set q.member.subject
            { s.members[q.member.subject] with
              guaranteed := guaranteed
              elastic := elastic
              pages := pages
              guaranteePages := guaranteePages }
          pending := none }
  | aborted (clean : Bool) {operation : Operation} {q : Pending} {quarantined : Bool} {index : Nat}
      {guaranteed elastic guaranteeFree free spent : Resources} {held guaranteePages : UInt64}
      (hpending : s.pending = some q) (hlt : q.member.subject < maxSubjects)
      (hlimit : index < maxEntitlements)
      (hindex : s.policy.entitlementOf q.member.subject = some index)
      (hguaranteed : ∀ k, guaranteed.units k =
        s.members[q.member.subject].guaranteed.units k +
          if clean then 0 else q.guaranteed.units k)
      (hguarantee : ∀ k, guaranteeFree.units k =
        s.guaranteeFree[index].units k + if clean then q.guaranteed.units k else 0)
      (helastic : ∀ k, free.units k + elastic.units k + s.operationalSpent.units k =
        s.free.units k + s.members[q.member.subject].elastic.units k + q.elastic.units k +
          spent.units k)
      (hspent : ∀ k, spent.units k ≤ s.operationalSpent.units k)
      (hheld : held.toNat = s.members[q.member.subject].heldPayloadPages.toNat +
        if clean then 0 else q.pages.toNat)
      (hguaranteePages : guaranteePages.toNat =
        s.members[q.member.subject].guaranteePages.toNat +
          if clean then 0 else q.guaranteePages.toNat) :
      Change s operation
        { s with
          free := free
          operationalSpent := spent
          guaranteeFree := s.guaranteeFree.set index guaranteeFree
          members := s.members.set q.member.subject
            { s.members[q.member.subject] with
              guaranteed := guaranteed
              elastic := elastic
              quarantined := quarantined
              heldPayloadPages := held
              guaranteePages := guaranteePages }
          pending := none }
  | retired {operation : Operation} {token : Incarnation} {index : Nat}
      {guaranteeFree free spent : Resources} (hlt : token.subject < maxSubjects)
      (hepoch : s.members[token.subject].epoch = token.epoch)
      (hother : ∀ q, s.pending = some q → q.member ≠ token)
      (hlimit : index < maxEntitlements)
      (hindex : s.policy.entitlementOf token.subject = some index)
      (hguarantee : ∀ k, guaranteeFree.units k =
        s.guaranteeFree[index].units k + s.members[token.subject].guaranteed.units k)
      (helastic : ∀ k, free.units k + s.operationalSpent.units k =
        s.free.units k + s.members[token.subject].elastic.units k + spent.units k)
      (hspent : ∀ k, spent.units k ≤ s.operationalSpent.units k) :
      Change s operation
        { s with
          free := free
          operationalSpent := spent
          guaranteeFree := s.guaranteeFree.set index guaranteeFree
          members := s.members.set token.subject
            { Member.default with epoch := s.members[token.subject].epoch } }

section Changes

variable {s s' : Ledger} {operation : Operation} {u : Unit} {retained : Resources} {clean : Bool}

theorem bindWithMaximum_change {identity : Identity} {binding : Binding}
    (h : Ledger.bindWithMaximum identity s = (.ok binding, s')) : Change s operation s' := by
  obtain ⟨index, hindex, -, -, member, hmember, hlive, epoch, hepoch, -, hlt, rfl⟩ :=
    (bindWithMaximum_ok_iff identity binding s s').mp h
  obtain ⟨_, rfl⟩ := Vector.getElem_of_getElem? hmember
  have hdeclared := mem_range.mp (mem_of_find?_eq_some hindex)
  exact .bound hlt hdeclared hlive (checkedAdd_eq_some_iff.mp hepoch)

theorem quarantine_change
    (h : Ledger.quarantine token s = (.ok u, s')) : Change s operation s' := by
  simp only [Ledger.quarantine, Call.bind_ok_iff, Call.read_ok_iff, Call.lift_ok_iff,
    modifyMember_ok_iff, exists_and_left, exists_and_right, ↓existsAndEq, true_and, and_assoc] at h
  obtain ⟨-, hlt, rfl⟩ := h
  exact .quarantined hlt

theorem retainUnbegun_change
    (h : Ledger.retainUnbegun token resources s = (.ok u, s')) : Change s operation s' := by
  simp only [Ledger.retainUnbegun, Call.bind_ok_iff, Call.read_ok_iff, Call.lift_ok_iff,
    Call.rejectIf_ok_iff, Call.modify_ok_iff, modifyMember_ok_iff, exists_and_left, ↓existsAndEq,
    true_and, and_assoc, exists_const, exists_prop, bound_and_exists, Vector.getElem_set_self,
    Vector.set_set] at h
  obtain ⟨-, old, hold, -, free, hfree, elastic, helastic, hlt, rfl⟩ := h
  obtain ⟨_, rfl, -, -⟩ := (member_eq_ok_iff s token old).mp hold
  rw [subtract_eq_ok_iff] at hfree
  rw [checkedAdd_eq_ok_iff] at helastic
  refine .retained hlt fun k => ?_
  have hfree := hfree k
  have helastic := helastic k
  omega

theorem reserveRoot_change
    (h : Ledger.reserveRoot resources s = (.ok u, s')) : Change s operation s' := by
  simp only [Ledger.reserveRoot, Call.bind_ok_iff, Call.read_ok_iff, Call.lift_ok_iff,
    Call.rejectIf_ok_iff, Call.modify_ok_iff, exists_and_left, exists_and_right, ↓existsAndEq,
    true_and, and_assoc, exists_const] at h
  obtain ⟨hnone, free, hfree, -, rfl⟩ := h
  exact .rootReserved (by simpa using hnone) (subtract_eq_ok_iff.mp hfree)

theorem settleRoot_change {used : Resources}
    (h : Ledger.settleRoot used s = (.ok u, s')) : Change s operation s' := by
  simp only [Ledger.settleRoot, Call.bind_ok_iff, Call.read_ok_iff, Call.lift_ok_iff,
    Call.modify_ok_iff, okOr_eq_ok_iff, Prod.exists, exists_and_left, ↓existsAndEq,
    true_and, and_assoc, exists_const] at h
  obtain ⟨reserved, hreserved, unused, hunused, owned, howned, free, spent, hrefund, rfl⟩ := h
  rw [subtract_eq_ok_iff] at hunused
  rw [checkedAdd_eq_ok_iff] at howned
  refine .rootSettled hreserved (fun k => ?_) (fun k => (refundCommon_units hrefund k).2)
  have hrefund := (refundCommon_units hrefund k).1
  have hunused := hunused k
  have howned := howned k
  omega

theorem reconcileOwnership_change {root system : Resources}
    (h : Ledger.reconcileOwnership root system s = (.ok u, s')) : Change s operation s' := by
  simp only [Ledger.reconcileOwnership, Call.bind_ok_iff, Call.read_ok_iff, Call.lift_ok_iff,
    Call.rejectIf_ok_iff, Call.modify_ok_iff, exists_and_left, exists_and_right, ↓existsAndEq,
    true_and, and_assoc, exists_const] at h
  obtain ⟨-, -, withRoot, hwithRoot, withSystem, hwithSystem, unspent, hunspent, total, htotal,
    afterRoot, hafterRoot, left, hleft, free, hfree, spent, hspent, rfl⟩ := h
  simp only [subtract_eq_ok_iff, checkedAdd_eq_ok_iff] at *
  refine .reconciled (fun k => ?_) (fun k => ?_)
  · have hwithRoot := hwithRoot k
    have hwithSystem := hwithSystem k
    have hunspent := hunspent k
    have htotal := htotal k
    have hafterRoot := hafterRoot k
    have hleft := hleft k
    have hfree := hfree k
    have hspent := hspent k
    omega
  · have hspent := hspent k
    omega

theorem begin_change (hpolicy : s.policy.WellFormed)
    (h : Ledger.begin token pages plan s = (.ok u, s')) :
    Change s (.begin token pages plan) s' := by
  obtain ⟨hnone, member, hmember, -, index, hindex, entry, hentry, held, hheld, requested,
    hrequested, limit, hlimit, total, redeemed, hloop, hlimits, -, -, -, -, guaranteePages,
    guaranteed, hredeem, elastic, -, free, hfree, oldGuaranteeFree, holdGuaranteeFree,
    guaranteeFree, hguaranteeFree, -, -, hindexLt, rfl⟩ :=
    (begin_ok_iff token pages plan u s s').mp h
  obtain ⟨hlt, rfl, hlive, hepoch⟩ := (member_eq_ok_iff s token member).mp hmember
  obtain ⟨subject, hsubject, rfl⟩ := (pageLimit_eq_ok_iff s token limit).mp hlimit
  obtain ⟨_, rfl⟩ := Vector.getElem_of_getElem? holdGuaranteeFree
  rw [entitlement_eq_ok_iff] at hindex
  obtain ⟨_, -, hidentity⟩ := (Policy.entitlementOf_eq_some_iff _ _ _).mp hindex
  obtain ⟨htotal, hredeemed⟩ :=
    (foldlM_addCohortMember_range hpolicy hidentity hentry pages total redeemed).mp hloop
  simp only [Bool.or_eq_false_iff, decide_eq_false_iff_not, UInt64.not_lt,
    UInt64.le_iff_toNat_le] at hlimits
  rw [checkedAdd_eq_some_iff] at hheld hrequested
  have hdrawn := redeem_eq_ok hindexLt hredeem
  exact .begun (q := ⟨token, pages, guaranteePages, guaranteed, elastic⟩) (by simpa using hnone)
    hlt hlive hepoch hindexLt hindex hentry hsubject (by simp only [Member.charged]; omega)
    (by simp only [entitlementLimit]; omega) (by rw [← hredeemed]; exact hdrawn.1) hdrawn.2
    (subtract_eq_ok_iff.mp hfree) (subtract_eq_ok_iff.mp hguaranteeFree)

theorem commit_change (h : Ledger.commit token s = (.ok u, s')) : Change s operation s' := by
  obtain ⟨q, hpending, rfl, old, hold, -, guaranteed, hguaranteed, elastic, helastic, pages,
    hpages, guaranteePages, hguaranteePages, hlt, rfl⟩ := (commit_ok_iff token u s s').mp h
  obtain ⟨_, rfl, -, -⟩ := (member_eq_ok_iff s q.member old).mp hold
  exact .committed hpending hlt (checkedAdd_eq_ok_iff.mp hguaranteed)
    (checkedAdd_eq_ok_iff.mp helastic) (checkedAdd_eq_some_iff.mp hpages)
    (checkedAdd_eq_some_iff.mp hguaranteePages)

/-- A clean rollback keeps no guarantee, and a failed one keeps all of it. -/
theorem keptByAbort_units {old : Member} {q : Pending} {keptGuarantee keptElastic : Resources}
    (h : s.keptByAbort token old q retained clean = .ok (keptGuarantee, keptElastic))
    (k : Component) : keptGuarantee.units k = if clean then 0 else q.guaranteed.units k := by
  unfold Ledger.keptByAbort at h
  rcases clean with _ | _
  · obtain ⟨rfl, -⟩ : q.guaranteed = keptGuarantee ∧ q.elastic = keptElastic := by simpa using h
    simp
  · simp only [if_true, bind_eq_ok_iff, pure_eq_ok_iff, Prod.mk.injEq] at h
    obtain ⟨-, -, -, -, -, -, -, -, -, -, -, -, -, -, -, -, rfl, -⟩ := h
    simp

theorem abort_change
    (h : Ledger.abort token retained clean s = (.ok u, s')) : Change s operation s' := by
  obtain ⟨q, hpending, rfl, old, hold, keptGuarantee, keptElastic, hkept, index, hindex,
    oldGuaranteeFree, holdGuaranteeFree, returnedGuarantee, hreturnedGuarantee, guaranteeFree,
    hguaranteeFree, returnedElastic, hreturnedElastic, free, spent, hrefund, guaranteed,
    hguaranteed, elastic, helastic, held, hheld, guaranteePages, hguaranteePages, hindexLt, hlt,
    rfl⟩ := (abort_ok_iff token retained clean u s s').mp h
  obtain ⟨_, rfl, -, -⟩ := (member_eq_ok_iff s q.member old).mp hold
  obtain ⟨_, rfl⟩ := Vector.getElem_of_getElem? holdGuaranteeFree
  have hkeptUnits := keptByAbort_units hkept
  rw [entitlement_eq_ok_iff] at hindex
  simp only [subtract_eq_ok_iff, checkedAdd_eq_ok_iff, checkedAdd_eq_some_iff] at *
  refine .aborted clean hpending hlt hindexLt hindex (fun k => ?_) (fun k => ?_)
    (fun k => ?_) (fun k => (refundCommon_units hrefund k).2) ?_ ?_
  · rw [hguaranteed k, hkeptUnits k]
  · have hkept := hkeptUnits k
    have hreturned := hreturnedGuarantee k
    rw [hguaranteeFree k]
    rcases clean with _ | _ <;> simp at hkept ⊢ <;> omega
  · have hrefund := (refundCommon_units hrefund k).1
    have hreturned := hreturnedElastic k
    have helastic := helastic k
    omega
  · rw [hheld]
    cases clean <;> rfl
  · rw [hguaranteePages]
    cases clean <;> rfl

theorem retire_change {revoked : Bool}
    (h : Ledger.retire token revoked s = (.ok u, s')) : Change s operation s' := by
  obtain ⟨-, old, hold, hother, index, hindex, oldGuaranteeFree, holdGuaranteeFree, guaranteed,
    hguaranteed, -, -, -, free, spent, hrefund, hindexLt, hlt, rfl⟩ :=
    (retire_ok_iff token revoked u s s').mp h
  obtain ⟨_, rfl, -, hepoch⟩ := (member_eq_ok_iff s token old).mp hold
  obtain ⟨_, rfl⟩ := Vector.getElem_of_getElem? holdGuaranteeFree
  refine .retired hlt hepoch ?_ hindexLt ((entitlement_eq_ok_iff s token index).mp hindex)
    (checkedAdd_eq_ok_iff.mp hguaranteed)
    (fun k => (refundCommon_units hrefund k).1) (fun k => (refundCommon_units hrefund k).2)
  rintro q hq rfl
  simp [hq] at hother

theorem change_of_answered {α β : Type} {call : LedgerCall α} {answer : α → β} {b : β}
    (h : (call >>= fun a => pure (answer a)) s = (.ok b, s'))
    (hchange : ∀ a, call s = (.ok a, s') → Change s operation s') : Change s operation s' := by
  obtain ⟨a, _, hcall, hanswer⟩ := (Call.bind_ok_iff _ _ _ _ _).mp h
  cases hanswer
  exact hchange a hcall

end Changes

theorem step_change (s : Ledger) (hpolicy : s.policy.WellFormed) (operation : Operation) :
    s.step operation = s ∨ Change s operation (s.step operation) := by
  by_cases hretire : ∃ token, operation = .retire token false
  · obtain ⟨token, rfl⟩ := hretire
    rw [retire_unrevoked_step]
    rcases (retire_unrevoked token s).2 with hsame | ⟨hlt, hquarantined⟩
    · exact .inl hsame
    · right
      rw [hquarantined]
      exact .quarantined hlt
  rcases perform_allOrNothing s operation fun token htoken => hretire ⟨token, htoken⟩ with
    ⟨fault, hfault⟩ | ⟨answer, s', hok⟩
  · left
    rw [Ledger.step, hfault]
  right
  have hstate : s.step operation = s' := by rw [Ledger.step, hok]
  rw [hstate]
  cases operation with
  | bind identity =>
    exact change_of_answered hok fun _ h => change_of_answered h fun _ h => bindWithMaximum_change h
  | bindWithMaximum identity =>
    exact change_of_answered hok fun _ h => bindWithMaximum_change h
  | begin token pages plan => exact change_of_answered hok fun _ h => begin_change hpolicy h
  | commit token => exact change_of_answered hok fun _ h => commit_change h
  | abort token retained clean => exact change_of_answered hok fun _ h => abort_change h
  | retire token revoked => exact change_of_answered hok fun _ h => retire_change h
  | quarantine token => exact change_of_answered hok fun _ h => quarantine_change h
  | retainUnbegun token resources => exact change_of_answered hok fun _ h => retainUnbegun_change h
  | reserveRoot resources => exact change_of_answered hok fun _ h => reserveRoot_change h
  | settleRoot used => exact change_of_answered hok fun _ h => settleRoot_change h
  | reconcileSystem resources =>
    exact change_of_answered hok fun _ h => reconcileOwnership_change h
  | reconcileOwnership root system =>
    exact change_of_answered hok fun _ h => reconcileOwnership_change h

theorem admission_eq_ok {policy : Policy} {instances : List Instance} {available : Resources}
    {guarantees : List Resources} {ledger : Ledger}
    (h : Ledger.admission policy instances available guarantees = .ok ledger) :
    ∃ start free total, available.subtract policy.reserve = .ok start ∧
      guarantees.zipIdx.foldlM (Ledger.admitGuarantee policy)
        (start, Vector.replicate maxEntitlements zero) = .ok (free, total) ∧
      ledger =
        { policy := policy
          free := free
          rootOwned := zero
          systemOwned := zero
          operationalSpent := zero
          rootPending := none
          poolPages := wordMin (start.bytes / pageBytes) maxPages
          guaranteeTotal := total
          guaranteeFree := total
          members := Vector.replicate maxSubjects Member.default
          pending := none } := by
  simp only [Ledger.admission, bind_eq_ok_iff, pure_eq_ok_iff, Prod.exists] at h
  obtain ⟨_, -, _, -, start, hstart, free, total, hloop, rfl⟩ := h
  exact ⟨start, free, total, hstart, hloop, rfl⟩

theorem cohortSum_fresh
    (hmembers : s.members = Vector.replicate maxSubjects Member.default) (index : Nat)
    {amount : Member → Nat} (hzero : amount Member.default = 0) : cohortSum s index amount = 0 := by
  unfold cohortSum
  rw [hmembers]
  apply tableSum_replicate_eq_zero
  intro position
  simp [cohortWeight, hzero]

def Named (s : Ledger) (token : Incarnation) : Prop :=
  ∃ h : token.subject < maxSubjects,
    s.members[token.subject].live = true ∧ s.members[token.subject].epoch = token.epoch

theorem named_iff (s : Ledger) (token : Incarnation) :
    Named s token ↔ ∃ m, s.member token = .ok m := by
  simp only [Named, member_eq_ok_iff]
  constructor
  · rintro ⟨h, hlive, hepoch⟩
    exact ⟨_, h, rfl, hlive, hepoch⟩
  · rintro ⟨m, h, rfl, hlive, hepoch⟩
    exact ⟨h, hlive, hepoch⟩

/-- Only subjects of the policy are live, and a pending transaction is owned by a
live member. -/
structure Kept (s : Ledger) : Prop where
  live_subject : ∀ position (h : position < maxSubjects), s.members[position].live = true →
    position < s.policy.subjectCount
  pending_named : ∀ q, s.pending = some q → Named s q.member

section Kept

variable {s s' : Ledger} {position : Nat} {m : Member}

theorem live_subject_set (h : Kept s) (hlt : position < maxSubjects)
    (hpolicy : s'.policy = s.policy) (hmembers : s'.members = s.members.set position m)
    (hlive : m.live = true → position < s.policy.subjectCount) (other : Nat)
    (hother : other < maxSubjects) (hliveOther : s'.members[other].live = true) :
    other < s'.policy.subjectCount := by
  rw [hpolicy]
  simp only [hmembers, Vector.getElem_set] at hliveOther
  split at hliveOther
  next hsame =>
    subst hsame
    exact hlive hliveOther
  · exact h.live_subject other hother hliveOther

theorem Kept.set (h : Kept s) (hlt : position < maxSubjects) (hpolicy : s'.policy = s.policy)
    (hmembers : s'.members = s.members.set position m)
    (hlive : m.live = s.members[position].live) (hepoch : m.epoch = s.members[position].epoch)
    (hpending : ∀ q, s'.pending = some q → s.pending = some q) : Kept s' := by
  refine ⟨live_subject_set h hlt hpolicy hmembers ?_, ?_⟩
  · intro hnew
    exact h.live_subject position hlt (by rw [← hlive]; exact hnew)
  · intro q hq
    have hnamed := h.pending_named q (hpending q hq)
    simp only [Named, hmembers] at hnamed ⊢
    by_cases hsame : position = q.member.subject
    · subst hsame
      simpa only [Vector.getElem_set_self, hlive, hepoch] using hnamed
    · simpa only [Vector.getElem_set, hsame, if_false] using hnamed

theorem Change.kept {operation : Operation} (h : Kept s) (hchange : Change s operation s') :
    Kept s' := by
  cases hchange with
  | @bound _ written epoch hlt hsubject hidle hepoch =>
    refine ⟨live_subject_set h hlt rfl rfl fun _ => hsubject, ?_⟩
    intro q hq
    obtain ⟨hq', hlive, hepoch'⟩ := h.pending_named q hq
    have hother : written ≠ q.member.subject := by
      rintro rfl
      simp [hidle] at hlive
    exact ⟨hq', by simp [hother, hlive, hepoch']⟩
  | quarantined hlt => exact h.set hlt rfl rfl rfl rfl fun _ hq => hq
  | retained hlt _ => exact h.set hlt rfl rfl rfl rfl fun _ hq => hq
  | rootReserved _ _ => exact ⟨h.live_subject, h.pending_named⟩
  | rootSettled _ _ _ => exact ⟨h.live_subject, h.pending_named⟩
  | reconciled _ _ => exact ⟨h.live_subject, h.pending_named⟩
  | begun _ hlt hlive hepoch _ _ _ _ _ _ _ _ _ _ =>
    refine ⟨h.live_subject, ?_⟩
    intro q hq
    obtain rfl := some.inj hq
    exact ⟨hlt, hlive, hepoch⟩
  | committed _ hlt _ _ _ _ => exact h.set hlt rfl rfl rfl rfl fun _ hq => nomatch hq
  | aborted _ _ hlt _ _ _ _ _ _ _ _ => exact h.set hlt rfl rfl rfl rfl fun _ hq => nomatch hq
  | @retired _ token _ _ _ _ hlt hepoch hother _ _ _ _ _ =>
    refine ⟨live_subject_set h hlt rfl rfl fun hlive => absurd hlive Bool.false_ne_true, ?_⟩
    intro q hq
    obtain ⟨hq', hlive, hepoch'⟩ := h.pending_named q hq
    have hne : token.subject ≠ q.member.subject := by
      intro hsame
      -- Same subject and both of the subject's current epoch: the same token.
      have htoken : q.member = token := by
        obtain ⟨tokenSubject, tokenEpoch⟩ := token
        obtain ⟨member, _, _, _, _⟩ := q
        obtain ⟨memberSubject, memberEpoch⟩ := member
        subst hsame
        simp only [Incarnation.mk.injEq, true_and]
        exact hepoch'.symm.trans hepoch
      exact hother q hq htoken
    exact ⟨hq', by simp [hne, hlive, hepoch']⟩

end Kept

end SlimeOs.PrivateMemoryAccounts
