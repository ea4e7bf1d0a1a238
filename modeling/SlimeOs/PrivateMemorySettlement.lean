import SlimeOs.PrivateMemoryLimits

/-!
Closing what the ledger opened. In every reachable state the arithmetic of
settlement fits, so a commit, a failed rollback and a retirement always go
through. A clean rollback compares the tables the member committed earlier with
the spans of its page window, which neither `begin` nor `commit` does, and it
goes through exactly when they fit.
-/

namespace SlimeOs.PrivateMemorySettlement

open ByteLayout CheckedWord Except FallibleCall PrivateMemoryAccounts PrivateMemoryConservation
  PrivateMemoryLedger PrivateMemoryLedgerCalls PrivateMemoryLimits PrivateMemoryPlan
  PrivateMemoryPolicy PrivateMemoryResources TableSum Resources

section Bounds

variable {available : Resources} {s : Ledger} {position index : Nat}

theorem Sound.row_le (h : Sound available s)
    (hlt : position < maxSubjects) (hindex : s.policy.entitlementOf position = some index)
    (hlimit : index < maxEntitlements) (k : Component) :
    s.guaranteeFree[index].units k + s.members[position].guaranteed.units k +
      cohortPending s index (fun q => q.guaranteed.units k) ≤ s.guaranteeTotal[index].units k := by
  have hentitled := h.balanced.entitled index hlimit k
  have hmember := le_cohortSum hlt hindex fun m => m.guaranteed.units k
  omega

theorem Sound.common_le (h : Sound available s) (hlt : position < maxSubjects) (k : Component) :
    s.free.units k + s.members[position].elastic.units k + pendingElastic s k +
      guaranteeSum s.guaranteeTotal k ≤ available.units k := by
  have hconserved := h.balanced.conserved k
  have hmember : s.members[position].elastic.units k ≤ elasticSum s k :=
    le_tableSum (fun _ m => m.elastic.units k) s.members position hlt
  unfold accounted at hconserved
  omega

theorem Sound.tables_fit (h : Sound available s)
    (hlt : position < maxSubjects) (hindex : s.policy.entitlementOf position = some index)
    (hlimit : index < maxEntitlements) :
    s.members[position].guaranteed.units .tables + s.members[position].elastic.units .tables <
      2 ^ 64 := by
  have htotal : s.guaranteeTotal[index].units .tables ≤ guaranteeSum s.guaranteeTotal .tables :=
    le_tableSum (fun _ resources => resources.units .tables) s.guaranteeTotal index hlimit
  have hrow := Sound.row_le h hlt hindex hlimit .tables
  have hcommon := Sound.common_le h hlt .tables
  have hbound := available.units_lt .tables
  omega

/-- What the pending transaction and its owner hold together fits in a word, pages included. -/
theorem Sound.pending_fit (h : Sound available s) {q : Pending} (hpending : s.pending = some q)
    (hlt : q.member.subject < maxSubjects) {subject : Subject}
    {entry : Entitlement} (hsubject : s.policy.subject q.member.subject = some subject)
    (hindex : s.policy.entitlementOf q.member.subject = some index)
    (hentry : s.policy.entitlement index = some entry) (hlimit : index < maxEntitlements) :
    (∀ k, s.guaranteeFree[index].units k + s.members[q.member.subject].guaranteed.units k +
      q.guaranteed.units k < 2 ^ 64) ∧
    (∀ k, s.free.units k + s.members[q.member.subject].elastic.units k +
      q.elastic.units k < 2 ^ 64) ∧
    Member.charged s.members[q.member.subject] + q.pages.toNat < 2 ^ 64 ∧
    s.members[q.member.subject].guaranteePages.toNat + q.guaranteePages.toNat < 2 ^ 64 := by
  refine ⟨fun k => ?_, fun k => ?_, ?_, ?_⟩
  · have hrow := Sound.row_le h hlt hindex hlimit k
    have hbound := s.guaranteeTotal[index].units_lt k
    simp only [cohortPending, hpending, hindex, if_true] at hrow
    omega
  · have hcommon := Sound.common_le h hlt k
    have hbound := available.units_lt k
    simp only [pendingElastic, hpending] at hcommon
    omega
  · have hpages := h.limited.subjects q.member.subject hlt subject hsubject
    have hbound := (subjectLimit s subject).toNat_lt
    simp only [subjectPending, hpending, if_true] at hpages
    omega
  have hredeemed := h.limited.redeemed index entry hentry
  have hmember := le_cohortSum hlt hindex fun m => m.guaranteePages.toNat
  have hbound := entry.guaranteePages.toNat_lt
  simp only [cohortPending, hpending, hindex, if_true] at hredeemed
  omega

end Bounds

section Calls

variable {available : Resources} {s : Ledger} {q : Pending} {m : Member} {token : Incarnation}
  {limit : UInt64}

theorem commit_completes (h : Sound available s) (hpending : s.pending = some q)
    (hm : s.member q.member = .ok m) (hclear : m.quarantined = false) :
    ∃ s', Ledger.commit q.member s = (.ok (), s') := by
  obtain ⟨subject, index, entry, hsubject, hindex, hentry, hlimit⟩ := h.lookup hm
  obtain ⟨hlt, rfl, -, -⟩ := (member_eq_ok_iff s q.member m).mp hm
  obtain ⟨hguaranteed, helastic, hcharged, hguaranteePages⟩ :=
    Sound.pending_fit h hpending hlt hsubject hindex hentry hlimit
  obtain ⟨_, hguaranteedSum, -⟩ := @exists_checkedAdd
    s.members[q.member.subject].guaranteed q.guaranteed fun k => by
      have := hguaranteed k
      omega
  obtain ⟨_, helasticSum, -⟩ := @exists_checkedAdd
    s.members[q.member.subject].elastic q.elastic fun k => by
      have := helastic k
      omega
  obtain ⟨_, hpages, -⟩ := exists_checkedAdd
    (show s.members[q.member.subject].pages.toNat + q.pages.toNat < 2 ^ 64 by
      simp only [Member.charged] at hcharged
      omega)
  obtain ⟨_, hguaranteePagesSum, -⟩ := exists_checkedAdd hguaranteePages
  exact ⟨_, (commit_ok_iff q.member () s _).mpr ⟨q, hpending, rfl, _, hm, hclear, _,
    hguaranteedSum, _, helasticSum, _, hpages, _, hguaranteePagesSum, hlt, rfl⟩⟩

/-- Once what an abort keeps is settled, and is no more than the transaction
held, the rest of it goes through. -/
theorem abort_completes_of_kept (h : Sound available s)
    (hpending : s.pending = some q) (hm : s.member q.member = .ok m)
    {retained keptGuarantee keptElastic : Resources} {clean : Bool}
    (hkept : s.keptByAbort q.member m q retained clean = .ok (keptGuarantee, keptElastic))
    (hguarantee : ∀ k, keptGuarantee.units k ≤ q.guaranteed.units k)
    (helastic : ∀ k, keptElastic.units k ≤ q.elastic.units k) :
    ∃ s', Ledger.abort q.member retained clean s = (.ok (), s') := by
  obtain ⟨subject, index, entry, hsubject, hindex, hentry, hlimit⟩ := h.lookup hm
  obtain ⟨hlt, rfl, -, -⟩ := (member_eq_ok_iff s q.member m).mp hm
  obtain ⟨hguaranteedFit, helasticFit, hchargedFit, hguaranteePagesFit⟩ :=
    Sound.pending_fit h hpending hlt hsubject hindex hentry hlimit
  obtain ⟨returnedGuarantee, hreturnedGuarantee, hreturnedGuaranteeUnits⟩ :=
    exists_subtract hguarantee
  obtain ⟨_, hguaranteeFree, -⟩ := @exists_checkedAdd s.guaranteeFree[index]
    returnedGuarantee fun k => by
      have := hguaranteedFit k
      have := hreturnedGuaranteeUnits k
      omega
  obtain ⟨returnedElastic, hreturnedElastic, hreturnedElasticUnits⟩ :=
    exists_subtract helastic
  obtain ⟨free, spent, hrefund⟩ := @exists_refundCommon returnedElastic s fun k => by
    have := helasticFit k
    have := hreturnedElasticUnits k
    omega
  obtain ⟨_, hguaranteedSum, -⟩ := @exists_checkedAdd
    s.members[q.member.subject].guaranteed keptGuarantee fun k => by
      have := hguaranteedFit k
      have := hguarantee k
      omega
  obtain ⟨_, helasticSum, -⟩ := @exists_checkedAdd
    s.members[q.member.subject].elastic keptElastic fun k => by
      have := helasticFit k
      have := helastic k
      omega
  obtain ⟨_, hheld, -⟩ := exists_checkedAdd
    (show s.members[q.member.subject].heldPayloadPages.toNat +
        (if clean then 0 else q.pages).toNat < 2 ^ 64 by
      simp only [Member.charged] at hchargedFit
      split <;> simp <;> omega)
  obtain ⟨_, hguaranteePages, -⟩ := exists_checkedAdd
    (show s.members[q.member.subject].guaranteePages.toNat +
        (if clean then 0 else q.guaranteePages).toNat < 2 ^ 64 by
      split <;> simp <;> omega)
  exact ⟨_, (abort_ok_iff q.member retained clean () s _).mpr ⟨q, hpending, rfl, _, hm,
    keptGuarantee, keptElastic, hkept, index, (entitlement_eq_ok_iff s q.member index).mpr hindex,
    s.guaranteeFree[index], Vector.getElem?_eq_getElem hlimit, returnedGuarantee,
    hreturnedGuarantee, _, hguaranteeFree, returnedElastic, hreturnedElastic, free, spent,
    hrefund, _, hguaranteedSum, _, helasticSum, _, hheld, _, hguaranteePages, hlimit, hlt, rfl⟩⟩

theorem abort_failed_completes (h : Sound available s)
    (hpending : s.pending = some q) (retained : Resources) :
    ∃ s', Ledger.abort q.member retained false s = (.ok (), s') := by
  obtain ⟨m, hm⟩ := (named_iff s q.member).mp (h.kept.pending_named q hpending)
  exact abort_completes_of_kept h hpending hm rfl (fun _ => le_refl _)
    (fun _ => le_refl _)

theorem retire_completes (h : Sound available s)
    (hm : s.member token = .ok m) (hother : ∀ q, s.pending = some q → q.member ≠ token) :
    ∃ s', Ledger.retire token true s = (.ok (), s') := by
  obtain ⟨subject, index, -, -, hindex, -, hlimit⟩ := h.lookup hm
  obtain ⟨hlt, rfl, -, -⟩ := (member_eq_ok_iff s token m).mp hm
  have hrow := Sound.row_le h hlt hindex hlimit
  obtain ⟨guaranteed, hguaranteed, hguaranteedUnits⟩ := @exists_checkedAdd
    s.guaranteeFree[index] s.members[token.subject].guaranteed fun k => by
      have hbound := s.guaranteeTotal[index].units_lt k
      have := hrow k
      omega
  obtain ⟨_, hrest, -⟩ := @exists_subtract s.guaranteeTotal[index] guaranteed fun k => by
    have := hrow k
    have := hguaranteedUnits k
    omega
  obtain ⟨free, spent, hrefund⟩ := @exists_refundCommon s.members[token.subject].elastic s
    fun k => by
      have hcommon := Sound.common_le h hlt k
      have hbound := available.units_lt k
      omega
  have hown : (s.pending.any fun pending => pending.member == token) = false := by
    rcases hq : s.pending with _ | q
    · rfl
    · simpa using hother q hq
  exact ⟨_, (retire_ok_iff token true () s _).mpr ⟨rfl, _, hm, hown, index,
    (entitlement_eq_ok_iff s token index).mpr hindex, s.guaranteeFree[index],
    Vector.getElem?_eq_getElem hlimit, guaranteed, hguaranteed, s.guaranteeTotal[index],
    Vector.getElem?_eq_getElem hlimit, ⟨_, hrest⟩, free, spent, hrefund, hlimit, hlt, rfl⟩⟩

/-- A rollback that keeps nothing passes its checks exactly when the tables committed before fit the
member's page window. -/
theorem keptByAbort_zero_iff (hlimit : s.pageLimit token = .ok limit)
    (hfit : m.guaranteed.tables.toNat + m.elastic.tables.toNat < 2 ^ 64)
    (kept : Resources × Resources) :
    s.keptByAbort token m q zero true = .ok kept ↔
      m.guaranteed.tables.toNat + m.elastic.tables.toNat ≤ (divCeil limit pagesPerLeafTable).toNat ∧
        (zero, zero) = kept := by
  obtain ⟨committed, hcommitted, hcommittedNat⟩ := exists_checkedAdd hfit
  have hretained : checkedAdd committed zero.tables = some committed := by
    rw [checkedAdd_eq_some_iff]
    rfl
  have htableBytes : checkedMul zero.tables pageBytes = some 0 := by decide
  have hsubtract : q.elastic.subtract zero = .ok q.elastic := by
    rw [subtract_eq_ok_iff]
    simp
  simp only [Ledger.keptByAbort, if_true, Outcome.bind_eq_ok_iff, Outcome.rejectIf_eq_ok_iff,
    Outcome.okOr_eq_ok_iff, Outcome.mapErr_eq_ok_iff, Outcome.pure_eq_ok_iff, htableBytes, hlimit,
    hcommitted, hretained, hsubtract, Option.some.injEq, ok.injEq, exists_eq_left',
    exists_const, decide_eq_false_iff_not, UInt64.not_lt, UInt64.le_iff_toNat_le,
    ← hcommittedNat]
  constructor
  · rintro ⟨-, -, hbound, rfl⟩
    exact ⟨hbound, rfl⟩
  · rintro ⟨hbound, rfl⟩
    exact ⟨rfl, by decide, hbound, rfl⟩

theorem abort_clean_completes_iff (h : Sound available s)
    (hpending : s.pending = some q) (hm : s.member q.member = .ok m)
    (hlimit : s.pageLimit q.member = .ok limit) :
    (∃ s', Ledger.abort q.member zero true s = (.ok (), s')) ↔
      m.guaranteed.tables.toNat + m.elastic.tables.toNat ≤
        (divCeil limit pagesPerLeafTable).toNat := by
  obtain ⟨_, index, _, -, hindex, -, hindexLt⟩ := h.lookup hm
  have hfit : m.guaranteed.tables.toNat + m.elastic.tables.toNat < 2 ^ 64 := by
    obtain ⟨hlt, rfl, -, -⟩ := (member_eq_ok_iff s q.member m).mp hm
    exact Sound.tables_fit h hlt hindex hindexLt
  constructor
  · rintro ⟨s', hs'⟩
    obtain ⟨q', -, -, old, hold, keptGuarantee, keptElastic, hkept, -⟩ :=
      (abort_ok_iff q.member zero true () s s').mp hs'
    obtain rfl := ok.inj (hold.symm.trans hm)
    exact ((keptByAbort_zero_iff hlimit hfit _).mp hkept).1
  · intro hbound
    exact abort_completes_of_kept h hpending hm
      ((keptByAbort_zero_iff hlimit hfit _).mpr ⟨hbound, rfl⟩) (fun _ => by simp)
      (fun _ => by simp)

end Calls

/-- Every open transaction can be closed each way, and every member without an
open transaction can be retired. -/
def Settleable (s : Ledger) : Prop :=
  (∀ q, s.pending = some q →
    (∀ retained, ∃ s', Ledger.abort q.member retained false s = (.ok (), s')) ∧
    (∃ s', Ledger.abort q.member Resources.zero true s = (.ok (), s')) ∧
    ∀ m, s.member q.member = .ok m → m.quarantined = false →
      ∃ s', Ledger.commit q.member s = (.ok (), s')) ∧
  ∀ token m, s.member token = .ok m → (∀ q, s.pending = some q → q.member ≠ token) →
    ∃ s', Ledger.retire token true s = (.ok (), s')

/-- The owner of the open transaction has committed no more leaf tables than the
spans of its page window. -/
def TablesFitWindow (s : Ledger) : Prop :=
  ∀ q m limit, s.pending = some q → s.member q.member = .ok m →
    s.pageLimit q.member = .ok limit →
      m.guaranteed.tables.toNat + m.elastic.tables.toNat ≤
        (divCeil limit pagesPerLeafTable).toNat

/-- A reachable ledger can settle everything exactly when the owner of the open
transaction keeps within its table window. -/
theorem settleable_iff {available : Resources} {s : Ledger} (h : Reachable available s) :
    Settleable s ↔ TablesFitWindow s := by
  have hsound := h.sound
  constructor
  · rintro ⟨hopen, -⟩ q m limit hpending hm hlimit
    exact (abort_clean_completes_iff hsound hpending hm hlimit).mp (hopen q hpending).2.1
  intro hwindow
  refine ⟨fun q hpending => ⟨abort_failed_completes hsound hpending, ?_, ?_⟩, ?_⟩
  · obtain ⟨m, hm⟩ := (named_iff s q.member).mp (hsound.kept.pending_named q hpending)
    obtain ⟨subject, _, _, hsubject, -, -, -⟩ := hsound.lookup hm
    have hlimit := (pageLimit_eq_ok_iff s q.member _).mpr ⟨subject, hsubject, rfl⟩
    exact (abort_clean_completes_iff hsound hpending hm hlimit).mpr
      (hwindow q m _ hpending hm hlimit)
  · intro m hm hclear
    exact commit_completes hsound hpending hm hclear
  · intro token m hm hother
    exact retire_completes hsound hm hother

/-- A reachable state in which the window holds: the open transaction is the
member's first. -/
theorem settleable_first : Settleable (sampleLedger.after [.bind sampleIdentity,
    .begin ⟨0, 1⟩ 1 ⟨⟨12288, 3, 3, 1, 2⟩, Resources.zero, 0⟩]) := by
  apply (settleable_iff (sampleLedger_reachable _)).mpr
  intro q m limit hpending hm hlimit
  have howner : (sampleLedger.after [.bind sampleIdentity,
      .begin ⟨0, 1⟩ 1 ⟨⟨12288, 3, 3, 1, 2⟩, zero, 0⟩]).pending =
        some ⟨⟨0, 1⟩, 1, 1, ⟨4096, 1, 1, 0, 1⟩, ⟨8192, 2, 2, 1, 1⟩⟩ := by
    decide +kernel
  obtain rfl := Option.mem_unique hpending howner
  have hmember : (sampleLedger.after [.bind sampleIdentity,
      .begin ⟨0, 1⟩ 1 ⟨⟨12288, 3, 3, 1, 2⟩, zero, 0⟩]).member ⟨0, 1⟩ =
        .ok { Member.default with epoch := 1, live := true } := by
    decide +kernel
  obtain rfl := Except.ok.inj (hm.symm.trans hmember)
  exact Nat.zero_le _

/-- One page with two leaf tables was committed under a window of one span, and a
second page is open when the member is quarantined. -/
def stuckLedger : Ledger :=
  { sampleLedger with
    free := ⟨245760, 60, 60, 62, 61⟩
    guaranteeFree := sampleLedger.guaranteeFree.setIfInBounds 0 ⟨0, 0, 0, 1, 1⟩
    members := sampleLedger.members.setIfInBounds 0
      { epoch := 1
        live := true
        quarantined := true
        pages := 1
        heldPayloadPages := 0
        guaranteePages := 1
        guaranteed := ⟨4096, 1, 1, 0, 1⟩
        elastic := ⟨8192, 2, 2, 1, 1⟩ }
    pending := some
      { member := ⟨0, 1⟩
        pages := 1
        guaranteePages := 1
        guaranteed := ⟨4096, 1, 1, 0, 0⟩
        elastic := Resources.zero } }

theorem stuckLedger_refuses :
    Plan.validate [⟨0, 65536, .ordinaryTail⟩] [⟨0, 12⟩, ⟨4096, 12⟩, ⟨8192, 12⟩]
      ⟨12288, 3, 3, 1, 2⟩ = .ok ⟨⟨12288, 3, 3, 1, 2⟩, Resources.zero, 0⟩ ∧
    Plan.validate [⟨0, 65536, .ordinaryTail⟩] [⟨12288, 12⟩] ⟨4096, 1, 1, 0, 0⟩ =
      .ok ⟨⟨4096, 1, 1, 0, 0⟩, Resources.zero, 0⟩ ∧
    sampleLedger.after [.bind sampleIdentity,
      .begin ⟨0, 1⟩ 1 ⟨⟨12288, 3, 3, 1, 2⟩, Resources.zero, 0⟩, .commit ⟨0, 1⟩,
      .begin ⟨0, 1⟩ 1 ⟨⟨4096, 1, 1, 0, 0⟩, Resources.zero, 0⟩, .quarantine ⟨0, 1⟩] =
        stuckLedger ∧
    Ledger.abort ⟨0, 1⟩ Resources.zero true stuckLedger =
      (.error (.returned .cleanup), stuckLedger) ∧
    Ledger.commit ⟨0, 1⟩ stuckLedger = (.error (.returned .cleanup), stuckLedger) := by
  decide +kernel

end SlimeOs.PrivateMemorySettlement
