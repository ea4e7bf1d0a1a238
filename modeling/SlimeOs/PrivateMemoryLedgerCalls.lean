import SlimeOs.PrivateMemoryLedger

/-!
What each ledger call does, said once. A call that completes has passed every
check its equivalence lists and leaves the state written there; a call that does
not complete leaves the ledger alone, except that a retirement without revocation
quarantines the member it refuses to release.
-/

namespace SlimeOs.PrivateMemoryLedgerCalls

open CheckedWord FallibleCall FallibleCall.Outcome PrivateMemoryLedger PrivateMemoryPlan Ledger
  PrivateMemoryPolicy PrivateMemoryResources FallibleCall.Call

theorem member_eq_ok_iff (s : Ledger) (token : Incarnation) (m : Member) : s.member token = .ok m ↔
      ∃ h : token.subject < maxSubjects, s.members[token.subject] = m ∧ m.live = true ∧
        m.epoch = token.epoch := by
  simp only [member, okOr_eq_ok_iff, Option.filter_eq_some_iff,
    Vector.getElem?_eq_some_iff, Bool.and_eq_true, beq_iff_eq]
  constructor
  · rintro ⟨⟨h, hm⟩, hlive, hepoch⟩
    exact ⟨h, hm, hlive, hepoch⟩
  · rintro ⟨h, hm, hlive, hepoch⟩
    exact ⟨⟨h, hm⟩, hlive, hepoch⟩

theorem subject_lt_of_member {s : Ledger} {token : Incarnation} {m : Member}
    (h : s.member token = .ok m) : token.subject < maxSubjects := by
  obtain ⟨hlt, _⟩ := (member_eq_ok_iff s token m).mp h
  exact hlt

theorem modifyMember_ok_iff (position : Nat) (f : Member → Member) (u : Unit) (s s' : Ledger) :
    modifyMember position f s = (.ok u, s') ↔
      ∃ h : position < maxSubjects,
        { s with members := s.members.set position (f s.members[position]) } = s' := by
  unfold modifyMember
  split
  next h => simp [h]
  next h => simp [h]

theorem setGuaranteeFree_ok_iff (index : Nat) (resources : Resources) (u : Unit) (s s' : Ledger) :
    setGuaranteeFree index resources s = (.ok u, s') ↔
      ∃ h : index < maxEntitlements,
        { s with guaranteeFree := s.guaranteeFree.set index resources } = s' := by
  unfold setGuaranteeFree
  split
  next h => simp [h]
  next h => simp [h]

theorem pendingOf_eq_ok_iff (s : Ledger) (token : Incarnation) (q : Pending) :
    s.pendingOf token = .ok q ↔ s.pending = some q ∧ q.member = token := by
  simp [pendingOf]

theorem bound_and_exists (p : Prop) (q : p → Prop) : (p ∧ ∃ h : p, q h) ↔ ∃ h : p, q h :=
  ⟨And.right, fun h => ⟨h.1, h⟩⟩

/-! The calls that complete. -/

variable (token : Incarnation) (resources : Resources)

theorem bindWithMaximum_ok_iff (identity : Identity) (binding : Binding) (s s' : Ledger) :
    bindWithMaximum identity s = (.ok binding, s') ↔
      ∃ index, s.policy.subjectIndex identity = some index ∧
      ∃ subject, s.policy.subject index = some subject ∧
      ∃ member, s.members[index]? = some member ∧ member.live = false ∧
      ∃ epoch, checkedAdd member.epoch 1 = some epoch ∧
        ⟨⟨index, epoch⟩, if subject.maximumMode == fixed then subject.maximumPages
          else s.poolPages⟩ = binding ∧
      ∃ h : index < maxSubjects,
        { s with
          members := s.members.set index
            { s.members[index] with epoch := epoch, live := true } } = s' := by
  simp only [bindWithMaximum, Call.bind_ok_iff, read_ok_iff, lift_ok_iff,
    rejectIf_ok_iff, pure_ok_iff, modifyMember_ok_iff, okOr_eq_ok_iff,
    unwrap_eq_ok_iff, exists_and_left, ↓existsAndEq, true_and, and_assoc, exists_const,
    exists_prop, bound_and_exists, Vector.getElem_set_self, Vector.set_set]

theorem begin_ok_iff (pages : UInt64) (plan : Plan) (u : Unit) (s s' : Ledger) :
    begin token pages plan s = (.ok u, s') ↔
      s.pending.isSome = false ∧ ∃ member, s.member token = .ok member ∧
      member.quarantined = false ∧ ∃ index, s.entitlement token = .ok index ∧
      ∃ entitlement, s.policy.entitlement index = some entitlement ∧
      ∃ held, checkedAdd member.pages member.heldPayloadPages = some held ∧
      ∃ requested, checkedAdd held pages = some requested ∧ ∃ limit, s.pageLimit token = .ok limit ∧
      ∃ total redeemed,
        (List.range s.policy.subjectCount).foldlM (s.addCohortMember entitlement) (pages, 0) =
          .ok (total, redeemed) ∧
      (decide (limit < requested) ||
        decide ((if entitlement.maximumMode == fixed then entitlement.maximumPages
          else s.poolPages) < total)) = false ∧
      ∃ payload, checkedMul pages pageBytes = some payload ∧
      decide (plan.resources.bytes < payload) = false ∧
      (pages == 0 && plan.resources != Resources.zero) = false ∧
      ∃ guaranteePages guaranteed,
        s.redeem index entitlement redeemed pages plan = .ok (guaranteePages, guaranteed) ∧
      ∃ elastic, plan.resources.subtract guaranteed = .ok elastic ∧
      ∃ free, s.free.subtract elastic = .ok free ∧
      ∃ oldGuaranteeFree, s.guaranteeFree[index]? = some oldGuaranteeFree ∧
      ∃ guaranteeFree, oldGuaranteeFree.subtract guaranteed = .ok guaranteeFree ∧
      (∃ sum, member.guaranteed.checkedAdd guaranteed = .ok sum) ∧
      (∃ sum, member.elastic.checkedAdd elastic = .ok sum) ∧
      ∃ h : index < maxEntitlements,
        { s with
          free := free
          guaranteeFree := s.guaranteeFree.set index guaranteeFree
          pending := some ⟨token, pages, guaranteePages, guaranteed, elastic⟩ } = s' := by
  simp [begin, setGuaranteeFree_ok_iff, and_assoc]

theorem commit_ok_iff (u : Unit) (s s' : Ledger) : commit token s = (.ok u, s') ↔
      ∃ q, s.pending = some q ∧ q.member = token ∧ ∃ old, s.member token = .ok old ∧
      old.quarantined = false ∧
      ∃ guaranteed, old.guaranteed.checkedAdd q.guaranteed = .ok guaranteed ∧
      ∃ elastic, old.elastic.checkedAdd q.elastic = .ok elastic ∧
      ∃ pages, checkedAdd old.pages q.pages = some pages ∧
      ∃ guaranteePages, checkedAdd old.guaranteePages q.guaranteePages = some guaranteePages ∧
      ∃ h : token.subject < maxSubjects,
        { s with
          members := s.members.set token.subject
            { s.members[token.subject] with
              guaranteed := guaranteed
              elastic := elastic
              pages := pages
              guaranteePages := guaranteePages }
          pending := none } = s' := by
  simp [commit, modifyMember_ok_iff, pendingOf_eq_ok_iff, and_assoc]

theorem abort_ok_iff (retained : Resources) (clean : Bool) (u : Unit) (s s' : Ledger) :
    abort token retained clean s = (.ok u, s') ↔
      ∃ q, s.pending = some q ∧ q.member = token ∧ ∃ old, s.member token = .ok old ∧
      ∃ keptGuarantee keptElastic,
        s.keptByAbort token old q retained clean = .ok (keptGuarantee, keptElastic) ∧
      ∃ index, s.entitlement token = .ok index ∧
      ∃ oldGuaranteeFree, s.guaranteeFree[index]? = some oldGuaranteeFree ∧
      ∃ returnedGuarantee, q.guaranteed.subtract keptGuarantee = .ok returnedGuarantee ∧
      ∃ guaranteeFree, oldGuaranteeFree.checkedAdd returnedGuarantee = .ok guaranteeFree ∧
      ∃ returnedElastic, q.elastic.subtract keptElastic = .ok returnedElastic ∧
      ∃ free spent, s.refundCommon returnedElastic = .ok (free, spent) ∧
      ∃ guaranteed, old.guaranteed.checkedAdd keptGuarantee = .ok guaranteed ∧
      ∃ elastic, old.elastic.checkedAdd keptElastic = .ok elastic ∧
      ∃ held, checkedAdd old.heldPayloadPages (if clean then 0 else q.pages) = some held ∧
      ∃ guaranteePages,
        checkedAdd old.guaranteePages (if clean then 0 else q.guaranteePages) =
          some guaranteePages ∧
      ∃ (h : index < maxEntitlements) (h' : token.subject < maxSubjects),
        { s with
          free := free
          operationalSpent := spent
          guaranteeFree := s.guaranteeFree.set index guaranteeFree
          members := s.members.set token.subject
            { s.members[token.subject] with
              guaranteed := guaranteed
              elastic := elastic
              quarantined := old.quarantined || !clean
              heldPayloadPages := held
              guaranteePages := guaranteePages }
          pending := none } = s' := by
  simp [abort, modifyMember_ok_iff, setGuaranteeFree_ok_iff, pendingOf_eq_ok_iff, and_assoc]

theorem retire_ok_iff (revoked : Bool) (u : Unit) (s s' : Ledger) :
    retire token revoked s = (.ok u, s') ↔ revoked = true ∧ ∃ old, s.member token = .ok old ∧
      (s.pending.any fun pending => pending.member == token) = false ∧
      ∃ index, s.entitlement token = .ok index ∧
      ∃ oldGuaranteeFree, s.guaranteeFree[index]? = some oldGuaranteeFree ∧
      ∃ guaranteed, oldGuaranteeFree.checkedAdd old.guaranteed = .ok guaranteed ∧
      ∃ total, s.guaranteeTotal[index]? = some total ∧
      (∃ rest, total.subtract guaranteed = .ok rest) ∧
      ∃ free spent, s.refundCommon old.elastic = .ok (free, spent) ∧
      ∃ (h : index < maxEntitlements) (h' : token.subject < maxSubjects),
        { s with
          free := free
          operationalSpent := spent
          guaranteeFree := s.guaranteeFree.set index guaranteed
          members := s.members.set token.subject { Member.default with epoch := old.epoch } } =
            s' := by
  rcases revoked with _ | _
  · simp [retire]
  simp [retire, modifyMember_ok_iff, setGuaranteeFree_ok_iff, and_assoc]

/-! The calls that do not complete. -/

theorem modifyMember_completes {position : Nat} (h : position < maxSubjects)
    (f : Member → Member) : Completes (modifyMember position f) := by
  intro s
  exact ⟨(), _, (modifyMember_ok_iff position f () s _).mpr ⟨h, rfl⟩⟩

variable {index : Nat}

theorem setGuaranteeFree_completes (h : index < maxEntitlements)
    (resources : Resources) : Completes (setGuaranteeFree index resources) := by
  intro s
  exact ⟨(), _, (setGuaranteeFree_ok_iff index resources () s _).mpr ⟨h, rfl⟩⟩

theorem lt_of_unwrap {ε α : Type} {n : Nat} {table : Vector α n} {entry : α}
    (h : (unwrap table[index]? : Outcome ε α) = .ok entry) : index < n := by
  obtain ⟨hlt, _⟩ := Vector.getElem?_eq_some_iff.mp (unwrap_eq_ok_iff.mp h)
  exact hlt

theorem retainUnbegun_allOrNothing (s : Ledger) :
    AllOrNothing (retainUnbegun token resources) s := by
  apply allOrNothing_read
  refine allOrNothing_rejectIf fun _ => ?_
  refine allOrNothing_lift fun old hold => ?_
  refine allOrNothing_rejectIf fun _ => ?_
  refine allOrNothing_lift fun free _ => ?_
  refine allOrNothing_lift fun elastic _ => ?_
  have hlt := subject_lt_of_member hold
  apply allOrNothing_of_completes
  refine completes_bind completes_modify fun _ => ?_
  refine completes_bind (modifyMember_completes hlt _) fun _ => ?_
  exact modifyMember_completes hlt _

theorem reconcileOwnership_allOrNothing (root system : Resources) (s : Ledger) :
    AllOrNothing (reconcileOwnership root system) s := by
  apply allOrNothing_read
  refine allOrNothing_rejectIf fun _ => ?_
  iterate 9 refine allOrNothing_lift fun _ _ => ?_
  apply allOrNothing_of_completes
  iterate 3 refine completes_bind completes_modify fun _ => ?_
  exact completes_modify

theorem reserveRoot_allOrNothing (s : Ledger) : AllOrNothing (reserveRoot resources) s := by
  apply allOrNothing_read
  refine allOrNothing_rejectIf fun _ => ?_
  iterate 2 refine allOrNothing_lift fun _ _ => ?_
  apply allOrNothing_of_completes
  refine completes_bind completes_modify fun _ => ?_
  exact completes_modify

theorem settleRoot_allOrNothing (used : Resources) (s : Ledger) :
    AllOrNothing (settleRoot used) s := by
  apply allOrNothing_read
  iterate 4 refine allOrNothing_lift fun _ _ => ?_
  apply allOrNothing_of_completes
  iterate 3 refine completes_bind completes_modify fun _ => ?_
  exact completes_modify

theorem bindWithMaximum_allOrNothing (identity : Identity) (s : Ledger) :
    AllOrNothing (bindWithMaximum identity) s := by
  apply allOrNothing_read
  iterate 2 refine allOrNothing_lift fun _ _ => ?_
  refine allOrNothing_lift fun member hmember => ?_
  refine allOrNothing_rejectIf fun _ => ?_
  refine allOrNothing_lift fun epoch _ => ?_
  have hlt := lt_of_unwrap hmember
  apply allOrNothing_of_completes
  iterate 2 refine completes_bind (modifyMember_completes hlt _) fun _ => ?_
  exact completes_pure _

theorem quarantine_allOrNothing (s : Ledger) : AllOrNothing (quarantine token) s := by
  apply allOrNothing_read
  refine allOrNothing_lift fun old hold => ?_
  exact allOrNothing_of_completes (modifyMember_completes (subject_lt_of_member hold) _)

theorem begin_allOrNothing (pages : UInt64) (plan : Plan) (s : Ledger) :
    AllOrNothing (begin token pages plan) s := by
  apply allOrNothing_read
  refine allOrNothing_rejectIf fun _ => ?_
  refine allOrNothing_lift fun _ _ => ?_
  refine allOrNothing_rejectIf fun _ => ?_
  iterate 6 refine allOrNothing_lift fun _ _ => ?_
  refine allOrNothing_rejectIf fun _ => ?_
  refine allOrNothing_lift fun _ _ => ?_
  iterate 2 refine allOrNothing_rejectIf fun _ => ?_
  iterate 3 refine allOrNothing_lift fun _ _ => ?_
  refine allOrNothing_lift fun guaranteeFree hguaranteeFree => ?_
  iterate 3 refine allOrNothing_lift fun _ _ => ?_
  have hlt := lt_of_unwrap hguaranteeFree
  apply allOrNothing_of_completes
  refine completes_bind completes_modify fun _ => ?_
  refine completes_bind (setGuaranteeFree_completes hlt _) fun _ => ?_
  exact completes_modify

theorem commit_allOrNothing (s : Ledger) : AllOrNothing (commit token) s := by
  apply allOrNothing_read
  refine allOrNothing_lift fun _ _ => ?_
  refine allOrNothing_lift fun old hold => ?_
  refine allOrNothing_rejectIf fun _ => ?_
  iterate 4 refine allOrNothing_lift fun _ _ => ?_
  have hlt := subject_lt_of_member hold
  apply allOrNothing_of_completes
  iterate 4 refine completes_bind (modifyMember_completes hlt _) fun _ => ?_
  exact completes_modify

theorem abort_allOrNothing (retained : Resources) (clean : Bool)
    (s : Ledger) : AllOrNothing (abort token retained clean) s := by
  apply allOrNothing_read
  refine allOrNothing_lift fun _ _ => ?_
  refine allOrNothing_lift fun old hold => ?_
  iterate 2 refine allOrNothing_lift fun _ _ => ?_
  refine allOrNothing_lift fun guaranteeFree hguaranteeFree => ?_
  iterate 8 refine allOrNothing_lift fun _ _ => ?_
  have hlt := subject_lt_of_member hold
  have hindex := lt_of_unwrap hguaranteeFree
  apply allOrNothing_of_completes
  refine completes_bind (setGuaranteeFree_completes hindex _) fun _ => ?_
  iterate 2 refine completes_bind completes_modify fun _ => ?_
  iterate 5 refine completes_bind (modifyMember_completes hlt _) fun _ => ?_
  exact completes_modify

theorem retire_allOrNothing (s : Ledger) : AllOrNothing (retire token true) s := by
  apply allOrNothing_read
  refine allOrNothing_lift fun old hold => ?_
  refine allOrNothing_rejectIf fun _ => ?_
  refine allOrNothing_lift fun _ _ => ?_
  refine allOrNothing_lift fun guaranteeFree hguaranteeFree => ?_
  iterate 4 refine allOrNothing_lift fun _ _ => ?_
  have hlt := subject_lt_of_member hold
  have hindex := lt_of_unwrap hguaranteeFree
  apply allOrNothing_of_completes
  refine completes_bind (setGuaranteeFree_completes hindex _) fun _ => ?_
  iterate 2 refine completes_bind completes_modify fun _ => ?_
  exact modifyMember_completes hlt _

/-- Retirement without revocation fails. It changes nothing, or quarantines the member that stays
charged. -/
theorem retire_unrevoked (s : Ledger) : (∃ fault, (retire token false s).1 = .error fault) ∧
      ((retire token false s).2 = s ∨
        ∃ h : token.subject < maxSubjects,
          (retire token false s).2 =
            { s with
              members := s.members.set token.subject
                { s.members[token.subject] with quarantined := true } }) := by
  rcases hmember : s.member token with fault | old
  · simp [retire, bind_apply, Call.read, Call.lift, hmember]
  have hlt := subject_lt_of_member hmember
  rcases hown : s.pending.any fun pending => pending.member == token with _ | _
  · refine ⟨⟨.returned .cleanup, ?_⟩, .inr ⟨hlt, ?_⟩⟩ <;>
      simp [retire, bind_apply, Call.read, Call.lift, Call.rejectIf,
        rejectIf, modifyMember, hmember, hown, hlt]
  · refine ⟨⟨.returned .transaction, ?_⟩, .inl ?_⟩ <;>
      simp [retire, bind_apply, Call.read, Call.lift, Call.rejectIf, rejectIf, hmember, hown]

theorem retire_unrevoked_step (s : Ledger) :
    s.step (.retire token false) = (retire token false s).2 := by
  obtain ⟨⟨fault, hfault⟩, -⟩ := retire_unrevoked token s
  simp only [step, Operation.perform, bind_apply]
  rcases hcall : retire token false s with ⟨_ | _, _⟩
  · rfl
  · simp [hcall] at hfault

theorem perform_allOrNothing (s : Ledger) (operation : Operation)
    (hrevoked : ∀ token, operation ≠ .retire token false) : AllOrNothing operation.perform s := by
  cases operation with
  | bind identity =>
    exact allOrNothing_bind_pure some
      (allOrNothing_bind_pure Binding.token (bindWithMaximum_allOrNothing identity s))
  | bindWithMaximum identity =>
    exact allOrNothing_bind_pure _ (bindWithMaximum_allOrNothing identity s)
  | begin token pages plan =>
    exact allOrNothing_bind_pure _ (begin_allOrNothing token pages plan s)
  | commit token => exact allOrNothing_bind_pure _ (commit_allOrNothing token s)
  | abort token retained clean =>
    exact allOrNothing_bind_pure _ (abort_allOrNothing token retained clean s)
  | retire token revoked =>
    rcases revoked with _ | _
    · exact absurd rfl (hrevoked token)
    · exact allOrNothing_bind_pure _ (retire_allOrNothing token s)
  | quarantine token => exact allOrNothing_bind_pure _ (quarantine_allOrNothing token s)
  | retainUnbegun token resources =>
    exact allOrNothing_bind_pure _ (retainUnbegun_allOrNothing token resources s)
  | reserveRoot resources =>
    exact allOrNothing_bind_pure _ (reserveRoot_allOrNothing resources s)
  | settleRoot used => exact allOrNothing_bind_pure _ (settleRoot_allOrNothing used s)
  | reconcileSystem resources =>
    exact allOrNothing_bind_pure _
      (allOrNothing_read (reconcileOwnership_allOrNothing s.rootOwned resources s))
  | reconcileOwnership root system =>
    exact allOrNothing_bind_pure _ (reconcileOwnership_allOrNothing root system s)

end SlimeOs.PrivateMemoryLedgerCalls
