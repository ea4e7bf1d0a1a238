import SlimeOs.PrivateMemoryLimits

/-!
Failure atomicity and the life of a token. A call that fails leaves the ledger
as it was, except that an unrevoked retirement quarantines its member. A
subject's epoch grows with every binding and with nothing else, so a retired
token is refused for good and no token is handed out twice.
-/

namespace SlimeOs.PrivateMemoryIncarnations

open CheckedWord FallibleCall PrivateMemoryAccounts PrivateMemoryConservation PrivateMemoryLedger
  PrivateMemoryLedgerCalls PrivateMemoryLimits PrivateMemoryPlan PrivateMemoryPolicy
  PrivateMemoryResources FallibleCall.Call

/-! What a failed call leaves behind. -/

def withQuarantined (s : Ledger) (position : Nat) (h : position < maxSubjects) : Ledger :=
  { s with members := s.members.set position { s.members[position] with quarantined := true } }

theorem step_of_error (s : Ledger) (operation : Operation) {fault : Fault Error}
    (h : (operation.perform s).1 = .error fault) :
    s.step operation = s ∨ ∃ token, ∃ hlt : token.subject < maxSubjects,
      operation = .retire token false ∧ s.step operation = withQuarantined s token.subject hlt := by
  by_cases hretire : ∃ token, operation = .retire token false
  · obtain ⟨token, rfl⟩ := hretire
    obtain ⟨⟨-, -⟩, hstate⟩ := retire_unrevoked token s
    have hstep := retire_unrevoked_step token s
    rcases hstate with hsame | ⟨hlt, hquarantined⟩
    · exact .inl (hstep.trans hsame)
    · exact .inr ⟨token, hlt, rfl, hstep.trans hquarantined⟩
  · left
    exact state_eq_of_error
      (perform_allOrNothing s operation fun token htoken => hretire ⟨token, htoken⟩) h

/-! Tokens and epochs. -/

variable {token : Incarnation} {s : Ledger} {available : Resources} {operation : Operation}

section Epochs

variable {s s' : Ledger} {operation : Operation}

/-- An epoch moves only when an idle subject is bound, which a member needs to come alive. -/
theorem Change.epoch (hchange : Change s operation s') (position : Nat)
    (hlt : position < maxSubjects) :
    (s'.members[position].epoch = s.members[position].epoch ∧
      (s'.members[position].live = true → s.members[position].live = true)) ∨
    (s.members[position].live = false ∧
      s'.members[position].epoch.toNat = s.members[position].epoch.toNat + 1) := by
  have hset : ∀ (written : Nat) (hwritten : written < maxSubjects) (m : Member),
      m.epoch = s.members[written].epoch → (m.live = true → s.members[written].live = true) →
      (s.members.set written m)[position].epoch = s.members[position].epoch ∧
        ((s.members.set written m)[position].live = true → s.members[position].live = true) := by
    intro written hwritten m hepoch hlive
    rw [Vector.getElem_set]
    split
    next hsame =>
      subst hsame
      exact ⟨hepoch, hlive⟩
    · exact ⟨rfl, id⟩
  cases hchange with
  | @bound _ written epoch hwritten _ hidle hepoch =>
    simp only [Vector.getElem_set]
    split
    next hsame =>
      subst hsame
      exact .inr ⟨hidle, hepoch⟩
    · exact .inl ⟨rfl, id⟩
  | quarantined hwritten => exact .inl (hset _ hwritten _ rfl id)
  | retained hwritten _ => exact .inl (hset _ hwritten _ rfl id)
  | rootReserved _ _ => exact .inl ⟨rfl, id⟩
  | rootSettled _ _ _ => exact .inl ⟨rfl, id⟩
  | reconciled _ _ => exact .inl ⟨rfl, id⟩
  | begun _ _ _ _ _ _ _ _ _ _ _ _ _ _ => exact .inl ⟨rfl, id⟩
  | committed _ hwritten _ _ _ _ => exact .inl (hset _ hwritten _ rfl id)
  | aborted _ _ hwritten _ _ _ _ _ _ _ _ => exact .inl (hset _ hwritten _ rfl id)
  | retired hwritten _ _ _ _ _ _ _ =>
    exact .inl (hset _ hwritten _ rfl fun hlive => absurd hlive Bool.false_ne_true)

/-- The token's epoch is over: its subject has a later one, or is idle in it. -/
def Stale (s : Ledger) (token : Incarnation) : Prop :=
  ∀ h : token.subject < maxSubjects,
    token.epoch.toNat < s.members[token.subject].epoch.toNat ∨
      (s.members[token.subject].epoch = token.epoch ∧ s.members[token.subject].live = false)

theorem Change.stale (hchange : Change s operation s') (h : Stale s token) : Stale s' token := by
  intro hlt
  rcases Change.epoch hchange token.subject hlt with ⟨hepoch, hlive⟩ | ⟨-, hepoch⟩
  · rcases h hlt with hlater | ⟨hsame, hdead⟩
    · left
      rw [hepoch]
      exact hlater
    right
    refine ⟨hepoch.trans hsame, ?_⟩
    by_contra halive
    have hbefore := hlive (by simpa using halive)
    simp [hdead] at hbefore
  · left
    rcases h hlt with hlater | ⟨hsame, -⟩
    · omega
    · rw [hepoch, hsame]
      omega

theorem Stale.not_named (h : Stale s token) : ¬ Named s token := by
  rintro ⟨hlt, hlive, hepoch⟩
  rcases h hlt with hlater | ⟨-, hdead⟩
  · rw [hepoch] at hlater
    omega
  · simp [hlive] at hdead

theorem member_of_not_named (h : ¬ Named s token) :
    s.member token = .error (.returned .incarnation) := by
  rcases hmember : s.member token with fault | m
  · unfold Ledger.member Outcome.okOr at hmember
    split at hmember
    · simp at hmember
    · rw [← hmember]
  · exact absurd ((named_iff s token).mpr ⟨m, hmember⟩) h

end Epochs

theorem retire_stale {s' : Ledger} {u : Unit}
    (h : Ledger.retire token true s = (.ok u, s')) : Stale s' token := by
  obtain ⟨-, old, hold, -, _, -, _, -, _, -, _, -, -, _, _, -, _, -, rfl⟩ :=
    (retire_ok_iff token true u s s').mp h
  obtain ⟨_, rfl, -, hepoch⟩ := (member_eq_ok_iff s token old).mp hold
  intro _
  right
  simp [hepoch, Member.default]

theorem after_stale (hsound : Sound available s) (h : Stale s token) (operations : List Operation) :
    Stale (s.after operations) token := by
  have hrun := run_invariant Ledger.step (fun s => Sound available s ∧ Stale s token) ?_ s
    operations ⟨hsound, h⟩
  · exact hrun.2
  rintro s operation ⟨hsound, hstale⟩
  refine ⟨step_sound s operation hsound, ?_⟩
  rcases step_change s hsound.balanced.policy operation with hsame | hchange
  · rw [hsame]
    exact hstale
  · exact Change.stale hchange hstale

theorem perform_of_not_named (h : ¬ Named s token) (htoken : operation.token = some token) :
    Refuses operation.perform s := by
  have hmember : Refuses (Call.lift (s.member token) : LedgerCall Member) s :=
    refuses_lift (member_of_not_named h)
  cases operation with
  | begin t pages plan =>
    obtain rfl := Option.some.inj htoken
    exact refuses_bind (refuses_read (refuses_rejectIf (refuses_bind hmember)))
  | commit t =>
    obtain rfl := Option.some.inj htoken
    exact refuses_bind (refuses_read (refuses_okOr fun _ => refuses_bind hmember))
  | abort t retained clean =>
    obtain rfl := Option.some.inj htoken
    exact refuses_bind (refuses_read (refuses_okOr fun _ => refuses_bind hmember))
  | retire t revoked =>
    obtain rfl := Option.some.inj htoken
    exact refuses_bind (refuses_read (refuses_bind hmember))
  | quarantine t =>
    obtain rfl := Option.some.inj htoken
    exact refuses_bind (refuses_read (refuses_bind hmember))
  | retainUnbegun t resources =>
    obtain rfl := Option.some.inj htoken
    exact refuses_bind (refuses_read (refuses_rejectIf (refuses_bind hmember)))
  | bind _ => nomatch htoken
  | bindWithMaximum _ => nomatch htoken
  | reserveRoot _ => nomatch htoken
  | settleRoot _ => nomatch htoken
  | reconcileSystem _ => nomatch htoken
  | reconcileOwnership _ _ => nomatch htoken

/-- The questions the ledger answers about a token are refused with it. -/
def QueriesRefused (s : Ledger) (token : Incarnation) : Prop :=
  s.ensureGrowable token = .error (.returned .incarnation) ∧
  s.pages token = .error (.returned .incarnation) ∧
  s.guaranteedHeld token = .error (.returned .incarnation) ∧
  s.entitlementOf token = .error (.returned .incarnation) ∧
  s.redeemableGuarantee token = .error (.returned .incarnation)

theorem queriesRefused_of_not_named (h : ¬ Named s token) : QueriesRefused s token := by
  have hmember := member_of_not_named h
  refine ⟨?_, ?_, ?_, ?_, ?_⟩
  · rw [Ledger.ensureGrowable, hmember]
    rfl
  · rw [Ledger.pages, hmember]
    rfl
  · rw [Ledger.guaranteedHeld, hmember]
    rfl
  · rw [Ledger.entitlementOf, hmember]
    rfl
  · rw [Ledger.redeemableGuarantee, hmember]
    rfl

/-! Tokens handed out. -/

def tokens : Ledger → List Operation → List Incarnation
  | _, [] => []
  | s, operation :: operations =>
    match (operation.perform s).1 with
    | .ok (some token) => token :: tokens (s.step operation) operations
    | _ => tokens (s.step operation) operations

theorem perform_token (h : (operation.perform s).1 = .ok (some token)) :
    ∃ hlt : token.subject < maxSubjects,
      token.epoch.toNat = s.members[token.subject].epoch.toNat + 1 ∧
        (s.step operation).members[token.subject].epoch = token.epoch := by
  have hbind : ∀ identity binding s', Ledger.bindWithMaximum identity s = (.ok binding, s') →
      ∃ hlt : binding.token.subject < maxSubjects,
        binding.token.epoch.toNat = s.members[binding.token.subject].epoch.toNat + 1 ∧
          s'.members[binding.token.subject].epoch = binding.token.epoch := by
    intro identity binding s' hcall
    obtain ⟨index, -, subject, -, member, hmember, -, epoch, hepoch, rfl, hlt, rfl⟩ :=
      (bindWithMaximum_ok_iff identity binding s s').mp hcall
    obtain ⟨_, rfl⟩ := Vector.getElem_of_getElem? hmember
    exact ⟨hlt, checkedAdd_eq_some_iff.mp hepoch, by simp⟩
  have hstep : operation.perform s = (.ok (some token), s.step operation) := by
    rw [Ledger.step, ← h]
  cases operation with
  | bind identity =>
    simp only [Operation.perform, Ledger.bind, Call.bind_ok_iff, pure_ok_iff,
      Option.some.injEq] at hstep
    obtain ⟨_, _, ⟨binding, s', hcall, rfl, rfl⟩, rfl, hs'⟩ := hstep
    rw [← hs']
    exact hbind identity binding s' hcall
  | bindWithMaximum identity =>
    simp only [Operation.perform, Call.bind_ok_iff, pure_ok_iff, Option.some.injEq] at hstep
    obtain ⟨binding, s', hcall, rfl, hs'⟩ := hstep
    rw [← hs']
    exact hbind identity binding s' hcall
  | _ => simp [Operation.perform] at hstep

theorem step_epoch_le (hsound : Sound available s)
    (operation : Operation) (position : Nat) (hlt : position < maxSubjects) :
    s.members[position].epoch.toNat ≤ (s.step operation).members[position].epoch.toNat := by
  rcases step_change s hsound.balanced.policy operation with hsame | hchange
  · rw [hsame]
  · rcases Change.epoch hchange position hlt with ⟨hepoch, -⟩ | ⟨-, hepoch⟩
    · rw [hepoch]
    · omega

variable (operations : List Operation)

theorem tokens_later (s : Ledger) (hsound : Sound available s) :
    ∀ token ∈ tokens s operations, ∃ hlt : token.subject < maxSubjects,
      s.members[token.subject].epoch.toNat < token.epoch.toNat := by
  induction operations generalizing s with
  | nil => simp [tokens]
  | cons operation operations ih =>
    intro token htoken
    have hrest : token ∈ tokens (s.step operation) operations →
        ∃ hlt : token.subject < maxSubjects,
          s.members[token.subject].epoch.toNat < token.epoch.toNat := by
      intro hlater
      obtain ⟨hlt, hepoch⟩ := ih (s.step operation) (step_sound s operation hsound) token hlater
      have hle := step_epoch_le hsound operation token.subject hlt
      exact ⟨hlt, by omega⟩
    rw [tokens] at htoken
    split at htoken
    next first hfirst =>
      rcases List.mem_cons.mp htoken with rfl | hlater
      · obtain ⟨hlt, hepoch, -⟩ := perform_token hfirst
        exact ⟨hlt, by omega⟩
      · exact hrest hlater
    · exact hrest htoken

theorem tokens_nodup (s : Ledger) (hsound : Sound available s) : (tokens s operations).Nodup := by
  induction operations generalizing s with
  | nil => simp [tokens]
  | cons operation operations ih =>
    have hnext := step_sound s operation hsound
    rw [tokens]
    split
    next first hfirst =>
      refine List.nodup_cons.mpr ⟨?_, ih _ hnext⟩
      intro hagain
      obtain ⟨hlt, hlater⟩ := tokens_later operations _ hnext first hagain
      obtain ⟨_, -, hepoch⟩ := perform_token hfirst
      rw [hepoch] at hlater
      omega
    · exact ih _ hnext

/-- In every reachable ledger a call that returns an error has changed nothing,
or one quarantine flag if it was an unrevoked retirement; a token whose
retirement completed is refused by every call for the rest of the run; and the
tokens a run hands out are pairwise distinct. -/
theorem reachable_atomic_stale {available : Resources} {s : Ledger} (h : Reachable available s) :
    (∀ (operation : Operation) error, (operation.perform s).1 = .error (.returned error) →
      s.step operation = s ∨ ∃ token, ∃ hlt : token.subject < maxSubjects,
        operation = .retire token false ∧
          s.step operation = withQuarantined s token.subject hlt) ∧
    (∀ token s', Ledger.retire token true s = (.ok (), s') → ∀ later,
      (∀ operation : Operation, operation.token = some token →
        ∃ error, operation.perform (s'.after later) =
          (.error (.returned error), s'.after later)) ∧
      QueriesRefused (s'.after later) token) ∧
    ∀ operations, (tokens s operations).Nodup := by
  have hsound := h.sound
  refine ⟨fun operation error herror => step_of_error s operation herror, ?_, ?_⟩
  · intro token s' hretire later
    have hnext : Sound available s' := by
      have hstep : s.step (.retire token true) = s' := by
        rw [Ledger.step, Operation.perform, bind_apply, hretire]
        rfl
      rw [← hstep]
      exact step_sound s _ hsound
    have hnamed := (after_stale hnext (retire_stale hretire) later).not_named
    exact ⟨fun operation htoken => perform_of_not_named hnamed htoken,
      queriesRefused_of_not_named hnamed⟩
  · intro operations
    exact tokens_nodup operations s hsound

theorem reachable_atomic_stale_rebound :
    ∃ s', Ledger.retire ⟨0, 1⟩ true (sampleLedger.after [.bind sampleIdentity]) = (.ok (), s') ∧
      ∃ error, (Operation.commit ⟨0, 1⟩).perform (s'.after [.bind sampleIdentity]) =
        (.error (.returned error), s'.after [.bind sampleIdentity]) := by
  have hretire : Ledger.retire ⟨0, 1⟩ true (sampleLedger.after [.bind sampleIdentity]) =
      (.ok (), { sampleLedger with
        members := sampleLedger.members.set 0 { Member.default with epoch := 1 } }) := by
    decide +kernel
  exact ⟨_, hretire, ((reachable_atomic_stale (sampleLedger_reachable _)).2.1 ⟨0, 1⟩ _ hretire
    [.bind sampleIdentity]).1 _ rfl⟩

end SlimeOs.PrivateMemoryIncarnations
