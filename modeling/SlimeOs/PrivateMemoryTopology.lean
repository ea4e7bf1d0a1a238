import SlimeOs.PrivateMemoryConservation

/-!
The topology check of the private-memory policy is exact. The first loop walks
from every instance to the end of its owners and gives up after as many steps
as there are instances, which only a cycle can use up. The walk of the second
loop has no bound of its own and ends because the first loop accepted.
-/

namespace SlimeOs.PrivateMemoryTopology

open ByteLayout FallibleCall.Outcome List PrivateMemoryPolicy PrivateMemoryConservation Relation

variable {instances : List Instance} {policy : Policy} {identity : Identity} {n : Nat}

def IsInstance (instances : List Instance) (identity : Identity) : Prop :=
  identity ∈ instances.map Instance.identity

def OwnedBy (instances : List Instance) (identity owner : Identity) : Prop :=
  ∃ entry ∈ instances, entry.identity = identity ∧ entry.owner = some owner

structure Forest (instances : List Instance) : Prop where
  nonzero : ∀ entry ∈ instances, entry.identity ≠ zeros 32
  distinct : (instances.map Instance.identity).Nodup
  owner_isInstance : ∀ identity owner, OwnedBy instances identity owner → IsInstance instances owner
  acyclic : ∀ identity, ¬ TransGen (OwnedBy instances) identity identity

/-- The instances the subject with this index and its subtree root ask for. -/
def Placed (policy : Policy) (instances : List Instance) (index : Nat) : Prop :=
  ∃ subject position entitlement, policy.subject index = some subject ∧
    policy.entitlementIndex subject.entitlement = some position ∧
    policy.entitlement position = some entitlement ∧ IsInstance instances subject.identity ∧
    (entitlement.subtreeRoot ≠ zeros 32 →
      ReflTransGen (OwnedBy instances) subject.identity entitlement.subtreeRoot)

theorem checkOwners_settles (current : Option Identity) :
    Settles (checkOwners instances n current) := by
  induction n generalizing current with
  | zero =>
    rcases current with _ | identity
    · exact settles_pure ()
    · exact settles_error _
  | succ n ih =>
    rcases current with _ | identity
    · exact settles_pure ()
    · exact settles_bind settles_okOr fun entry _ => ih entry.owner

section Distinct

variable (hdistinct : (instances.map Instance.identity).Nodup)

include hdistinct

variable {entry : Instance}

theorem ownedBy_iff (hmem : entry ∈ instances) {owner : Identity} :
    OwnedBy instances entry.identity owner ↔ entry.owner = some owner := by
  constructor
  · rintro ⟨other, hother, hsame, howner⟩
    rwa [← inj_on_of_nodup_map hdistinct hother hmem hsame]
  · exact fun howner => ⟨entry, hmem, rfl, howner⟩

theorem find?_identity (hmem : entry ∈ instances) :
    instances.find? (fun other => other.identity == entry.identity) = some entry := by
  obtain ⟨found, hfound⟩ := Option.isSome_iff_exists.mp
    (find?_isSome (p := fun other => other.identity == entry.identity).mpr ⟨entry, hmem, by simp⟩)
  have hsame := find?_some hfound
  rw [hfound, inj_on_of_nodup_map hdistinct (mem_of_find?_eq_some hfound) hmem
    (by simpa using hsame)]

theorem checkOwners_succ_eq_ok_iff : checkOwners instances (n + 1) (some identity) = .ok () ↔
      ∃ entry ∈ instances, entry.identity = identity ∧
        checkOwners instances n entry.owner = .ok () := by
  simp only [checkOwners, bind_eq_ok_iff, okOr_eq_ok_iff]
  constructor
  · rintro ⟨entry, hfound, hrest⟩
    have hsame := find?_some hfound
    exact ⟨entry, mem_of_find?_eq_some hfound, by simpa using hsame, hrest⟩
  · rintro ⟨entry, hmem, rfl, hrest⟩
    exact ⟨entry, find?_identity hdistinct hmem, hrest⟩

theorem not_transGen_of_checkOwners (h : checkOwners instances n (some identity) = .ok ()) :
    ¬ TransGen (OwnedBy instances) identity identity := by
  induction n generalizing identity with
  | zero => cases h
  | succ n ih =>
    obtain ⟨entry, hmem, rfl, hrest⟩ := (checkOwners_succ_eq_ok_iff hdistinct).mp h
    intro hcycle
    obtain ⟨owner, hedge, hback⟩ := TransGen.head'_iff.mp hcycle
    rw [(ownedBy_iff hdistinct hmem).mp hedge] at hrest
    -- the owner lies on the same cycle
    exact ih hrest (.tail' hback hedge)

theorem isInstance_of_checkOwners (h : checkOwners instances n (some identity) = .ok ()) :
    IsInstance instances identity := by
  rcases n with _ | n
  · cases h
  · obtain ⟨entry, hmem, rfl, -⟩ := (checkOwners_succ_eq_ok_iff hdistinct).mp h
    exact mem_map_of_mem hmem

/-- The walk towards a root takes no more steps than the walk that was checked,
and one more to see its end. -/
theorem reachesRoot_of_checkOwners (root : Identity)
    (h : checkOwners instances n (some identity) = .ok ()) :
    ∃ found, reachesRoot instances root (n + 1) (some identity) = .ok found ∧
      (found = true ↔ ReflTransGen (OwnedBy instances) identity root) := by
  induction n generalizing identity with
  | zero => cases h
  | succ n ih =>
    obtain ⟨entry, hmem, rfl, hrest⟩ := (checkOwners_succ_eq_ok_iff hdistinct).mp h
    rw [reachesRoot, ReflTransGen.cases_head_iff]
    simp only [ownedBy_iff hdistinct hmem, find?_identity hdistinct hmem]
    split
    next heq => exact ⟨true, rfl, by simp [heq]⟩
    next hne =>
      simp only [hne, false_or]
      change ∃ found, reachesRoot instances root (n + 1) entry.owner = .ok found ∧ _
      rcases howner : entry.owner with _ | owner
      · exact ⟨false, rfl, by simp⟩
      · rw [howner] at hrest
        simpa using ih hrest

end Distinct

/-- The instances walked through so far are distinct, so the steps left cannot
run out before the walk ends. -/
theorem Forest.checkOwners_eq_ok (hforest : Forest instances) {seen : List Identity}
    (hnodup : seen.Nodup) (hseen : ∀ earlier ∈ seen, IsInstance instances earlier ∧
      TransGen (OwnedBy instances) earlier identity)
    (hidentity : IsInstance instances identity) (hlength : seen.length + n = instances.length) :
    checkOwners instances n (some identity) = .ok () := by
  have hfresh := nodup_cons.mpr ⟨fun hmem => hforest.acyclic _ (hseen _ hmem).2, hnodup⟩
  induction n generalizing identity seen with
  | zero =>
    have hsub := cons_subset.mpr ⟨hidentity, fun earlier hmem => (hseen earlier hmem).1⟩
    have hle := (subperm_of_subset hfresh hsub).length_le
    simp only [length_cons, length_map] at hle
    omega
  | succ n ih =>
    obtain ⟨entry, hmem, rfl⟩ := mem_map.mp hidentity
    refine (checkOwners_succ_eq_ok_iff hforest.distinct).mpr ⟨entry, hmem, rfl, ?_⟩
    rcases howner : entry.owner with _ | owner
    · cases n <;> rfl
    · have hedge : OwnedBy instances entry.identity owner := ⟨entry, hmem, rfl, howner⟩
      have hwalked : ∀ earlier ∈ entry.identity :: seen, IsInstance instances earlier ∧
          TransGen (OwnedBy instances) earlier owner :=
        forall_mem_cons.mpr ⟨⟨hidentity, .single hedge⟩,
          fun earlier hmem => ⟨(hseen earlier hmem).1, (hseen earlier hmem).2.tail hedge⟩⟩
      apply ih hfresh hwalked (hforest.owner_isInstance _ _ hedge) (by grind)
      exact nodup_cons.mpr ⟨fun hmem => hforest.acyclic _ (hwalked _ hmem).2, hfresh⟩

theorem checkInstances_eq_ok_iff :
    instances.zipIdx.foldlM (checkInstance instances) () = .ok () ↔ Forest instances := by
  have hloop : instances.zipIdx.foldlM (checkInstance instances) () = .ok () ↔
      (∀ entry ∈ instances, entry.identity ≠ zeros 32 ∧
        checkOwners instances instances.length (some entry.identity) = .ok ()) ∧
      instances.Pairwise fun prior entry => prior.identity ≠ entry.identity :=
    foldlM_zipIdx_eq_ok_iff fun i entry _ => by
      simp [checkInstance, bind_eq_ok_iff]
      tauto
  rw [hloop, ← pairwise_map]
  constructor
  · rintro ⟨hwalks, hdistinct⟩
    refine ⟨fun entry hmem => (hwalks entry hmem).1, hdistinct, ?_, fun identity hcycle => ?_⟩
    · rintro _ owner ⟨entry, hmem, rfl, howner⟩
      have hwalk := (hwalks entry hmem).2
      obtain ⟨n, hn⟩ := Nat.exists_eq_succ_of_ne_zero (length_pos_of_mem hmem).ne'
      rw [hn] at hwalk
      obtain ⟨other, hother, hsame, hrest⟩ := (checkOwners_succ_eq_ok_iff hdistinct).mp hwalk
      obtain rfl := inj_on_of_nodup_map hdistinct hother hmem hsame
      rw [howner] at hrest
      exact isInstance_of_checkOwners hdistinct hrest
    · obtain ⟨_, ⟨entry, hmem, rfl, -⟩, -⟩ := TransGen.head'_iff.mp hcycle
      exact not_transGen_of_checkOwners hdistinct (hwalks entry hmem).2 hcycle
  · intro hforest
    refine ⟨fun entry hmem => ⟨hforest.nonzero entry hmem, ?_⟩, hforest.distinct⟩
    exact hforest.checkOwners_eq_ok nodup_nil (by simp) (mem_map_of_mem hmem) (by simp)

/-- After the first loop the walk of a subject ends, whatever its answer. -/
theorem Forest.checkPlacement (hforest : Forest instances) (hpolicy : policy.WellFormed)
    {index : Nat} (hindex : index < policy.subjectCount) :
    Settles (checkPlacement policy instances () index) ∧
      (checkPlacement policy instances () index = .ok () ↔ Placed policy instances index) := by
  obtain ⟨subject, position, hsubject, hposition⟩ := hpolicy.subject_entitled index hindex
  obtain ⟨entitlement, hentitlement⟩ :=
    hpolicy.entitlement_isSome position (Policy.entitlementIndex_lt hposition)
  have hwalk (hinstance : IsInstance instances subject.identity) :=
    reachesRoot_of_checkOwners hforest.distinct entitlement.subtreeRoot
      (hforest.checkOwners_eq_ok nodup_nil (by simp) hinstance (Nat.zero_add _))
  have hany : (!instances.any fun entry => entry.identity == subject.identity) = false ↔
      IsInstance instances subject.identity := by
    simp [IsInstance]
  have hbody : PrivateMemoryPolicy.checkPlacement policy instances () index =
      (rejectIf (!instances.any fun entry => entry.identity == subject.identity) .reference >>=
        fun _ => if entitlement.subtreeRoot = zeros 32 then pure () else
          reachesRoot instances entitlement.subtreeRoot (instances.length + 1)
            (some subject.identity) >>= fun found => rejectIf (!found) .topology) := by
    simp [PrivateMemoryPolicy.checkPlacement, hsubject, unwrap, hposition, hentitlement,
      Except.bind, bind]
  rw [hbody, bind_eq_ok_iff]
  constructor
  · refine settles_bind settles_rejectIf fun _ hlisted => ?_
    obtain ⟨found, hfound, -⟩ := hwalk (hany.mp (rejectIf_eq_ok_iff.mp hlisted))
    rw [hfound]
    split
    · exact settles_pure ()
    · exact settles_rejectIf
  · simp only [Placed, hsubject, hposition, hentitlement, Option.some.injEq, exists_and_left,
      exists_eq_left', rejectIf_eq_ok_iff, hany, exists_const]
    refine and_congr_right fun hinstance => ?_
    obtain ⟨found, hfound, hreach⟩ := hwalk hinstance
    rw [hfound, ← hreach]
    split
    next hroot => simp [hroot]
    next hroot =>
      change rejectIf (!found) _ = _ ↔ _
      simp [hroot]

/-- The check always answers, and accepts exactly the forests of instances in
which every subject has its place. -/
theorem validateInstances_exact {bytes : List UInt8} (hdecode : Policy.decode bytes = .ok policy)
    (instances : List Instance) :
    Settles (policy.validateInstances instances) ∧
      (policy.validateInstances instances = .ok () ↔
        Forest instances ∧ ∀ index < policy.subjectCount, Placed policy instances index) := by
  have hplacement : Forest instances → ∀ index < policy.subjectCount, _ := fun hforest _ =>
    hforest.checkPlacement (Policy.decode_wellFormed hdecode)
  constructor
  · refine settles_bind (settles_fold fun entry _ _ => ?_) fun _ hinstances => ?_
    · exact settles_check (checkOwners_settles _)
    · exact settles_fold fun index hindex _ =>
        (hplacement (checkInstances_eq_ok_iff.mp hinstances) index (mem_range.mp hindex)).1
  · rw [Policy.validateInstances, bind_eq_ok_iff]
    constructor
    · rintro ⟨_, hinstances, hsubjects⟩
      have hforest := checkInstances_eq_ok_iff.mp hinstances
      refine ⟨hforest, fun index hindex => (hplacement hforest index hindex).2.mp ?_⟩
      exact foldlM_unit_eq_ok_iff.mp hsubjects index (mem_range.mpr hindex)
    · rintro ⟨hforest, hplaced⟩
      refine ⟨(), checkInstances_eq_ok_iff.mpr hforest, foldlM_unit_eq_ok_iff.mpr ?_⟩
      intro index hindex
      have hlt := mem_range.mp hindex
      exact (hplacement hforest index hlt).2.mpr (hplaced index hlt)

def ownerIdentity : Identity := (zeros 32).setIfInBounds 0 2

def rootIdentity : Identity := (zeros 32).setIfInBounds 0 3

/-- The sample policy with a subtree root in its entitlement. -/
def subtreeBytes : List UInt8 :=
  sampleBytes.take 112 ++ rootIdentity.toList ++ sampleBytes.drop 144

def subtreePolicy : Policy := { samplePolicy with bytes := subtreeBytes }

def ownerChain : List Instance :=
  [⟨sampleIdentity, some ownerIdentity⟩, ⟨ownerIdentity, some rootIdentity⟩, ⟨rootIdentity, none⟩]

theorem validateInstances_exact_chain :
    Policy.decode subtreeBytes = .ok subtreePolicy ∧
    subtreePolicy.validateInstances ownerChain = .ok () ∧
    Forest ownerChain ∧ Placed subtreePolicy ownerChain 0 := by
  have hdecode : Policy.decode subtreeBytes = .ok subtreePolicy := by
    decide +kernel
  have haccepted : subtreePolicy.validateInstances ownerChain = .ok () := by
    decide +kernel
  obtain ⟨hforest, hplaced⟩ := (validateInstances_exact hdecode ownerChain).2.mp haccepted
  exact ⟨hdecode, haccepted, hforest, hplaced 0 (by decide)⟩

end SlimeOs.PrivateMemoryTopology
