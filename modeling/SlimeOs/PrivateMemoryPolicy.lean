import SlimeOs.ByteLayout
import SlimeOs.PrivateMemoryResources

/-!
The versioned private-memory policy: its wire form, the decoder's checks, and
the topology check that ties its subjects to the instances of a generation.

A policy value exists only as the result of `decode`. What the decoder
establishes for every later lookup is collected in `WellFormed`.
-/

namespace SlimeOs.PrivateMemoryPolicy

open ByteLayout CheckedWord FallibleCall FallibleCall.Outcome List Option
open SlimeOs.PrivateMemoryResources (Resources)

abbrev Identity := Bytes 32

def magic : Bytes 8 := #v[0x53, 0x4c, 0x49, 0x4d, 0x45, 0x50, 0x4d, 0x00]
def formatVersion : UInt32 := 2
def headerBytes : Nat := 80
def entitlementBytes : Nat := 88
def subjectBytes : Nat := 80
def maxEntitlements : Nat := 32
def maxSubjects : Nat := 64
def fixed : UInt32 := 0
def pool : UInt32 := 1
def pageBytes : UInt64 := 4096
def maxValue : UInt64 := 9223372036854775807
def maxPages : UInt64 := 2251799813685247

inductive PolicyError where
  | truncated
  | version
  | flags
  | bounds
  | order
  | reference
  | maximum
  | overflow
  | topology
deriving DecidableEq

structure Header where
  magic : Bytes 8
  formatVersion : UInt32
  headerSize : UInt32
  requiredFlags : UInt64
  entitlementCount : UInt32
  subjectCount : UInt32
  totalLen : UInt32
  reserved : UInt32
  reserveBytes : UInt64
  reserveSlots : UInt64
  reserveDescriptors : UInt64
  reserveExtents : UInt64
  reserveTables : UInt64
deriving DecidableEq

def Header.decode (buf : List UInt8) : Option Header :=
  if buf.length < headerBytes then none
  else some
    { magic := field buf 0 8
      formatVersion := u32At buf 8
      headerSize := u32At buf 12
      requiredFlags := u64At buf 16
      entitlementCount := u32At buf 24
      subjectCount := u32At buf 28
      totalLen := u32At buf 32
      reserved := u32At buf 36
      reserveBytes := u64At buf 40
      reserveSlots := u64At buf 48
      reserveDescriptors := u64At buf 56
      reserveExtents := u64At buf 64
      reserveTables := u64At buf 72 }

structure Entitlement where
  identity : Identity
  subtreeRoot : Identity
  guaranteePages : UInt64
  maximumPages : UInt64
  maximumMode : UInt32
  reserved : UInt32
deriving DecidableEq

def Entitlement.decode (buf : List UInt8) : Option Entitlement :=
  if buf.length < entitlementBytes then none
  else some
    { identity := field buf 0 32
      subtreeRoot := field buf 32 32
      guaranteePages := u64At buf 64
      maximumPages := u64At buf 72
      maximumMode := u32At buf 80
      reserved := u32At buf 84 }

structure Subject where
  identity : Identity
  entitlement : Identity
  maximumPages : UInt64
  maximumMode : UInt32
  reserved : UInt32
deriving DecidableEq

def Subject.decode (buf : List UInt8) : Option Subject :=
  if buf.length < subjectBytes then none
  else some
    { identity := field buf 0 32
      entitlement := field buf 32 32
      maximumPages := u64At buf 64
      maximumMode := u32At buf 72
      reserved := u32At buf 76 }

structure Policy where
  bytes : List UInt8
  header : Header
deriving DecidableEq

structure Instance where
  identity : Identity
  owner : Option Identity
deriving DecidableEq

def validMaximum (mode : UInt32) (pages : UInt64) : Bool :=
  (mode == fixed && 0 < pages && pages ≤ maxPages) || (mode == pool && pages == 0)

namespace Policy

def entitlementCount (policy : Policy) : Nat := policy.header.entitlementCount.toNat

def subjectCount (policy : Policy) : Nat := policy.header.subjectCount.toNat

def entitlement (policy : Policy) (index : Nat) : Option Entitlement :=
  if policy.entitlementCount ≤ index then none
  else Entitlement.decode (policy.bytes.drop (headerBytes + index * entitlementBytes))

def subject (policy : Policy) (index : Nat) : Option Subject :=
  if policy.subjectCount ≤ index then none
  else Subject.decode (policy.bytes.drop
    (headerBytes + policy.entitlementCount * entitlementBytes + index * subjectBytes))

/-- The first entitlement with this identity. The `unwrap` inside the search
cannot fail below the count, so an absent entry is simply no match. -/
def entitlementIndex (policy : Policy) (identity : Identity) : Option Nat :=
  (List.range policy.entitlementCount).find? fun index =>
    match policy.entitlement index with
    | some entry => entry.identity == identity
    | none => false

def subjectIndex (policy : Policy) (identity : Identity) : Option Nat :=
  (List.range policy.subjectCount).find? fun index =>
    match policy.subject index with
    | some entry => entry.identity == identity
    | none => false

def entitlementOf (policy : Policy) (position : Nat) : Option Nat := do
  let subject ← policy.subject position
  policy.entitlementIndex subject.entitlement

def reserve (policy : Policy) : Resources :=
  { bytes := policy.header.reserveBytes
    slots := policy.header.reserveSlots
    descriptors := policy.header.reserveDescriptors
    extents := policy.header.reserveExtents
    tables := policy.header.reserveTables }

/-- One turn of the decoder's entitlement loop, which carries the previous
identity and the running sum of guaranteed pages. -/
def checkEntitlement (policy : Policy) (carried : Identity × UInt64) (index : Nat) :
    Outcome PolicyError (Identity × UInt64) := do
  let entry ← okOr (policy.entitlement index) .bounds
  rejectIf (entry.identity.toList ≤ carried.1.toList) .order
  rejectIf (entry.reserved != 0) .flags
  rejectIf
    (!validMaximum entry.maximumMode entry.maximumPages ||
      decide (maxPages < entry.guaranteePages) ||
      (entry.maximumMode == fixed && decide (entry.maximumPages < entry.guaranteePages)))
    .maximum
  let guarantees ← okOr (checkedAdd carried.2 entry.guaranteePages) .overflow
  rejectIf (maxPages < guarantees) .overflow
  pure (entry.identity, guarantees)

def checkSubject (policy : Policy) (previous : Identity) (index : Nat) :
    Outcome PolicyError Identity := do
  let entry ← okOr (policy.subject index) .bounds
  rejectIf (entry.identity.toList ≤ previous.toList) .order
  rejectIf (entry.reserved != 0) .flags
  rejectIf (!validMaximum entry.maximumMode entry.maximumPages) .maximum
  rejectIf (policy.entitlementIndex entry.entitlement).isNone .reference
  pure entry.identity

/-- The number of subjects that name this entitlement, and their page maxima
together, capped at `maxPages`. -/
def membership (policy : Policy) (entry : Entitlement) (carried : UInt64 × Nat)
    (subjectIndex : Nat) : Outcome PolicyError (UInt64 × Nat) := do
  let member ← unwrap (policy.subject subjectIndex)
  if member.entitlement = entry.identity then
    let maximum := if member.maximumMode == pool then maxPages else member.maximumPages
    pure (wordMin (saturatingAdd carried.1 maximum) maxPages, carried.2 + 1)
  else
    pure carried

def checkMembership (policy : Policy) (_ : Unit) (index : Nat) : Outcome PolicyError Unit := do
  let entry ← unwrap (policy.entitlement index)
  let (memberMaximum, members) ←
    (List.range policy.subjectCount).foldlM (policy.membership entry) (0, 0)
  rejectIf (members == 0 || decide (memberMaximum < entry.guaranteePages)) .maximum

def decode (bytes : List UInt8) : Outcome PolicyError Policy := do
  let header ← okOr (Header.decode bytes) .truncated
  rejectIf (header.magic != magic || header.formatVersion != formatVersion) .version
  rejectIf
    (header.headerSize.toNat != headerBytes ||
      decide (maxEntitlements < header.entitlementCount.toNat) ||
      decide (maxSubjects < header.subjectCount.toNat) ||
      bytes.length != headerBytes + header.entitlementCount.toNat * entitlementBytes +
        header.subjectCount.toNat * subjectBytes ||
      header.totalLen.toNat != bytes.length)
    .bounds
  rejectIf (header.requiredFlags != 0 || header.reserved != 0) .flags
  rejectIf
    ([header.reserveBytes, header.reserveSlots, header.reserveDescriptors,
      header.reserveExtents, header.reserveTables].any fun value => decide (maxValue < value))
    .overflow
  let policy : Policy := ⟨bytes, header⟩
  let _ ← (List.range policy.entitlementCount).foldlM policy.checkEntitlement (zeros 32, 0)
  let _ ← (List.range policy.subjectCount).foldlM policy.checkSubject (zeros 32)
  (List.range policy.entitlementCount).foldlM policy.checkMembership ()
  pure policy

end Policy

/-- Follow owners from `current`. The source counts steps up to the number of
instances; a chain still alive at that count has a cycle. -/
def checkOwners (instances : List Instance) :
    Nat → Option Identity → Outcome PolicyError Unit
  | _, none => pure ()
  | 0, some _ => .error (.returned .topology)
  | remaining + 1, some identity => do
    let entry ← okOr (instances.find? fun entry => entry.identity == identity)
      .reference
    checkOwners instances remaining entry.owner

/-- The `while let` walk towards a subtree root. It has no step count of its
own in the source; `diverged` stands for running on past the fuel. -/
def reachesRoot (instances : List Instance) (root : Identity) :
    Nat → Option Identity → Outcome PolicyError Bool
  | 0, _ => .error .diverged
  | _ + 1, none => pure false
  | fuel + 1, some identity =>
    if identity = root then pure true
    else do
      let entry ← okOr (instances.find? fun entry => entry.identity == identity)
        .reference
      reachesRoot instances root fuel entry.owner

def checkInstance (instances : List Instance) (_ : Unit) (entry : Instance × Nat) :
    Outcome PolicyError Unit := do
  rejectIf
    (entry.1.identity == zeros 32 ||
      (instances.take entry.2).any fun prior => prior.identity == entry.1.identity)
    .topology
  checkOwners instances instances.length (some entry.1.identity)

def checkPlacement (policy : Policy) (instances : List Instance) (_ : Unit) (index : Nat) :
    Outcome PolicyError Unit := do
  let subject ← unwrap (policy.subject index)
  let position ← unwrap (policy.entitlementIndex subject.entitlement)
  let entitlement ← unwrap (policy.entitlement position)
  rejectIf (!instances.any fun entry => entry.identity == subject.identity) .reference
  if entitlement.subtreeRoot = zeros 32 then
    pure ()
  else
    let found ← reachesRoot instances entitlement.subtreeRoot (instances.length + 1)
      (some subject.identity)
    rejectIf (!found) .topology

def Policy.validateInstances (policy : Policy) (instances : List Instance) :
    Outcome PolicyError Unit := do
  instances.zipIdx.foldlM (checkInstance instances) ()
  (List.range policy.subjectCount).foldlM (checkPlacement policy instances) ()

/-- What every lookup after a successful `decode` relies on. -/
structure Policy.WellFormed (policy : Policy) : Prop where
  entitlementCount_le : policy.entitlementCount ≤ maxEntitlements
  subjectCount_le : policy.subjectCount ≤ maxSubjects
  entitlement_isSome : ∀ index < policy.entitlementCount,
    ∃ entry, policy.entitlement index = some entry
  subject_entitled : ∀ index < policy.subjectCount, ∃ entry position,
    policy.subject index = some entry ∧
      policy.entitlementIndex entry.entitlement = some position

variable {policy : Policy} {identity : Identity} {position index : Nat} {entry : Entitlement}

theorem Policy.decode_wellFormed {bytes : List UInt8}
    (hdecode : Policy.decode bytes = .ok policy) : policy.WellFormed := by
  simp only [decode, bind_eq_ok_iff, okOr_eq_ok_iff, rejectIf_eq_ok_iff, pure_eq_ok_iff] at hdecode
  obtain ⟨header, -, -, -, -, hbounds, -, -, -, -, lastEntitlement, hentitlements,
    lastSubject, hsubjects, -, -, hpolicy⟩ := hdecode
  simp only [Bool.or_eq_false_iff, decide_eq_false_iff_not, Nat.not_lt] at hbounds
  obtain ⟨⟨⟨⟨-, hentitlementCount⟩, hsubjectCount⟩, -⟩, -⟩ := hbounds
  subst policy
  refine ⟨hentitlementCount, hsubjectCount, ?_, ?_⟩
  · intro index hindex
    obtain ⟨before, after, hstep⟩ := foldlM_step_of_ok _ _ _ _ hentitlements
      index (mem_range.mpr hindex)
    simp only [checkEntitlement, bind_eq_ok_iff, okOr_eq_ok_iff] at hstep
    obtain ⟨entry, hentry, -⟩ := hstep
    exact ⟨entry, hentry⟩
  intro index hindex
  obtain ⟨before, after, hstep⟩ := foldlM_step_of_ok _ _ _ _ hsubjects index (mem_range.mpr hindex)
  simp only [checkSubject, bind_eq_ok_iff, okOr_eq_ok_iff, rejectIf_eq_ok_iff] at hstep
  obtain ⟨entry, hentry, -, -, -, -, -, -, -, hposition, -⟩ := hstep
  obtain ⟨position, hposition⟩ := isSome_iff_exists.mp (by simpa using hposition)
  exact ⟨entry, position, hentry, hposition⟩

theorem Policy.entitlementIndex_lt (hindex : policy.entitlementIndex identity = some position) :
    position < policy.entitlementCount := by
  exact mem_range.mp (mem_of_find?_eq_some hindex)

theorem Policy.identity_of_entitlementIndex
    (hindex : policy.entitlementIndex identity = some position)
    (hentry : policy.entitlement position = some entry) : entry.identity = identity := by
  have hmatch := find?_some hindex
  simpa [hentry] using hmatch

theorem Policy.entitlementOf_eq_some_iff (policy : Policy) (position index : Nat) :
    policy.entitlementOf position = some index ↔
      ∃ subject, policy.subject position = some subject ∧
        policy.entitlementIndex subject.entitlement = some index := by
  simp [entitlementOf, bind_eq_some_iff]

theorem Policy.entitlementOf_lt (h : policy.entitlementOf position = some index) :
    position < policy.subjectCount := by
  obtain ⟨subject, hsubject, -⟩ := (policy.entitlementOf_eq_some_iff position index).mp h
  unfold Policy.subject at hsubject
  split at hsubject
  · contradiction
  · omega

/-- A subject belongs to an entitlement in use exactly when it names its identity, as the ledger's
loops test it. -/
theorem Policy.entitlementOf_eq_some_iff_identity {subject : Subject}
    (hindex : policy.entitlementIndex identity = some index)
    (hentry : policy.entitlement index = some entry)
    (hsubject : policy.subject position = some subject) :
    policy.entitlementOf position = some index ↔ subject.entitlement = entry.identity := by
  have hidentity := identity_of_entitlementIndex hindex hentry
  rw [entitlementOf_eq_some_iff]
  constructor
  · rintro ⟨subject', hsubject', hindex'⟩
    obtain rfl := mem_unique hsubject' hsubject
    exact (identity_of_entitlementIndex hindex' hentry).symm
  · intro heq
    exact ⟨subject, hsubject, by rw [heq, hidentity, hindex]⟩

end SlimeOs.PrivateMemoryPolicy
