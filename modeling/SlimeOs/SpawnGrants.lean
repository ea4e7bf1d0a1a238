import SlimeOs.ByteRange
import SlimeOs.FallibleCall

/-!
The check of the capabilities a task passes to a child it spawns.

The caller names slots of its own table, and the requests are matched to the child's
declarations by rank: the request at an index is for the declaration with that many
declared slots below its own. A child that ran before may be spawned with no request, and
is then given what its declarations say.
-/

namespace SlimeOs.SpawnGrants

open ByteRange FallibleCall FallibleCall.Outcome List Option

def maxSpawnGrants : Nat := 64

def spawnGrantRecordBytes : Nat := 16

inductive IpcError where
  | badCapability
  | invalidLength
deriving DecidableEq

def rightSend : UInt64 := 1
def rightRecv : UInt64 := 2
def rightTransfer : UInt64 := 4
def rightExec : UInt64 := 8
def rightMapMmio : UInt64 := 16
def rightDmaPin : UInt64 := 32
def rightDmaRelease : UInt64 := 64
def rightIrqAck : UInt64 := 128
def rightBufferWrite : UInt64 := 256
def rightBufferMap : UInt64 := 512
def rightSpawn : UInt64 := 65536
def rightSupervise : UInt64 := 262144
def rightDirectoryRead : UInt64 := 524288
def rightDirectoryWrite : UInt64 := 1048576
def rightDirectoryList : UInt64 := 2097152
def rightDirectoryDerive : UInt64 := 4194304
def rightInputRead : UInt64 := 8388608
def rightBufferCreate : UInt64 := 16777216
def rightBufferLoan : UInt64 := 33554432
def rightSchedulingPromote : UInt64 := 1073741824
def rightLifecycleRestart : UInt64 := 2147483648
def rightParameterRead : UInt64 := 4294967296
def rightParameterWrite : UInt64 := 8589934592


def within (rights ceiling : UInt64) : Bool := rights &&& ~~~ceiling == 0

inductive CapabilityKind where
  | endpoint
  | executable
  | sharedBufferFactory
  | directory
  | input
  | supervision
  | sharedBuffer
  | loan
  | device
  | mmioRegion
  | interruptSource
  | dmaAccount
deriving DecidableEq

/-- The rights a capability of the kind may have. -/
def validRights : CapabilityKind → UInt64
  | .executable => rightExec ||| rightSpawn ||| rightTransfer
  | .sharedBufferFactory => rightBufferCreate ||| rightTransfer
  | .supervision => rightSupervise ||| rightSchedulingPromote ||| rightLifecycleRestart |||
      rightParameterRead ||| rightParameterWrite ||| rightTransfer
  | .directory => rightDirectoryRead ||| rightDirectoryWrite ||| rightDirectoryList |||
      rightDirectoryDerive ||| rightTransfer
  | .input => rightInputRead
  | .endpoint => rightSend ||| rightRecv
  | .loan => rightBufferMap ||| rightBufferWrite ||| rightTransfer
  | .sharedBuffer => rightBufferWrite ||| rightBufferMap ||| rightBufferLoan ||| rightTransfer
  | .device => rightMapMmio
  | .mmioRegion => rightMapMmio
  | .interruptSource => rightIrqAck
  | .dmaAccount => rightDmaPin ||| rightDmaRelease

/-- An entry of an authority table. `object` stands for what the entry of its kind names beside
its rights: an executable, a task, a buffer, the number of a device. -/
structure CapabilityEntry where
  kind : CapabilityKind
  object : Nat
  rights : UInt64
deriving DecidableEq

open CapabilityEntry

namespace CapabilityEntry

def fromBits (kind : CapabilityKind) (object : Nat) (bits : UInt64) : Option CapabilityEntry :=
  if bits != 0 && within bits (validRights kind) then some ⟨kind, object, bits⟩ else none

def allows (entry : CapabilityEntry) (required : UInt64) : Bool :=
  required != 0 && within required (validRights entry.kind) && entry.rights &&& required == required

def narrow (entry : CapabilityEntry) (requested : UInt64) : Option CapabilityEntry :=
  if requested != 0 && within requested entry.rights then
    fromBits entry.kind entry.object requested
  else none

end CapabilityEntry

abbrev AuthorityTable := List (Option CapabilityEntry)

namespace AuthorityTable

def get (table : AuthorityTable) (slot : Nat) : Option CapabilityEntry := table[slot]?.join

def resolveExecutable (table : AuthorityTable) (slot : Nat) (required : UInt64) :
    Option CapabilityEntry :=
  (table.get slot).filter fun entry => entry.kind == .executable && entry.allows required

end AuthorityTable

inductive InstanceOwner where
  | root
  | byInstance (owner : Nat)
deriving DecidableEq

inductive GrantEndpoint where
  | byInstance (index : Nat)
  | byExecutable (index : Nat)
deriving DecidableEq

structure Grant where
  source : GrantEndpoint
  target : GrantEndpoint
  rights : UInt64
  capabilityKind : CapabilityKind
deriving DecidableEq

structure MintedBinding where
  owner : Nat
  holder : Nat
  slot : Nat
  rights : UInt64
  capabilityKind : CapabilityKind
deriving DecidableEq

/-- A binding with the grant it names, which the decoder has found to exist. -/
structure Binding where
  slot : Nat
  grant : Grant

structure Instance where
  owner : InstanceOwner
  executable : Nat
  bindings : List Binding

structure Generation where
  instances : List Instance
  mintedBindings : List MintedBinding

open Generation

inductive DeclaredCapability where
  | granted (slot : Nat) (grant : Grant)
  | minted (binding : MintedBinding)

namespace DeclaredCapability

def slot : DeclaredCapability → Nat
  | .granted slot _ => slot
  | .minted binding => binding.slot

def rights : DeclaredCapability → UInt64
  | .granted _ grant => grant.rights
  | .minted binding => binding.rights

/-- The capability is of the declared kind and, if that is an executable, the declared one. -/
def names (entry : CapabilityEntry) : DeclaredCapability → Bool
  | .granted _ grant => entry.kind == grant.capabilityKind &&
      (grant.capabilityKind != .executable || grant.target == .byExecutable entry.object)
  | .minted binding => entry.kind == binding.capabilityKind

end DeclaredCapability

def grantCrossesSpawn (grant : Grant) (childInstance : Nat) : Bool :=
  grant.capabilityKind != .endpoint &&
    (grant.source != .byInstance childInstance || grant.target != .byInstance childInstance)

def grantRequiresInstanceBinding (grant : Grant) (index : Nat) : Bool :=
  match grant.capabilityKind with
  | .executable => grant.source == .byInstance index
  | .endpoint => grant.source == .byInstance index || grant.target == .byInstance index
  | _ => grant.target == .byInstance index

namespace Generation

def grantAppliesToInstance (generation : Generation) (grant : Grant) (index : Nat) : Bool :=
  grantRequiresInstanceBinding grant index ||
    match generation.instances[index]? with
    | none => false
    | some found =>
      (match found.owner with
        | .root => false
        | .byInstance owner => grant.source == .byInstance owner &&
            match grant.capabilityKind with
            | .executable => generation.instances.any fun child =>
              child.owner == .byInstance index && grant.target == .byExecutable child.executable
            | .endpoint => grant.target == .byInstance index
            | _ => grant.target == .byInstance index || grant.target == .byInstance owner) ||
        generation.instances.zipIdx.any fun (child, position) =>
          child.owner == .byInstance index && grant.source == .byInstance index &&
            match grant.capabilityKind with
            | .executable => grant.target == .byExecutable child.executable
            | _ => grant.target == .byInstance position

/-- The bindings the owner of a child must supply. -/
def crossingBindings (child : Instance) (childInstance : Nat) : List Binding :=
  child.bindings.filter fun binding => grantCrossesSpawn binding.grant childInstance

def mintedFor (generation : Generation) (childInstance : Nat) : List MintedBinding :=
  generation.mintedBindings.filter fun minted => minted.holder == childInstance

/-- The declarations that are matched to requests, in the order they are walked. -/
def crossing (generation : Generation) (child : Instance) (childInstance : Nat) :
    List DeclaredCapability :=
  (crossingBindings child childInstance).map (fun binding => .granted binding.slot binding.grant) ++
    ((generation.mintedFor childInstance).filter fun minted =>
      minted.capabilityKind != .endpoint).map .minted

def declarationsBelow (generation : Generation) (child : Instance) (childInstance slot : Nat) :
    Nat :=
  (generation.crossing child childInstance).countP fun declared => decide (declared.slot < slot)

def nthDeclaredCapability (generation : Generation) (child : Instance)
    (childInstance index : Nat) : Outcome IpcError DeclaredCapability :=
  match (generation.crossing child childInstance).filter fun candidate =>
    generation.declarationsBelow child childInstance candidate.slot == index with
  | [selected] => .ok selected
  | _ => .error (.returned .badCapability)

/-- The one instance the caller owns that runs the executable. -/
def childOf (generation : Generation) (callerInstance executable : Nat) :
    Outcome IpcError (Instance × Nat) :=
  match generation.instances.zipIdx.filter fun (found, _) =>
    found.owner == .byInstance callerInstance && found.executable == executable with
  | [child] => .ok child
  | _ => .error (.returned .badCapability)

end Generation

structure SpawnGrant where
  slot : Nat
  rights : UInt64

/-- One entry of a plan: the slots it goes from and to, the capability, and whether it is minted. -/
structure Granted where
  source : Nat
  destination : Nat
  capability : CapabilityEntry
  minted : Bool

structure SpawnPlan where
  executable : Nat
  childInstance : Nat
  granted : List Granted
  transferableSupervision : Bool

def decodeGrant (records : List UInt8) (index : Nat) : Outcome IpcError SpawnGrant := do
  let slot := numberAt records (spawnGrantRecordBytes * index) 8
  rejectIf (decide (2 ^ 32 ≤ slot)) .badCapability
  pure ⟨slot, .ofNat (numberAt records (spawnGrantRecordBytes * index + 8) 8)⟩

/-- The check of the request at an index. -/
def grantRequested (generation : Generation) (callerInstance : Nat) (table : AuthorityTable)
    (executableSlot : Nat) (child : Instance) (childInstance : Nat) (requested : List SpawnGrant)
    (index : Nat) : Outcome IpcError Granted := do
  let request ← okOr requested[index]? .invalidLength
  rejectIf (request.slot == executableSlot ||
    (requested.take index).any fun seen => seen.slot == request.slot) .badCapability
  let declaration ← generation.nthDeclaredCapability child childInstance index
  rejectIf (match declaration with
    | .granted _ declared => !generation.grantAppliesToInstance declared childInstance
    | .minted declared => declared.owner != callerInstance) .badCapability
  rejectIf (request.rights == 0 || !within request.rights declaration.rights) .badCapability
  let narrowed ← okOr ((table.get request.slot).bind fun held => held.narrow request.rights)
    .badCapability
  rejectIf (decide (2 ^ 32 ≤ declaration.slot)) .badCapability
  pure ⟨request.slot, declaration.slot, narrowed, declaration matches .minted _⟩

/-- The capability a respawned child is given for its declaration at an index. -/
def grantDeclared (generation : Generation) (table : AuthorityTable) (child : Instance)
    (childInstance index : Nat) : Outcome IpcError Granted := do
  match ← generation.nthDeclaredCapability child childInstance index with
  | .minted _ => .error (.returned .badCapability)
  | .granted destination declared =>
    rejectIf (!declared.capabilityKind matches
      .device | .mmioRegion | .interruptSource | .dmaAccount) .badCapability
    rejectIf (!table.any fun entry => entry.any fun held => held.kind == declared.capabilityKind)
      .badCapability
    let capability ← okOr (CapabilityEntry.fromBits declared.capabilityKind 0 declared.rights)
      .badCapability
    rejectIf (decide (2 ^ 32 ≤ destination)) .badCapability
    pure ⟨0, destination, capability, false⟩

def planned (generation : Generation) (callerInstance : Nat) (table : AuthorityTable)
    (executableSlot : Nat) (child : Instance) (childInstance : Nat) (records : List UInt8)
    (respawn : Bool) : Outcome IpcError (List Granted) :=
  if respawn && records.length / spawnGrantRecordBytes == 0 then
    (List.range (min (Generation.crossingBindings child childInstance).length maxSpawnGrants)).mapM
      (grantDeclared generation table child childInstance)
  else do
    let count := records.length / spawnGrantRecordBytes
    let requested ← (List.range count).mapM (decodeGrant records)
    (List.range count).mapM
      (grantRequested generation callerInstance table executableSlot child childInstance requested)

/-- `launched` tells whether an instance was ever launched. -/
def preflightSpawnGrants (generation : Generation) (callerInstance : Nat) (table : AuthorityTable)
    (executableSlot : Nat) (records : List UInt8) (launched : Nat → Bool) :
    Outcome IpcError SpawnPlan := do
  let executable ← okOr (table.resolveExecutable executableSlot (rightExec ||| rightSpawn))
    .badCapability
  let (child, childInstance) ← generation.childOf callerInstance executable.object
  rejectIf (records.length % spawnGrantRecordBytes != 0) .invalidLength
  let count := records.length / spawnGrantRecordBytes
  rejectIf (decide (maxSpawnGrants < count)) .invalidLength
  let mintedCount := (generation.mintedFor childInstance).length
  let parentSupplied := (Generation.crossingBindings child childInstance).length
  let respawn := launched childInstance
  rejectIf (count != parentSupplied + mintedCount && !(respawn && count == 0)) .badCapability
  let granted ←
    planned generation callerInstance table executableSlot child childInstance records respawn
  pure ⟨executable.object, childInstance, granted, executable.allows rightTransfer⟩

/-- What the entry of a plan for a declaration may be, given what the caller holds. -/
structure Lawful (table : AuthorityTable) (granted : Granted) (declared : DeclaredCapability) :
    Prop where
  slot : granted.destination = declared.slot
  names : declared.names granted.capability = true
  rights : within granted.capability.rights declared.rights = true
  held : ∃ slot held, table.get slot = some held ∧ held.kind = granted.capability.kind ∧
    held.object = granted.capability.object ∧ within granted.capability.rights held.rights = true

def holds (table : AuthorityTable) (grant : Grant) : Bool :=
  table.any fun entry => entry.any fun held =>
    held.kind == grant.capabilityKind && held.object == 0 && within grant.rights held.rights

/-- What the check leaves to the caller for the entry of the plan at an index: the slot it names
holds what is declared, or, where it names none, it holds the declared capability itself. -/
def suppliesAt (generation : Generation) (table : AuthorityTable) (child : Instance)
    (childInstance : Nat) (records : List UInt8) (index : Nat) : Bool :=
  match generation.nthDeclaredCapability child childInstance index with
  | .error _ => true
  | .ok declared =>
    if records.isEmpty then
      match declared with
      | .granted _ grant => holds table grant
      | .minted _ => true
    else
      match decodeGrant records index with
      | .error _ => true
      | .ok request => (table.get request.slot).all fun held => declared.names held

def plannedCount (child : Instance) (childInstance : Nat) (records : List UInt8) : Nat :=
  if records.isEmpty then
    min (Generation.crossingBindings child childInstance).length maxSpawnGrants
  else records.length / spawnGrantRecordBytes

def suppliesDeclared (generation : Generation) (callerInstance : Nat) (table : AuthorityTable)
    (executableSlot : Nat) (records : List UInt8) : Bool :=
  (table.get executableSlot).all fun executable =>
    match generation.childOf callerInstance executable.object with
    | .error _ => true
    | .ok (child, childInstance) =>
      (List.range (plannedCount child childInstance records)).all
        (suppliesAt generation table child childInstance records)

section Preflight

variable {generation : Generation} {callerInstance : Nat} {table : AuthorityTable}
  {executableSlot : Nat} {records : List UInt8} {child : Instance} {childInstance index : Nat}
  {declared : DeclaredCapability} {granted : Granted}

theorem getElem?_of_childOf {executable : Nat}
    (h : generation.childOf callerInstance executable = .ok (child, childInstance)) :
    generation.instances[childInstance]? = some child := by
  unfold childOf at h
  split at h
  next selected heq =>
    obtain rfl := Except.ok.inj h
    have hmem := mem_filter.mp (heq ▸ mem_singleton_self _)
    exact mem_zipIdx_iff_getElem?.mp hmem.1
  next => simp at h

theorem nthDeclaredCapability_ok
    (h : generation.nthDeclaredCapability child childInstance index = .ok declared) :
    declared ∈ generation.crossing child childInstance ∧
      generation.declarationsBelow child childInstance declared.slot = index := by
  unfold nthDeclaredCapability at h
  split at h
  next selected heq =>
    obtain rfl := Except.ok.inj h
    have hmem := mem_filter.mp (heq ▸ mem_singleton_self _)
    exact ⟨hmem.1, by simpa using hmem.2⟩
  next => simp at h

theorem fromBits_eq_some {kind : CapabilityKind} {object : Nat} {bits : UInt64}
    {entry : CapabilityEntry} (h : fromBits kind object bits = some entry) :
    entry = ⟨kind, object, bits⟩ := by
  unfold fromBits at h
  split at h
  next => exact (some.inj h).symm
  next => cases h

theorem narrow_eq_some {held narrowed : CapabilityEntry} {requested : UInt64}
    (h : held.narrow requested = some narrowed) :
    narrowed = { held with rights := requested } ∧ within requested held.rights = true := by
  unfold narrow at h
  split at h
  next hrights => exact ⟨fromBits_eq_some h, (Bool.and_eq_true_iff.mp hrights).2⟩
  next => cases h

/-- No two declarations share a slot that was selected. -/
theorem nthDeclaredCapability_unique {other : DeclaredCapability}
    (h : generation.nthDeclaredCapability child childInstance index = .ok declared)
    (hother : other ∈ generation.crossing child childInstance)
    (hslot : other.slot = declared.slot) : other = declared := by
  have hrank := (nthDeclaredCapability_ok h).2
  unfold nthDeclaredCapability at h
  split at h
  next selected heq =>
    obtain rfl := Except.ok.inj h
    refine mem_singleton.mp (heq ▸ mem_filter.mpr ⟨hother, ?_⟩)
    simp [hslot, hrank]
  next => simp at h

/-- The entry of a plan at an index is for the declaration of that rank, and meets the law exactly
if the caller supplies what is declared. -/
def Decided (generation : Generation) (table : AuthorityTable) (child : Instance)
    (childInstance : Nat) (records : List UInt8) (index : Nat) (granted : Granted) : Prop :=
  ∃ declared, generation.nthDeclaredCapability child childInstance index = .ok declared ∧
    granted.destination = declared.slot ∧
    (Lawful table granted declared ↔
      suppliesAt generation table child childInstance records index = true)

theorem grantRequested_decided {requested : List SpawnGrant} (hrecords : records.isEmpty = false)
    (hrequested : ∀ request, requested[index]? = some request →
      decodeGrant records index = .ok request)
    (h : grantRequested generation callerInstance table executableSlot child childInstance
      requested index = .ok granted) :
    Decided generation table child childInstance records index granted := by
  simp only [grantRequested, bind_eq_ok_iff, okOr_eq_ok_iff, rejectIf_eq_ok_iff,
    pure_eq_ok_iff] at h
  obtain ⟨request, hrequest, -, -, declared, hdeclared, -, -, -, hrights, narrowed, hnarrowed, -, -,
    rfl⟩ := h
  obtain ⟨held, hheld, hnarrow⟩ := bind_eq_some_iff.mp hnarrowed
  obtain ⟨rfl, hwithin⟩ := narrow_eq_some hnarrow
  have hkept : declared.names { held with rights := request.rights } = declared.names held := by
    cases declared <;> rfl
  refine ⟨declared, hdeclared, rfl, ?_⟩
  simp only [suppliesAt, hdeclared, hrecords, hrequested request hrequest, hheld, all_some,
    Bool.false_eq_true, if_false, ← hkept]
  refine ⟨Lawful.names, fun hnames => ⟨rfl, hnames, ?_, _, held, hheld, rfl, rfl, hwithin⟩⟩
  simpa using (Bool.or_eq_false_iff.mp hrights).2

theorem holds_iff {grant : Grant} :
    holds table grant = true ↔ ∃ slot held, table.get slot = some held ∧
      held.kind = grant.capabilityKind ∧ held.object = 0 ∧
        within grant.rights held.rights = true := by
  simp only [holds, List.any_eq_true, Option.any_eq_true, Bool.and_eq_true, beq_iff_eq, and_assoc,
    AuthorityTable.get, join_eq_some_iff]
  constructor
  · rintro ⟨_, hentry, held, rfl, hheld⟩
    obtain ⟨slot, hslot⟩ := mem_iff_getElem?.mp hentry
    exact ⟨slot, held, hslot, hheld⟩
  · rintro ⟨slot, held, hslot, hheld⟩
    exact ⟨some held, mem_of_getElem? hslot, held, rfl, hheld⟩

theorem grantDeclared_decided (hrecords : records.isEmpty = true)
    (h : grantDeclared generation table child childInstance index = .ok granted) :
    Decided generation table child childInstance records index granted := by
  rw [grantDeclared, bind_eq_ok_iff] at h
  obtain ⟨declared, hdeclared, h⟩ := h
  cases declared with
  | minted => simp at h
  | granted destination grant =>
    simp only [bind_eq_ok_iff, okOr_eq_ok_iff, rejectIf_eq_ok_iff, pure_eq_ok_iff] at h
    obtain ⟨-, hkind, -, -, capability, hcapability, -, -, rfl⟩ := h
    obtain rfl := fromBits_eq_some hcapability
    refine ⟨_, hdeclared, rfl, ?_⟩
    simp only [suppliesAt, hdeclared, hrecords, if_true, holds_iff]
    refine ⟨Lawful.held, fun hheld => ⟨rfl, ?_, ?_, hheld⟩⟩
    · cases hkind' : grant.capabilityKind <;> simp_all [DeclaredCapability.names]
    · simp [within, DeclaredCapability.rights]

section Planned

variable {respawn : Bool} {plan : List Granted}
  (hempty : records.isEmpty = true ↔ records.length / spawnGrantRecordBytes = 0)
  (h : planned generation callerInstance table executableSlot child childInstance records respawn =
    .ok plan)
include hempty h

theorem planned_decided (hentry : plan[index]? = some granted) :
    Decided generation table child childInstance records index granted := by
  unfold planned at h
  split at h
  next => exact grantDeclared_decided (hempty.mpr (by simp_all)) (eq_ok_of_mapM_range h hentry).2
  next =>
    obtain ⟨requested, hrequested, h⟩ := bind_eq_ok_iff.mp h
    obtain ⟨hlt, hentry⟩ := eq_ok_of_mapM_range h hentry
    have hrecords : records.isEmpty = false :=
      Bool.eq_false_iff.mpr fun htrue => by simp [hempty.mp htrue] at hlt
    exact grantRequested_decided hrecords
      (fun _ hrequest => (eq_ok_of_mapM_range hrequested hrequest).2) hentry

theorem length_planned {minted : Nat}
    (hcount : (records.length / spawnGrantRecordBytes !=
      (Generation.crossingBindings child childInstance).length + minted &&
        !(respawn && records.length / spawnGrantRecordBytes == 0)) = false) :
    plan.length = plannedCount child childInstance records := by
  unfold planned at h
  split at h
  next =>
    have hrecords : records.isEmpty = true := hempty.mpr (by simp_all)
    rw [length_of_mapM h, length_range, plannedCount, if_pos hrecords]
  next hrequests =>
    obtain ⟨requested, hrequested, h⟩ := bind_eq_ok_iff.mp h
    rw [length_of_mapM h, length_range, plannedCount]
    -- without a request the child has no declaration, unless it ran before
    split
    next hrecords =>
      have hnone : (Generation.crossingBindings child childInstance).length = 0 := by
        simp only [hempty.mp hrecords, beq_self_eq_true, Bool.not_eq_true, Bool.and_true] at *
        simp [hrequests] at hcount
        omega
      rw [hempty.mp hrecords, hnone, Nat.zero_min]
    next => rfl

end Planned

theorem decided_of_preflight {launched : Nat → Bool} {plan : SpawnPlan}
    (h : preflightSpawnGrants generation callerInstance table executableSlot records launched =
      .ok plan) :
    ∃ child, generation.instances[plan.childInstance]? = some child ∧
      (∀ index granted, plan.granted[index]? = some granted →
        Decided generation table child plan.childInstance records index granted) ∧
      (suppliesDeclared generation callerInstance table executableSlot records = true ↔
        ∀ index < plan.granted.length,
          suppliesAt generation table child plan.childInstance records index = true) := by
  simp only [preflightSpawnGrants, bind_eq_ok_iff, okOr_eq_ok_iff, rejectIf_eq_ok_iff,
    pure_eq_ok_iff] at h
  obtain ⟨executable, hexecutable, ⟨child, childInstance⟩, hchild, -, hmultiple, -, -, -, hcount,
    granted, hgranted, rfl⟩ := h
  have hget := (filter_eq_some_iff.mp hexecutable).1
  have hempty : records.isEmpty = true ↔ records.length / spawnGrantRecordBytes = 0 := by
    simp only [List.isEmpty_iff_length_eq_zero, spawnGrantRecordBytes, bne_eq_false_iff_eq] at *
    omega
  refine ⟨child, getElem?_of_childOf hchild, fun _ _ => planned_decided hempty hgranted, ?_⟩
  simp only [suppliesDeclared, hget, all_some, hchild, List.all_eq_true, mem_range,
    length_planned hempty hgranted hcount]

theorem spawn_hands_out_declared {launched : Nat → Bool} {plan : SpawnPlan}
    (h : preflightSpawnGrants generation callerInstance table executableSlot records launched =
      .ok plan) :
    (∃ child, generation.instances[plan.childInstance]? = some child ∧
      ∃ declared : Fin plan.granted.length → DeclaredCapability, Function.Injective declared ∧
        (∀ i, declared i ∈ generation.crossing child plan.childInstance) ∧
        ∀ i, Lawful table (plan.granted.get i) (declared i)) ↔
      suppliesDeclared generation callerInstance table executableSlot records = true := by
  obtain ⟨child, hchild, hdecided, hsupplies⟩ := decided_of_preflight h
  rw [hsupplies]
  constructor
  · rintro ⟨child', hchild', declared, -, hmem, hlawful⟩ index hlt
    obtain rfl : child = child' := some.inj (hchild.symm.trans hchild')
    obtain ⟨selected, hselected, hslot, hiff⟩ :=
      hdecided index _ (List.getElem?_eq_getElem hlt)
    -- the slot tells which declaration the entry is for
    obtain rfl : declared ⟨index, hlt⟩ = selected := nthDeclaredCapability_unique hselected
      (hmem _) ((hlawful ⟨index, hlt⟩).slot.symm.trans hslot)
    exact hiff.mp (hlawful ⟨index, hlt⟩)
  · intro hsupplied
    choose declared hnth _ hlawful using fun i : Fin plan.granted.length =>
      hdecided i (plan.granted.get i) (by simp)
    refine ⟨child, hchild, declared, fun i j heq => Fin.ext ?_, fun i => ?_, fun i => ?_⟩
    · rw [← (nthDeclaredCapability_ok (hnth i)).2, ← (nthDeclaredCapability_ok (hnth j)).2, heq]
    · exact (nthDeclaredCapability_ok (hnth i)).1
    · exact (hlawful i).mpr (hsupplied i i.isLt)

end Preflight

/-- Instance 0 owns instance 1, for which one capability is declared in slot 5. -/
def ownedChild (kind : CapabilityKind) (rights : UInt64) : Generation where
  instances := [⟨.root, 0, []⟩,
    ⟨.byInstance 0, 7, [⟨5, ⟨.byInstance 0, .byInstance 1, rights, kind⟩⟩]⟩]
  mintedBindings := []

/-- The table of a caller that holds the child's executable and one more capability. -/
def callerTable (kind : CapabilityKind) (rights : UInt64) : AuthorityTable :=
  [some ⟨.executable, 7, rightExec ||| rightSpawn⟩, some ⟨kind, 0, rights⟩]

def requestMapMmio : List UInt8 := [1, 0, 0, 0, 0, 0, 0, 0, 16, 0, 0, 0, 0, 0, 0, 0]

theorem spawn_hands_out_declared_device :
    ∃ declared : Fin 1 → DeclaredCapability, ∀ i,
      Lawful (callerTable .device rightMapMmio) ⟨1, 5, ⟨.device, 0, rightMapMmio⟩, false⟩
        (declared i) := by
  have hplan : preflightSpawnGrants (ownedChild .device rightMapMmio) 0
      (callerTable .device rightMapMmio) 0 requestMapMmio (fun _ => false) =
        .ok ⟨7, 1, [⟨1, 5, ⟨.device, 0, rightMapMmio⟩, false⟩], false⟩ := by
    rfl
  obtain ⟨_, -, declared, -, -, hlawful⟩ := (spawn_hands_out_declared hplan).mpr (by decide)
  exact ⟨declared, fun i => by simpa using hlawful i⟩

/-- A memory region goes out for the declared device, and a child that ran before is given the
right to release memory by a caller that may only pin it. -/
theorem device_not_held :
    ((preflightSpawnGrants (ownedChild .device rightMapMmio) 0
      (callerTable .mmioRegion rightMapMmio) 0 requestMapMmio
        fun _ => false).toOption.map fun plan => plan.granted.map Granted.capability) =
          some [⟨.mmioRegion, 0, rightMapMmio⟩] ∧
    ((preflightSpawnGrants (ownedChild .dmaAccount (rightDmaPin ||| rightDmaRelease)) 0
      (callerTable .dmaAccount rightDmaPin) 0 [] fun _ => true).toOption.map
        fun plan => plan.granted.map Granted.capability) =
          some [⟨.dmaAccount, 0, rightDmaPin ||| rightDmaRelease⟩] := by
  decide

end SlimeOs.SpawnGrants
