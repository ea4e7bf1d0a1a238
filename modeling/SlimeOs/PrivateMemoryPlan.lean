import SlimeOs.PrivateMemoryPolicy

/-!
Certified transaction plans. The allocator states which physical placements a
transaction takes and which resources it spends; certification checks the
placements against the sources and refuses a plan that draws on protected
ranges without a matching witness.
-/

namespace SlimeOs.PrivateMemoryPlan

open CheckedWord FallibleCall FallibleCall.Outcome PrivateMemoryPolicy PrivateMemoryResources

inductive Class where
  | ordinaryTail
  | preservedLeaf
  | reusable
  | staticTasks
  | kernelObjects
  | metadata
  | pageTables
  | sharedDma
  | guaranteed
  | elastic
  | quarantined
deriving DecidableEq

structure Range where
  start : UInt64
  bytes : UInt64
  kind : Class
deriving DecidableEq

def Range.stop (range : Range) : Outcome Error UInt64 :=
  okOr (checkedAdd range.start range.bytes) .overflow

def Range.free (range : Range) : Bool :=
  range.kind == .ordinaryTail || range.kind == .preservedLeaf || range.kind == .reusable

/-- `start..finish` lies inside the range. A range whose end is not
representable contains nothing. -/
def Range.contains (range : Range) (start finish : UInt64) : Bool :=
  decide (range.start ≤ start) &&
    match range.stop with
    | .ok stop => decide (finish ≤ stop)
    | .error _ => decide (finish ≤ 0)

structure Placement where
  start : UInt64
  sizeBits : UInt8
deriving DecidableEq

structure Witness where
  guaranteed : Resources
  guaranteePages : UInt64
deriving DecidableEq

/-- The redeemed pages fit in the protected bytes that its leaf tables leave. -/
def Witness.payloadFits (witness : Witness) : Outcome Error Bool := do
  let tables ← okOr (checkedMul witness.guaranteed.tables pageBytes) .overflow
  let pages ← okOr (checkedMul witness.guaranteePages pageBytes) .overflow
  match checkedSub witness.guaranteed.bytes tables with
  | some payload => pure (decide (pages ≤ payload))
  | none => pure false

structure Plan where
  resources : Resources
  guaranteed : Resources
  guaranteePages : UInt64
deriving DecidableEq

namespace Plan

/-- One placement of the certification loop, which carries the bytes placed so
far and the part of them that fell in protected ranges. -/
def certifyPlacement (sources : List Range) (placements : List Placement)
    (witness : Option Witness) (carried : UInt64 × UInt64) (entry : Placement × Nat) :
    Outcome Error (UInt64 × UInt64) := do
  let placement := entry.1
  let size ← okOr (checkedShlOne placement.sizeBits) .overflow
  let stop ← okOr (checkedAdd placement.start size) .overflow
  let isProtected := witness.isSome &&
    sources.any fun range => range.kind == .guaranteed && range.contains placement.start stop
  rejectIf
    (placement.start % size != 0 ||
      !(isProtected ||
        sources.any fun range => range.free && range.contains placement.start stop) ||
      (placements.take entry.2).any fun prior =>
        decide (placement.start < prior.start + (1 <<< prior.sizeBits.toUInt64)) &&
          decide (prior.start < stop))
    .placement
  let bytes ← okOr (checkedAdd carried.1 size) .overflow
  if isProtected then
    let guaranteedBytes ← okOr (checkedAdd carried.2 size) .overflow
    pure (bytes, guaranteedBytes)
  else
    pure (bytes, carried.2)

/-- The declared protected tuple is exactly what landed in protected ranges,
fits the transaction, and redeems no more pages than its bytes hold. -/
def admitWitness (resources : Resources) (guaranteedBytes : UInt64) (witness : Witness) :
    Outcome Error Plan := do
  rejectIf
    (witness.guaranteed.bytes != guaranteedBytes || !(resources.subtract witness.guaranteed).isOk)
    .guarantee
  let fits ← witness.payloadFits
  rejectIf (!fits) .guarantee
  pure ⟨resources, witness.guaranteed, witness.guaranteePages⟩

def certify (sources : List Range) (placements : List Placement) (resources : Resources)
    (witness : Option Witness) : Outcome Error Plan := do
  let (bytes, guaranteedBytes) ←
    placements.zipIdx.foldlM (certifyPlacement sources placements witness) (0, 0)
  rejectIf (bytes != resources.bytes) .placement
  match witness with
  | none => pure ⟨resources, Resources.zero, 0⟩
  | some witness => admitWitness resources guaranteedBytes witness

def validate (free : List Range) (placements : List Placement) (resources : Resources) :
    Outcome Error Plan :=
  certify free placements resources none

end Plan

end SlimeOs.PrivateMemoryPlan
