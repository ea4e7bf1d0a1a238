import SlimeOs.AllocatorRecords

/-!
The table of extent records. Every write goes through `commit`, which keeps beside the records
what a request needs without a walk: how many records there are, the bytes and the number of
the free ones, from where on the lowest free and the lowest vacant one may be found, and each
arena's extents with room as a chain in the order they are selected.

The link of a record to the next one of its chain is kept beside the records, since only the
table writes it.
-/

namespace SlimeOs.ObjectAllocator

open FallibleCall ExtentRecord

def reuseFirstBits : Nat := granuleBits

def reuseSizes : Nat := 10

def reuseSize (sizeBits : Nat) : Option (Fin reuseSizes) :=
  if h : reuseFirstBits ≤ sizeBits ∧ sizeBits < reuseFirstBits + reuseSizes then
    some ⟨sizeBits - reuseFirstBits, by omega⟩
  else none

structure RoomKey where
  rank : Nat
  borrowed : Nat
  size : Nat
  index : Nat
deriving DecidableEq

/-- The keys compare as tuples. -/
def RoomKey.before (key other : RoomKey) : Bool :=
  key.rank < other.rank || key.rank == other.rank &&
    (key.borrowed < other.borrowed || key.borrowed == other.borrowed &&
      (key.size < other.size || key.size == other.size && key.index < other.index))

def roomRank : ExtentKind → Option Nat
  | .privateData => some 0
  | .privateTables => some 1
  | _ => none

structure ExtentTable where
  records : List (Option ExtentRecord)
  links : Nat → Option Nat
  present : Nat
  freeBytes : Nat
  freeCount : Vector Nat reuseSizes
  reuseFrom : Vector Nat reuseSizes
  vacantFrom : Nat
  roomHead : Vector (Option Nat) maxTaskArenas
  roomLen : Vector Nat maxTaskArenas
  elastic : Vector Bool maxTaskArenas
  outOfStep : Bool

namespace ExtentTable

def empty : ExtentTable where
  records := []
  links _ := none
  present := 0
  freeBytes := 0
  freeCount := Vector.replicate _ 0
  reuseFrom := Vector.replicate _ 0
  vacantFrom := 0
  roomHead := Vector.replicate _ none
  roomLen := Vector.replicate _ 0
  elastic := Vector.replicate _ false
  outOfStep := false

def read (table : ExtentTable) (index : Nat) : Option ExtentRecord := table.records[index]?.join

/-- A figure fell below what its records hold, or counts more records than there are. -/
def isOutOfStep (table : ExtentTable) : Bool :=
  table.outOfStep || decide (table.records.length < table.present)

def append (table : ExtentTable) : ExtentTable :=
  { table with records := table.records ++ List.replicate extentsPerPage none }

def reusableAt (table : ExtentTable) (sizeBits index : Nat) : Bool :=
  (table.read index).any fun extent => extent.isCommonFree && extent.sizeBits == sizeBits

/-- The lowest free record of exactly this size, from the cursor on, or else below it. -/
def findReusable (table : ExtentTable) (sizeBits from_ : Nat) : Option Nat :=
  ((List.range' from_ (table.records.length - from_)).find? (table.reusableAt sizeBits)).or
    ((List.range from_).find? (table.reusableAt sizeBits))

def reusable (table : ExtentTable) (sizeBits : Nat) : Option Nat × ExtentTable :=
  match reuseSize sizeBits with
  | none => ((List.range table.records.length).find? (table.reusableAt sizeBits), table)
  | some size =>
    if table.freeCount[size] = 0 then (none, table)
    else
      match table.findReusable sizeBits table.reuseFrom[size] with
      | none => (none, table)
      | some index => (some index, { table with reuseFrom := table.reuseFrom.set size index })

def vacantAt (table : ExtentTable) (index : Nat) : Bool := table.records[index]? == some none

def firstVacancy (table : ExtentTable) : Option Nat × ExtentTable :=
  if table.present = table.records.length then (none, table)
  else
    match ((List.range' table.vacantFrom (table.records.length - table.vacantFrom)).find?
        table.vacantAt).or ((List.range table.vacantFrom).find? table.vacantAt) with
    | none => (none, table)
    | some index => (some index, { table with vacantFrom := index })

def roomKey (table : ExtentTable) (index : Nat) (record : ExtentRecord) :
    Option (Fin maxTaskArenas × RoomKey) := do
  let rank ← roomRank record.kind
  let owner ← record.owner
  if h : owner.index < maxTaskArenas then
    if record.revoked || record.split ||
        (planAllocation record.watermark (2 ^ record.sizeBits) granuleBits).isNone then none
    else
      some (⟨owner.index, h⟩,
        { rank
          borrowed := if record.isBorrowed then 1 else 0
          size := if table.elastic[owner.index] then record.sizeBits else 0
          index })
  else none

def setLink (table : ExtentTable) (index : Nat) (link : Option Nat) : ExtentTable :=
  if (table.read index).isSome then { table with links := Function.update table.links index link }
  else table

def setHead (table : ExtentTable) (arena : Fin maxTaskArenas) (head : Option Nat) : ExtentTable :=
  { table with roomHead := table.roomHead.set arena head }

/-- The neighbours between which a key belongs: a walk of at most `limit` records. -/
def seek (table : ExtentTable) (arena : Fin maxTaskArenas) (key : RoomKey) :
    (limit : Nat) → (previous current : Option Nat) → Option Nat × Option Nat
  | 0, previous, current => (previous, current)
  | _ + 1, previous, none => (previous, none)
  | limit + 1, previous, some current =>
    match (table.read current).bind (table.roomKey current) with
    | some (owner, existing) =>
      if owner = arena && existing.before key then
        table.seek arena key limit (some current) (table.links current)
      else (previous, some current)
    | none => (previous, some current)

def insert (table : ExtentTable) (arena : Fin maxTaskArenas) (index : Nat) (key : RoomKey) :
    ExtentTable :=
  let (previous, current) :=
    table.seek arena key table.roomLen[arena] none table.roomHead[arena]
  let linked := table.setLink index current
  let entered :=
    match previous with
    | none => linked.setHead arena (some index)
    | some previous => linked.setLink previous (some index)
  { entered with roomLen := entered.roomLen.set arena (entered.roomLen[arena] + 1) }

def unlinkFrom (table : ExtentTable) (arena : Fin maxTaskArenas) (index : Nat) :
    (limit : Nat) → (previous current : Option Nat) → ExtentTable
  | 0, _, _ => table
  | _ + 1, _, none => table
  | limit + 1, previous, some current =>
    if (table.read current).isNone then table
    else if current = index then
      let left :=
        match previous with
        | none => table.setHead arena (table.links current)
        | some previous => table.setLink previous (table.links current)
      { left with roomLen := left.roomLen.set arena (left.roomLen[arena] - 1) }
    else table.unlinkFrom arena index limit (some current) (table.links current)

def unlink (table : ExtentTable) (arena : Fin maxTaskArenas) (index : Nat) : ExtentTable :=
  table.unlinkFrom arena index table.roomLen[arena] none table.roomHead[arena]

/-- A figure that would fall below zero stays there and puts the table out of step. -/
def fallsShort (table : ExtentTable) (short : Bool) : ExtentTable :=
  { table with outOfStep := table.outOfStep || short }

def countPresent (table : ExtentTable) (index : Nat) (before after : Option ExtentRecord) :
    ExtentTable :=
  let gained := table.present + if after.isSome then 1 else 0
  let lost := if before.isSome then 1 else 0
  { table.fallsShort (gained < lost) with
    present := gained - lost
    vacantFrom := if after.isNone then min table.vacantFrom index else table.vacantFrom }

def leaveFree (table : ExtentTable) (record : ExtentRecord) : ExtentTable :=
  let left :=
    { table.fallsShort (table.freeBytes < 2 ^ record.sizeBits) with
      freeBytes := table.freeBytes - 2 ^ record.sizeBits }
  match reuseSize record.sizeBits with
  | none => left
  | some size =>
    { left.fallsShort (left.freeCount[size] < 1) with
      freeCount := left.freeCount.set size (left.freeCount[size] - 1) }

def enterFree (table : ExtentTable) (index : Nat) (record : ExtentRecord) : ExtentTable :=
  let entered := { table with freeBytes := table.freeBytes + 2 ^ record.sizeBits }
  match reuseSize record.sizeBits with
  | none => entered
  | some size =>
    { entered with
      freeCount := entered.freeCount.set size (entered.freeCount[size] + 1)
      reuseFrom := entered.reuseFrom.set size (min entered.reuseFrom[size] index) }

def countFree (table : ExtentTable) (index : Nat) (before after : Option ExtentRecord) :
    ExtentTable :=
  let left :=
    match before.filter ExtentRecord.isCommonFree with
    | none => table
    | some record => table.leaveFree record
  match after.filter ExtentRecord.isCommonFree with
  | none => left
  | some record => left.enterFree index record

def write (table : ExtentTable) (index : Nat) (entry : Option ExtentRecord) : ExtentTable :=
  { table with records := table.records.set index entry }

/-- Take the record off the chain it was on and put it on the one it belongs to. -/
def rechain (table : ExtentTable) (index : Nat) (old new : Option (Fin maxTaskArenas × RoomKey))
    (after : Option ExtentRecord) : ExtentTable :=
  let unlinked :=
    match old with
    | none => table
    | some (owner, _) => table.unlink owner index
  let written :=
    { unlinked.write index after with links := Function.update unlinked.links index none }
  match new with
  | none => written
  | some (owner, key) => written.insert owner index key

def commit (table : ExtentTable) (index : Nat) (after : Option ExtentRecord) : ExtentTable :=
  let before := table.read index
  let counted := (table.countPresent index before after).countFree index before after
  let old := before.bind (counted.roomKey index)
  let new := after.bind (counted.roomKey index)
  if old.isSome && old == new then counted.write index after
  else counted.rechain index old new after

def set {ε : Type} (table : ExtentTable) (index : Nat) (entry : Option ExtentRecord) :
    Outcome ε ExtentTable :=
  if index < table.records.length then .ok (table.commit index entry) else .error .panicked

def updatePresent (table : ExtentTable) (index : Nat) (change : ExtentRecord → ExtentRecord) :
    ExtentTable :=
  match table.read index with
  | none => table
  | some record => table.commit index (some (change record))

def update {ε : Type} (table : ExtentTable) (index : Nat)
    (change : ExtentRecord → ExtentRecord) : Outcome ε ExtentTable :=
  match table.read index with
  | none => .error .panicked
  | some record => .ok (table.commit index (some (change record)))

/-- Forget an arena whose extents have all left its chain. -/
def resetArena (table : ExtentTable) (arena : Fin maxTaskArenas) : ExtentTable :=
  { table with
    roomHead := table.roomHead.set arena none
    roomLen := table.roomLen.set arena 0
    elastic := table.elastic.set arena false }

section Writes

variable (table : ExtentTable) (index : Nat) (link : Option Nat)

@[simp] theorem setLink_records : (table.setLink index link).records = table.records := by
  unfold setLink
  split <;> rfl

@[simp] theorem setLink_freeBytes : (table.setLink index link).freeBytes = table.freeBytes := by
  unfold setLink
  split <;> rfl

variable (arena : Fin maxTaskArenas) (key : RoomKey)

@[simp] theorem insert_records : (table.insert arena index key).records = table.records := by
  unfold insert
  dsimp only
  split <;> simp [setHead]

@[simp] theorem insert_freeBytes : (table.insert arena index key).freeBytes = table.freeBytes := by
  unfold insert
  dsimp only
  split <;> simp [setHead]

theorem unlinkFrom_keeps (limit : Nat) (previous current : Option Nat) :
    (table.unlinkFrom arena index limit previous current).records = table.records ∧
      (table.unlinkFrom arena index limit previous current).freeBytes = table.freeBytes := by
  induction limit generalizing previous current with
  | zero => exact ⟨rfl, rfl⟩
  | succ limit ih =>
    rcases current with _ | current
    · exact ⟨rfl, rfl⟩
    unfold unlinkFrom
    split
    · exact ⟨rfl, rfl⟩
    · split
      · rcases previous with _ | previous <;> simp [setHead]
      · exact ih (some current) (table.links current)

@[simp] theorem unlink_records : (table.unlink arena index).records = table.records :=
  (unlinkFrom_keeps table index arena _ _ _).1

@[simp] theorem unlink_freeBytes : (table.unlink arena index).freeBytes = table.freeBytes :=
  (unlinkFrom_keeps table index arena _ _ _).2

variable (old new : Option (Fin maxTaskArenas × RoomKey)) (after : Option ExtentRecord)

theorem rechain_records :
    (table.rechain index old new after).records = table.records.set index after := by
  unfold rechain
  rcases old with _ | old <;> rcases new with _ | new <;> simp [write]

theorem rechain_freeBytes : (table.rechain index old new after).freeBytes = table.freeBytes := by
  unfold rechain
  rcases old with _ | old <;> rcases new with _ | new <;> simp [write]

variable (before after : Option ExtentRecord)

@[simp] theorem countPresent_records :
    (table.countPresent index before after).records = table.records := rfl

@[simp] theorem countPresent_freeBytes :
    (table.countPresent index before after).freeBytes = table.freeBytes := rfl

variable (record : ExtentRecord)

@[simp] theorem leaveFree_records : (table.leaveFree record).records = table.records := by
  unfold leaveFree
  split <;> rfl

@[simp] theorem leaveFree_freeBytes :
    (table.leaveFree record).freeBytes = table.freeBytes - 2 ^ record.sizeBits := by
  unfold leaveFree
  split <;> rfl

@[simp] theorem enterFree_records : (table.enterFree index record).records = table.records := by
  unfold enterFree
  split <;> rfl

@[simp] theorem enterFree_freeBytes :
    (table.enterFree index record).freeBytes = table.freeBytes + 2 ^ record.sizeBits := by
  unfold enterFree
  split <;> rfl

@[simp] theorem countFree_records :
    (table.countFree index before after).records = table.records := by
  unfold countFree
  rcases before.filter isCommonFree with _ | - <;>
    rcases after.filter isCommonFree with _ | - <;> simp

def freeWeight (entry : Option ExtentRecord) : Nat :=
  match entry.filter ExtentRecord.isCommonFree with
  | none => 0
  | some record => 2 ^ record.sizeBits

theorem freeWeight_of_free {record : ExtentRecord} (h : record.isCommonFree = true) :
    freeWeight (some record) = 2 ^ record.sizeBits := by
  unfold freeWeight
  rw [Option.filter_some, if_pos h]

theorem freeWeight_of_held {record : ExtentRecord} (h : record.isCommonFree = false) :
    freeWeight (some record) = 0 := by
  unfold freeWeight
  rw [Option.filter_some, if_neg (by simp [h])]

theorem countFree_freeBytes : (table.countFree index before after).freeBytes =
      table.freeBytes - freeWeight before + freeWeight after := by
  unfold countFree freeWeight
  rcases before.filter isCommonFree with _ | - <;>
    rcases after.filter isCommonFree with _ | - <;> simp

@[simp] theorem commit_records :
    (table.commit index after).records = table.records.set index after := by
  unfold commit
  dsimp only
  split
  · simp [write]
  · simp [rechain_records]

theorem commit_freeBytes : (table.commit index after).freeBytes =
      table.freeBytes - freeWeight (table.read index) + freeWeight after := by
  unfold commit
  dsimp only
  split
  · simp [write, countFree_freeBytes]
  · simp [rechain_freeBytes, countFree_freeBytes]

end Writes

end ExtentTable

end SlimeOs.ObjectAllocator
