import Mathlib.Algebra.GroupWithZero.Nat
import SlimeOs.BitWord
import SlimeOs.FallibleCall

/-!
The root task's pool of capability slots. Occupancy is kept in bitmap words of up
to 64 adjacent slots, the first of them in a fixed array and the rest in storage
that grows. Addresses and counts are numbers below `2 ^ 64`; an access to a word
that does not exist panics.
-/

namespace SlimeOs.RootSlots

open BitWord FallibleCall FallibleCall.Outcome

def bits : Nat := 64

def usizeMax : Nat := 2 ^ 64 - 1

/-- `BOOTSTRAP_WORDS`, from the configured number of boot untypeds. -/
def bootstrapWords (maxKernelUntypeds : Nat) : Nat := (maxKernelUntypeds + 128 + (bits - 1)) / bits

inductive AllocError where
  | noKernelUntyped
  | slotsExhausted (allocated : Nat)
deriving DecidableEq

structure SlotWord where
  base : Nat
  valid : Nat
  used : UInt64
  issued : UInt64
  planned : UInt64
deriving DecidableEq

namespace SlotWord

def empty : SlotWord := ⟨0, 0, 0, 0, 0⟩

def mask (word : SlotWord) : UInt64 := lowMask word.valid

end SlotWord

structure Range where
  start : UInt64
  stop : UInt64
deriving DecidableEq

structure SlotPool (maxKernelUntypeds : Nat) where
  bootstrap : Vector SlotWord (bootstrapWords maxKernelUntypeds)
  words : List SlotWord
  count : Nat
  total : Nat
  live : Nat
  initialEnd : Nat
  nextWord : Nat

variable {maxKernelUntypeds : Nat}

namespace SlotPool

def empty : SlotPool maxKernelUntypeds :=
  { bootstrap := Vector.replicate _ SlotWord.empty
    words := []
    count := 0
    total := 0
    live := 0
    initialEnd := 0
    nextWord := 0 }

def word (pool : SlotPool maxKernelUntypeds) (index : Nat) : Option SlotWord :=
  if index < bootstrapWords maxKernelUntypeds then pool.bootstrap[index]?
  else pool.words[index - bootstrapWords maxKernelUntypeds]?

/-- The pool after a write through `word_mut`. -/
def setWord (pool : SlotPool maxKernelUntypeds) (index : Nat) (word : SlotWord) :
    Option (SlotPool maxKernelUntypeds) :=
  if index < bootstrapWords maxKernelUntypeds then
    some { pool with bootstrap := pool.bootstrap.setIfInBounds index word }
  else if index - bootstrapWords maxKernelUntypeds < pool.words.length then
    some { pool with words := pool.words.set (index - bootstrapWords maxKernelUntypeds) word }
  else none

/-- The bootstrap words and the grown ones, in the order they are walked. -/
def allWords (pool : SlotPool maxKernelUntypeds) : List SlotWord :=
  pool.bootstrap.toList ++ pool.words

def metadataFree (pool : SlotPool maxKernelUntypeds) : Nat :=
  bootstrapWords maxKernelUntypeds + pool.words.length - pool.count

def free (pool : SlotPool maxKernelUntypeds) : Nat := pool.total - pool.live

end SlotPool

abbrev PoolCall (maxKernelUntypeds : Nat) := Call (SlotPool maxKernelUntypeds) AllocError

def writeWord (index : Nat) (word : SlotWord) : PoolCall maxKernelUntypeds Unit := do
  let pool ← Call.read
  let written ← Call.lift (unwrap (pool.setWord index word))
  Call.modify fun _ => written

def admitWord (start stop : Nat) (_ : Unit) (index : Nat) : PoolCall maxKernelUntypeds Unit := do
  let pool ← Call.read
  let base := start + index * bits
  writeWord pool.count
    { SlotWord.empty with
      base := base
      valid := min (stop - base) bits }
  Call.modify fun pool => { pool with count := pool.count + 1 }

def rejectOverlap (pool : SlotPool maxKernelUntypeds) (start stop : Nat) (_ : Unit) (index : Nat) :
    Outcome AllocError Unit := do
  let old ← unwrap (pool.word index)
  rejectIf (decide (start < old.base + old.valid) && decide (old.base < stop))
    .noKernelUntyped

def admitRange (range : Range) : PoolCall maxKernelUntypeds Unit := do
  let start := range.start.toNat
  let stop := range.stop.toNat
  Call.rejectIf (decide (stop < start)) .noKernelUntyped
  let len := stop - start
  let words := (len + (bits - 1)) / bits
  let pool ← Call.read
  Call.rejectIf (decide (pool.metadataFree < words)) (.slotsExhausted pool.live)
  Call.rejectIf (start == usizeMax || stop == usizeMax) .noKernelUntyped
  Call.lift ((List.range pool.count).foldlM (rejectOverlap pool start stop) ())
  Call.rejectIf (decide (usizeMax < pool.total + len)) .noKernelUntyped
  (List.range words).foldlM (admitWord start stop) ()
  Call.modify fun current => { current with total := pool.total + len }

def initializePool (range : Range) : PoolCall maxKernelUntypeds Unit := do
  let pool ← Call.read
  Call.rejectIf (decide (range.stop ≤ range.start) || pool.count != 0) (.slotsExhausted 0)
  Call.modify fun pool => { pool with initialEnd := range.stop.toNat }
  let stop := min range.stop.toNat
    (min (range.start.toNat + bootstrapWords maxKernelUntypeds * bits) usizeMax)
  admitRange ⟨range.start, UInt64.ofNat stop⟩

/-- Record pages supply empty words. -/
def provision (count : Nat) : PoolCall maxKernelUntypeds Unit :=
  Call.modify fun pool =>
    { pool with words := pool.words ++ List.replicate count SlotWord.empty }

/-- The walk for a free slot from `index` on, with the number of words left. -/
def allocateFrom (allocated : Nat) : Nat → Nat → PoolCall maxKernelUntypeds (Nat × Bool)
  | 0, _ => Call.lift (.error (.returned (.slotsExhausted allocated)))
  | left + 1, index => do
    let pool ← Call.read
    let word ← Call.lift (unwrap (pool.word index))
    let free := ~~~word.used &&& word.mask
    if free == 0 then allocateFrom allocated left (index + 1)
    else do
      let bit := trailingZeros free
      let mask := bitMask bit
      let reused := word.issued &&& mask != 0
      writeWord index { word with used := word.used ||| mask, issued := word.issued ||| mask }
      Call.modify fun pool =>
        { pool with
          nextWord := index
          live := pool.live + 1 }
      pure (word.base + bit, reused)

def allocate (allocated : Nat) : PoolCall maxKernelUntypeds (Nat × Bool) := do
  let pool ← Call.read
  allocateFrom allocated (pool.count - pool.nextWord) pool.nextWord

def SlotPool.locateBetween (pool : SlotPool maxKernelUntypeds) (slot : Nat) :
    Nat → Nat → Nat → Outcome AllocError (Option (Nat × Nat))
  | passes, low, high =>
    if low < high then
      match passes with
      | 0 => .error .diverged
      | passes + 1 => do
        let index := low + (high - low) / 2
        let word ← unwrap (pool.word index)
        if slot < word.base then pool.locateBetween slot passes low index
        else if slot - word.base < word.valid then pure (some (index, slot - word.base))
        else pool.locateBetween slot passes (index + 1) high
    else pure none

def SlotPool.locate (pool : SlotPool maxKernelUntypeds) (slot : Nat) :
    Outcome AllocError (Option (Nat × Nat)) :=
  pool.locateBetween slot pool.count 0 pool.count

def release (slot : Nat) : PoolCall maxKernelUntypeds Bool := do
  let pool ← Call.read
  let located ← Call.lift (pool.locate slot)
  match located with
  | none => pure false
  | some (index, bit) => do
    let word ← Call.lift (unwrap (pool.word index))
    let mask := bitMask bit
    if word.used &&& mask == 0 then pure false
    else do
      writeWord index { word with used := word.used &&& ~~~mask }
      Call.modify fun pool =>
        { pool with
          live := pool.live - 1
          nextWord := min pool.nextWord index }
      pure true

/-- Slots from `2 ^ 60` on are grouped in leaves of 1024, and a run stays in one. -/
def sameLeaf (previous address : Nat) : Bool :=
  address == previous + 1 &&
    (decide (address < 2 ^ 60) || address >>> 10 == previous >>> 10)

structure RunScan where
  start : Nat
  run : Nat
  previous : Option Nat
deriving DecidableEq

/-- One slot of the scan. The scan leaves by `error` once the run is long enough. -/
def scanBit (count : Nat) (extra : Option Nat) (base : Nat) (bitmap : UInt64) (state : RunScan)
    (bit : Nat) : Except Nat RunScan :=
  let address := base + bit
  let run := if state.previous.all fun previous => sameLeaf previous address then state.run else 0
  if bitmap &&& bitMask bit != 0 || extra == some address then
    .ok ⟨state.start, 0, some address⟩
  else
    let start := if run == 0 then address else state.start
    if run + 1 == count then .error start else .ok ⟨start, run + 1, some address⟩

def scanWord (count : Nat) (extra : Option Nat) (planned : Bool) (state : RunScan)
    (word : SlotWord) : Except Nat RunScan :=
  let bitmap := if planned then word.planned else word.used
  if bitmap &&& word.mask == word.mask then .ok ⟨state.start, 0, none⟩
  else (List.range word.valid).foldlM (scanBit count extra word.base bitmap) state

def SlotPool.contiguous (pool : SlotPool maxKernelUntypeds) (count : Nat) (extra : Option Nat)
    (planned : Bool) : Option Nat :=
  if count == 0 then none
  else
    match (pool.allWords.take pool.count).foldlM (scanWord count extra planned) ⟨0, 0, none⟩ with
    | .error start => some start
    | .ok _ => none

def takeSlot (start reused index : Nat) : PoolCall maxKernelUntypeds Nat := do
  let pool ← Call.read
  let located ← Call.lift (pool.locate (start + index))
  let (position, bit) ← Call.lift (unwrap located)
  let word ← Call.lift (unwrap (pool.word position))
  let mask := bitMask bit
  writeWord position { word with used := word.used ||| mask, issued := word.issued ||| mask }
  pure (if word.issued &&& mask != 0 then reused + 1 else reused)

def allocateContiguous (count allocated : Nat) : PoolCall maxKernelUntypeds (Nat × Nat) := do
  let pool ← Call.read
  let start ← Call.lift (okOr (pool.contiguous count none false) (.slotsExhausted allocated))
  let reused ← (List.range count).foldlM (takeSlot start) 0
  Call.modify fun pool => { pool with live := pool.live + count }
  pure (start, reused)

inductive PlanRequest where
  | allocate (allocated : Nat)
  | allocateContiguous (count allocated : Nat)
deriving DecidableEq

/-- The planner starts from the slots in use. -/
def copyUsed (_ : Unit) (index : Nat) : PoolCall maxKernelUntypeds Unit := do
  let pool ← Call.read
  let word ← Call.lift (unwrap (pool.word index))
  writeWord index { word with planned := word.used }

def planFrom (allocated : Nat) : Nat → Nat → PoolCall maxKernelUntypeds (Nat × Nat)
  | 0, _ => Call.lift (.error (.returned (.slotsExhausted allocated)))
  | left + 1, index => do
    let pool ← Call.read
    let word ← Call.lift (unwrap (pool.word index))
    let free := ~~~word.planned &&& word.mask
    if free == 0 then planFrom allocated left (index + 1)
    else do
      let bit := trailingZeros free
      writeWord index { word with planned := word.planned ||| bitMask bit }
      pure (word.base + bit, index)

def planSlot (start : Nat) (_ : Unit) (index : Nat) : PoolCall maxKernelUntypeds Unit := do
  let pool ← Call.read
  let located ← Call.lift (pool.locate (start + index))
  let (position, bit) ← Call.lift (unwrap located)
  let word ← Call.lift (unwrap (pool.word position))
  writeWord position { word with planned := word.planned ||| bitMask bit }

def planOne (nextWord : Nat) : PlanRequest → PoolCall maxKernelUntypeds (Nat × Nat)
  | .allocate allocated => do
    let pool ← Call.read
    planFrom allocated (pool.count - nextWord) nextWord
  | .allocateContiguous count allocated => do
    let pool ← Call.read
    let start ← Call.lift (okOr (pool.contiguous count none true) (.slotsExhausted allocated))
    (List.range count).foldlM (planSlot start) ()
    pure (start, nextWord)

/-- The requests of a plan. A failed one leaves the hint as it was. -/
def planAll (nextWord : Nat) : List PlanRequest → PoolCall maxKernelUntypeds (List (Option Nat))
  | [] => pure []
  | request :: requests => fun pool =>
    match planOne nextWord request pool with
    | (.ok (start, next), pool') =>
      (planAll next requests >>= fun answers => pure (some start :: answers)) pool'
    | (.error (.returned _), pool') =>
      (planAll nextWord requests >>= fun answers => pure (none :: answers)) pool'
    | (.error .panicked, pool') => (.error .panicked, pool')
    | (.error .diverged, pool') => (.error .diverged, pool')

def planner (requests : List PlanRequest) : PoolCall maxKernelUntypeds (List (Option Nat)) := do
  let pool ← Call.read
  (List.range pool.count).foldlM copyUsed ()
  planAll 0 requests

end SlimeOs.RootSlots
