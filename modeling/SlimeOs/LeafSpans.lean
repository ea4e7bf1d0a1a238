import Mathlib.Algebra.Group.Nat.Defs
import SlimeOs.FallibleCall

/-!
The records of which spans of a region own a leaf table. A record taken back is linked into a
free list threaded through the records and handed to the next region that asks. `Linked` says
which entries of such a list are reached from its head, in which order.
-/

namespace SlimeOs.LeafSpans

open FallibleCall

inductive Linked (next : Nat → Option Nat) : Option Nat → List Nat → Prop where
  | nil : Linked next none []
  | cons {p : Nat} {xs : List Nat} (rest : Linked next (next p) xs) :
      Linked next (some p) (p :: xs)

theorem Linked.congr {next next' : Nat → Option Nat} {head : Option Nat} {xs : List Nat}
    (h : Linked next head xs) (hsame : ∀ p ∈ xs, next' p = next p) : Linked next' head xs := by
  induction h with
  | nil => exact .nil
  | cons rest ih =>
    refine .cons ?_
    rw [hsame _ List.mem_cons_self]
    exact ih fun p hp => hsame p (List.mem_cons_of_mem _ hp)

def runWords : Nat := 64
def maxWindowSpans : Nat := runWords * 64

/-- The index that stands for no record. -/
def noRecord : Nat := 2 ^ 32 - 1

def entriesPerPage : Nat := 7

/-- The pages a segmented table can address, seven records to each. -/
def maxRuns : Nat := (4096 + 64 * 512) * entriesPerPage

structure LeafSpanRun where
  words : Vector UInt64 runWords
  freeNext : Nat
  live : Bool

def LeafSpanRun.empty : LeafSpanRun := ⟨Vector.replicate runWords 0, noRecord, false⟩

/-- A region's handle: the record it points at, its index and the spans it covers. -/
structure LeafSpanBits where
  record : Option Nat
  index : Nat
  spans : Nat

/-- A table of `capacity` records: the ones behind it are as an appended page brings them. -/
structure LeafSpanStore where
  runs : Nat → LeafSpanRun
  capacity : Nat
  next : Nat
  free : Nat
  fits : capacity ≤ maxRuns

namespace LeafSpanStore

def new : LeafSpanStore := ⟨fun _ => .empty, 0, 0, noRecord, Nat.zero_le _⟩

variable (store : LeafSpanStore)

def get (index : Nat) : Option LeafSpanRun :=
  if index < store.capacity then some (store.runs index) else none

def setRun (index : Nat) (run : LeafSpanRun) : LeafSpanStore :=
  { store with runs := Function.update store.runs index run }

def append : LeafSpanStore :=
  if h : store.capacity + entriesPerPage ≤ maxRuns then
    { store with
      capacity := store.capacity + entriesPerPage
      fits := h }
  else store

/-- The record an acquisition takes: the head of the free list, or the next one never used. -/
def takeIndex : Option (Nat × LeafSpanStore) :=
  if store.free = noRecord then
    (store.get store.next).map fun _ => (store.next, { store with next := store.next + 1 })
  else
    (store.get store.free).map fun record =>
      (store.free,
        { store.setRun store.free { record with freeNext := noRecord } with
          free := record.freeNext })

def acquire (spans : Nat) : Option LeafSpanBits × LeafSpanStore :=
  if spans = 0 ∨ maxWindowSpans < spans then (none, store)
  else
    match store.takeIndex with
    | none => (none, store)
    | some (index, store) =>
      match store.get index with
      | none => (none, store)
      | some record =>
        (some ⟨some index, index, spans⟩,
          store.setRun index
            { record with
              words := Vector.replicate runWords 0
              live := true })

def release (bits : LeafSpanBits) : LeafSpanStore :=
  match bits.record, store.get bits.index with
  | some _, some record =>
    if record.live then
      { store.setRun bits.index ⟨Vector.replicate runWords 0, store.free, false⟩ with
        free := bits.index }
    else store
  | _, _ => store

def live (index : Nat) : Bool := (store.runs index).live

def linked (index : Nat) : Option Nat := if index = noRecord then none else some index

def link (index : Nat) : Option Nat := linked (store.runs index).freeNext

def setWords (index : Nat) (words : Vector UInt64 runWords) : LeafSpanStore :=
  store.setRun index { store.runs index with words }

end LeafSpanStore

namespace LeafSpanBits

/-- The handle writes through its pointer, also when its record has been given back. -/
def set (bits : LeafSpanBits) (span : Nat) (store : LeafSpanStore) : Bool × LeafSpanStore :=
  match bits.record with
  | none => (false, store)
  | some index =>
    let words := (store.runs index).words
    let mask : UInt64 := 1 <<< UInt64.ofNat (span % 64)
    let word := words[span / 64]?.getD 0
    if bits.spans ≤ span ∨ word &&& mask ≠ 0 then (false, store)
    else (true, store.setWords index (words.setIfInBounds (span / 64) (word ||| mask)))

def clear (bits : LeafSpanBits) (store : LeafSpanStore) : LeafSpanStore :=
  match bits.record with
  | none => store
  | some index => store.setWords index (Vector.replicate runWords 0)

end LeafSpanBits

open LeafSpanStore List

inductive Operation where
  | append
  | acquire (spans : Nat)
  | release (handle : Nat)
  | set (handle span : Nat)
  | clear (handle : Nat)

/-- A store in use, with every handle it gave out and the handles given back since. -/
structure Session where
  store : LeafSpanStore
  handles : List LeafSpanBits
  released : List Nat

def Session.start : Session := ⟨new, [], []⟩

def Session.written (session : Session) (handle : Nat)
    (call : LeafSpanBits → LeafSpanStore → LeafSpanStore) : Session :=
  match session.handles[handle]? with
  | none => session
  | some bits => { session with store := call bits session.store }

def Session.step (session : Session) : Operation → Session
  | .append => { session with store := session.store.append }
  | .acquire spans =>
    { session with
      store := (session.store.acquire spans).2
      handles := session.handles ++ (session.store.acquire spans).1.toList }
  | .release handle =>
    match session.handles[handle]? with
    | none => session
    | some bits =>
      { session with
        store := session.store.release bits
        released := handle :: session.released }
  | .set handle span => session.written handle fun bits store => (bits.set span store).2
  | .clear handle => session.written handle LeafSpanBits.clear

/-- The handle was acquired and is not yet released. -/
def Session.Holds (session : Session) (handle index : Nat) : Prop :=
  handle ∉ session.released ∧ (session.handles[handle]?).map LeafSpanBits.index = some index

/-- A handle given back is not given back again once its record has a new holder. -/
def Current (session : Session) : Operation → Prop
  | .release handle => handle ∈ session.released →
    ∀ other index, session.Holds other index →
      (session.handles[handle]?).map LeafSpanBits.index ≠ some index
  | _ => True

/-- Releasing a handle a second time, after its record went to another region, frees the
record under that region and the next acquisition shares it. -/
theorem stale_release_shares_record :
    let session := run Session.step Session.start
      [.append, .acquire 1, .release 0, .acquire 1, .release 0, .acquire 1]
    session.Holds 1 0 ∧ session.Holds 2 0 := by
  refine ⟨⟨?_, rfl⟩, ?_, rfl⟩ <;> decide

section Store

variable {store : LeafSpanStore} {index p : Nat} {run : LeafSpanRun}

theorem live_setRun :
    (store.setRun index run).live p = if p = index then run.live else store.live p := by
  unfold live setRun
  simp only [Function.update_apply]
  split <;> rfl

theorem link_setRun (hne : p ≠ index) : (store.setRun index run).link p = store.link p := by
  simp only [link, setRun, Function.update_of_ne hne]

end Store

theorem set_eq (bits : LeafSpanBits) (span : Nat) (store : LeafSpanStore) :
    (bits.set span store).2 = store ∨
      ∃ index words, (bits.set span store).2 = store.setWords index words := by
  unfold LeafSpanBits.set
  split
  · exact .inl rfl
  · dsimp only
    split
    · exact .inl rfl
    · exact .inr ⟨_, _, rfl⟩

theorem clear_eq (bits : LeafSpanBits) (store : LeafSpanStore) :
    bits.clear store = store ∨ ∃ index words, bits.clear store = store.setWords index words := by
  unfold LeafSpanBits.clear
  split
  · exact .inl rfl
  · exact .inr ⟨_, _, rfl⟩

/-- The free list runs through idle records, and every live record has one holder. -/
structure Sound (session : Session) (free : List Nat) : Prop where
  chain : Linked session.store.link (linked session.store.free) free
  distinct : free.Nodup
  idle : ∀ p ∈ free, p < session.store.next ∧ session.store.live p = false
  bound : session.store.next ≤ session.store.capacity
  used : ∀ p, session.store.live p = true → p < session.store.next
  held : ∀ p, session.store.live p = true ↔ ∃ handle, session.Holds handle p
  single : ∀ first second p, session.Holds first p → session.Holds second p → first = second
  named : ∀ bits ∈ session.handles, bits.record = some bits.index
  given : ∀ handle ∈ session.released, handle < session.handles.length

section Steps

variable {session : Session} {free : List Nat} (h : Sound session free)
include h

/-- An idle record leaves the free list, or the unused part of the store, for a new handle. -/
theorem Sound.hand {store : LeafSpanStore} {free' : List Nat} {index spans : Nat}
    (hidle : session.store.live index = false)
    (hlive : ∀ p, store.live p = if p = index then true else session.store.live p)
    (hchain : Linked store.link (linked store.free) free') (hfree : free' <+ free)
    (hindex : index ∉ free') (hnext : session.store.next ≤ store.next ∧ index < store.next)
    (hbound : store.next ≤ store.capacity) :
    Sound { session with
      store := store
      handles := session.handles ++ [⟨some index, index, spans⟩] } free' := by
  have hholds (handle p : Nat) : Session.Holds { session with
      store := store
      handles := session.handles ++ [⟨some index, index, spans⟩] } handle p ↔
      session.Holds handle p ∨ handle = session.handles.length ∧ p = index := by
    unfold Session.Holds
    rcases Nat.lt_trichotomy handle session.handles.length with hlt | rfl | hgt
    · simp [getElem?_append_left hlt, Nat.ne_of_lt hlt]
    · have hnew : session.handles.length ∉ session.released := fun hmem =>
        Nat.lt_irrefl _ (h.given _ hmem)
      simp [hnew, eq_comm]
    · simp [getElem?_eq_none (Nat.le_of_lt hgt), getElem?_append_right (Nat.le_of_lt hgt),
        Nat.ne_of_gt hgt, Nat.sub_ne_zero_of_lt hgt]
  have hother {handle : Nat} : ¬ session.Holds handle index := fun hheld =>
    Bool.false_ne_true (hidle.symm.trans ((h.held index).mpr ⟨handle, hheld⟩))
  refine ⟨hchain, h.distinct.sublist hfree, ?_, hbound, ?_, ?_, ?_, ?_, ?_⟩
  · intro p hp
    obtain ⟨hused, hold⟩ := h.idle p (hfree.subset hp)
    refine ⟨Nat.lt_of_lt_of_le hused hnext.1, ?_⟩
    rw [hlive, if_neg (by rintro rfl; exact hindex hp)]
    exact hold
  · intro p hp
    rw [hlive] at hp
    split at hp
    next heq => exact heq ▸ hnext.2
    · exact Nat.lt_of_lt_of_le (h.used p hp) hnext.1
  · intro p
    simp only [hholds, hlive, exists_or, ← h.held p]
    split
    next heq => simp [heq]
    next hne => simp [hne]
  · intro first second p hfirst hsecond
    rw [hholds] at hfirst hsecond
    rcases hfirst with hfirst | ⟨hfirst, hp⟩ <;> rcases hsecond with hsecond | ⟨hsecond, hp'⟩
    · exact h.single first second p hfirst hsecond
    · exact absurd (hp' ▸ hfirst) hother
    · exact absurd (hp ▸ hsecond) hother
    · exact hfirst.trans hsecond.symm
  · intro bits hbits
    rcases mem_append.mp hbits with hold | hnew
    · exact h.named bits hold
    · rw [mem_singleton.mp hnew]
  · intro handle hhandle
    rw [length_append]
    exact Nat.lt_add_right _ (h.given handle hhandle)

theorem Sound.acquired (spans : Nat) : ∃ free', Sound (session.step (.acquire spans)) free' := by
  change ∃ free', Sound { session with
    store := (session.store.acquire spans).2
    handles := session.handles ++ (session.store.acquire spans).1.toList } free'
  have hsame (hnone : session.store.acquire spans = (none, session.store)) :
      ∃ free', Sound { session with
        store := (session.store.acquire spans).2
        handles := session.handles ++ (session.store.acquire spans).1.toList } free' := by
    rw [hnone, Option.toList_none, append_nil]
    exact ⟨free, h⟩
  by_cases hspans : spans = 0 ∨ maxWindowSpans < spans
  · exact hsame (if_pos hspans)
  by_cases hempty : session.store.free = noRecord
  · by_cases hlt : session.store.next < session.store.capacity
    swap
    · exact hsame (by simp [acquire, takeIndex, LeafSpanStore.get, hspans, hempty, hlt])
    have hidle : session.store.live session.store.next = false := by
      rw [Bool.eq_false_iff]
      exact fun hlive => Nat.lt_irrefl _ (h.used _ hlive)
    have htaken : session.store.acquire spans =
        (some ⟨some session.store.next, session.store.next, spans⟩,
          setRun { session.store with next := session.store.next + 1 } session.store.next
            ⟨Vector.replicate runWords 0, (session.store.runs session.store.next).freeNext,
              true⟩) := by
      simp [acquire, takeIndex, LeafSpanStore.get, hspans, hempty, hlt]
    rw [htaken]
    refine ⟨[], h.hand hidle (fun p => live_setRun) ?_ (nil_sublist _) not_mem_nil
      ⟨Nat.le_succ _, Nat.lt_succ_self _⟩ hlt⟩
    change Linked _ (linked session.store.free) []
    rw [hempty]
    exact .nil
  · have hchain := h.chain
    rw [linked, if_neg hempty] at hchain
    obtain ⟨rest, rfl, hrest⟩ : ∃ rest, free = session.store.free :: rest ∧
        Linked session.store.link (session.store.link session.store.free) rest := by
      cases hchain with
      | cons hrest => exact ⟨_, rfl, hrest⟩
    obtain ⟨hused, hidle⟩ := h.idle _ mem_cons_self
    have hfresh := (nodup_cons.mp h.distinct).1
    have hlt := Nat.lt_of_lt_of_le hused h.bound
    have htaken : session.store.acquire spans =
        (some ⟨some session.store.free, session.store.free, spans⟩,
          { session.store.setRun session.store.free
              ⟨Vector.replicate runWords 0, noRecord, true⟩ with
            free := (session.store.runs session.store.free).freeNext }) := by
      simp [acquire, takeIndex, LeafSpanStore.get, setRun, hspans, hempty, hlt]
    rw [htaken]
    exact ⟨rest, h.hand hidle (fun p => live_setRun)
      (hrest.congr fun p hp => link_setRun (by rintro rfl; exact hfresh hp))
      (sublist_cons_self _ _) hfresh ⟨Nat.le_refl _, hused⟩ h.bound⟩

/-- A released record is idle and heads the free list, if it was live. -/
theorem Sound.freed {bits : LeafSpanBits} (hbits : bits ∈ session.handles) :
    (∀ p, (session.store.release bits).live p =
      if p = bits.index then false else session.store.live p) ∧
    (session.store.release bits).next = session.store.next ∧
    (session.store.release bits).capacity = session.store.capacity ∧
    ∃ free', Linked (session.store.release bits).link (linked (session.store.release bits).free)
      free' ∧ free'.Nodup ∧ ∀ p ∈ free', p ∈ free ∨ p = bits.index ∧ p < session.store.next := by
  by_cases hlive : session.store.live bits.index = true
  · have hused := h.used _ hlive
    have hlt := Nat.lt_of_lt_of_le hused h.bound
    have hfresh : bits.index ∉ free := fun hmem =>
      Bool.false_ne_true ((h.idle _ hmem).2.symm.trans hlive)
    have hfreed : session.store.release bits =
        { session.store.setRun bits.index
            ⟨Vector.replicate runWords 0, session.store.free, false⟩ with free := bits.index } := by
      have hrecord : (session.store.runs bits.index).live = true := hlive
      simp [release, LeafSpanStore.get, h.named bits hbits, hlt, hrecord]
    rw [hfreed]
    refine ⟨fun p => live_setRun, rfl, rfl, bits.index :: free, ?_,
      nodup_cons.mpr ⟨hfresh, h.distinct⟩, ?_⟩
    · have hfits : bits.index ≠ noRecord := by
        have hfits := session.store.fits
        unfold maxRuns entriesPerPage at hfits
        unfold noRecord
        omega
      rw [linked, if_neg hfits]
      refine .cons ?_
      have hlink : link (session.store.setRun bits.index
          ⟨Vector.replicate runWords 0, session.store.free, false⟩) bits.index =
          linked session.store.free := by
        simp [link, setRun]
      exact hlink ▸ h.chain.congr fun p hp => link_setRun (by rintro rfl; exact hfresh hp)
    · intro p hp
      rcases mem_cons.mp hp with rfl | hp
      · exact .inr ⟨rfl, hused⟩
      · exact .inl hp
  · have hkept : session.store.release bits = session.store := by
      unfold release
      split
      next hrun =>
        obtain ⟨-, hrun⟩ := Option.ite_none_right_eq_some.mp hrun
        exact if_neg (Option.some.inj hrun ▸ hlive)
      · rfl
    rw [hkept]
    refine ⟨fun p => ?_, rfl, rfl, free, h.chain, h.distinct, fun p => .inl⟩
    split
    next heq => exact heq ▸ Bool.eq_false_iff.mpr hlive
    · rfl

theorem Sound.returned {handle : Nat} (hcurrent : Current session (.release handle)) :
    ∃ free', Sound (session.step (.release handle)) free' := by
  rcases hhandle : session.handles[handle]? with _ | bits
  · simp only [Session.step, hhandle]
    exact ⟨free, h⟩
  simp only [Session.step, hhandle]
  have hindex : (session.handles[handle]?).map LeafSpanBits.index = some bits.index := by
    rw [hhandle]
    rfl
  have hsole (other : Nat) (hother : session.Holds other bits.index) : other = handle := by
    by_cases hmem : handle ∈ session.released
    · exact absurd hindex (hcurrent hmem other _ hother)
    · exact h.single other handle _ hother ⟨hmem, hindex⟩
  have hholds (other p : Nat) : Session.Holds { session with
      store := session.store.release bits
      released := handle :: session.released } other p ↔
      other ≠ handle ∧ session.Holds other p := by
    simp [Session.Holds, and_assoc]
  obtain ⟨hafter, hnext, hlength, free', hchain, hdistinct, hfree⟩ :=
    h.freed (mem_of_getElem? hhandle)
  refine ⟨free', hchain, hdistinct, ?_, by rw [hnext, hlength]; exact h.bound, ?_, ?_, ?_,
    h.named, ?_⟩
  · intro p hp
    rw [hafter, hnext]
    rcases hfree p hp with hp | ⟨hp, hused⟩
    · exact ⟨(h.idle p hp).1, by rw [(h.idle p hp).2, ite_self]⟩
    · exact ⟨hused, if_pos hp⟩
  · intro p hp
    rw [hafter] at hp
    rw [hnext]
    split at hp
    · cases hp
    · exact h.used p hp
  · intro p
    simp only [hholds, hafter]
    split
    next heq =>
      subst heq
      exact iff_of_false Bool.false_ne_true fun ⟨other, hne, hother⟩ => hne (hsole other hother)
    next hne =>
      rw [h.held]
      refine exists_congr fun other => (and_iff_right_of_imp ?_).symm
      rintro hother rfl
      exact hne (Option.some.inj (hother.2.symm.trans hindex))
  · intro first second p hfirst hsecond
    exact h.single first second p ((hholds first p).mp hfirst).2 ((hholds second p).mp hsecond).2
  · rintro other (_ | ⟨_, hother⟩)
    · exact (List.getElem_of_getElem? hhandle).1
    · exact h.given other hother

theorem Sound.grown : Sound (session.step .append) free := by
  change Sound { session with store := session.store.append } free
  unfold append
  split
  · exact { h with bound := Nat.le_add_right_of_le h.bound }
  · exact h

theorem Sound.written {handle : Nat} {call : LeafSpanBits → LeafSpanStore → LeafSpanStore}
    (hcall : ∀ bits store, call bits store = store ∨
      ∃ index words, call bits store = store.setWords index words) :
    Sound (session.written handle call) free := by
  unfold Session.written
  split
  · exact h
  next bits _ =>
    rcases hcall bits session.store with heq | ⟨index, words, heq⟩
    · rw [heq]
      exact h
    have hlive (p : Nat) : (session.store.setWords index words).live p = session.store.live p := by
      rw [setWords, live_setRun]
      split
      next hp => exact hp ▸ rfl
      · rfl
    have hlink (p : Nat) : (session.store.setWords index words).link p = session.store.link p := by
      by_cases hp : p = index
      · simp [hp, setWords, link, setRun]
      · exact link_setRun hp
    rw [heq]
    exact { h with
      chain := h.chain.congr fun p _ => hlink p
      idle := fun p hp => hlive p ▸ h.idle p hp
      used := fun p hp => h.used p (hlive p ▸ hp)
      held := fun p => hlive p ▸ h.held p }

end Steps

/-- While no handle is given back after its record has a new holder, no two handles share a
record, a record is handed out with its spans clear, and the free list is a chain of records
nobody holds. -/
theorem records_never_shared (operations : List Operation)
    (hops : Permitted Session.step Current Session.start operations) :
    let session := run Session.step Session.start operations
    (∀ first second p, session.Holds first p → session.Holds second p → first = second) ∧
      (∀ spans bits store, session.store.acquire spans = (some bits, store) →
        (store.runs bits.index).words = Vector.replicate runWords 0) ∧
      ∃ free, Linked session.store.link (linked session.store.free) free ∧
        free.Nodup ∧ ∀ p ∈ free, ∀ handle, ¬ session.Holds handle p := by
  obtain ⟨free, h⟩ := run_invariant_permitted Session.step
    (fun session => ∃ free, Sound session free) Current
    (fun session operation ⟨free, h⟩ hcurrent => by
      cases operation with
      | append => exact ⟨free, h.grown⟩
      | acquire spans => exact h.acquired spans
      | release handle => exact h.returned hcurrent
      | set handle span => exact ⟨free, h.written fun bits store => set_eq bits span store⟩
      | clear handle => exact ⟨free, h.written clear_eq⟩)
    Session.start operations
    ⟨[], .nil, nodup_nil, nofun, Nat.zero_le _, nofun, fun _ => iff_of_false nofun nofun, nofun,
      nofun, nofun⟩ hops
  refine ⟨h.single, fun spans bits store hacquire => ?_, free, h.chain, h.distinct,
    fun p hp handle hheld => ?_⟩
  · unfold acquire at hacquire
    split at hacquire
    · cases hacquire
    split at hacquire
    · cases hacquire
    split at hacquire
    · cases hacquire
    · cases hacquire
      simp [setRun]
  · exact Bool.false_ne_true ((h.idle p hp).2.symm.trans ((h.held p).mpr ⟨handle, hheld⟩))

/-- Released twice and written to in between, a record is still handed out once. -/
theorem records_never_shared_released_twice :
    let session := run Session.step Session.start
      [.append, .acquire 1, .release 0, .set 0 0, .release 0, .acquire 1, .acquire 1]
    session.Holds 1 0 ∧ session.Holds 2 1 ∧
      ∀ first second p, session.Holds first p → session.Holds second p → first = second := by
  refine ⟨⟨by decide, rfl⟩, ⟨by decide, rfl⟩, (records_never_shared _ ?_).1⟩
  refine ⟨trivial, trivial, nofun, trivial, ?_, trivial, trivial, trivial⟩
  rintro - other index ⟨hheld, hindex⟩
  rcases other with _ | other
  · exact absurd mem_cons_self hheld
  · cases hindex

end SlimeOs.LeafSpans
