import Mathlib.Order.Bounds.Basic
import SlimeOs.RootSlots

/-!
The pool of root slots against the list of slots handed out. The admitted words
are ascending and disjoint, so that the walk for a free slot and the binary
search see the slots in the order of their addresses.
-/

namespace SlimeOs.RootSlotWords

open BitWord FallibleCall List RootSlots FallibleCall.Call SlotPool

structure Occupancy where
  base : Nat
  valid : Nat
  used : UInt64
deriving DecidableEq

namespace Occupancy

def Covers (word : Occupancy) (slot : Nat) : Prop :=
  word.base ≤ slot ∧ slot < word.base + word.valid

def Marks (word : Occupancy) (slot : Nat) : Prop :=
  word.Covers slot ∧ testBit word.used (slot - word.base) = true

instance (word : Occupancy) (slot : Nat) : Decidable (word.Covers slot) :=
  inferInstanceAs (Decidable (_ ∧ _))

end Occupancy

def Admitted (words : List Occupancy) (slot : Nat) : Prop := ∃ word ∈ words, word.Covers slot

def Taken (words : List Occupancy) (slot : Nat) : Prop := ∃ word ∈ words, word.Marks slot

/-- Words of at most 64 slots, ascending and disjoint. -/
structure Ordered (words : List Occupancy) : Prop where
  valid : ∀ word ∈ words, 0 < word.valid ∧ word.valid ≤ bits
  ascending : words.Pairwise fun first second => first.base + first.valid ≤ second.base

variable {bit maxKernelUntypeds : Nat} {used : UInt64}

section Words

variable {words : List Occupancy} {word word' : Occupancy} {slot index : Nat}

theorem admitted_iff : Admitted words slot ↔
    ∃ (index : Nat) (word : Occupancy), words[index]? = some word ∧ word.Covers slot := by
  simp only [Admitted, mem_iff_getElem?]
  exact ⟨fun ⟨word, ⟨index, h⟩, hc⟩ => ⟨index, word, h, hc⟩,
    fun ⟨index, word, h, hc⟩ => ⟨word, ⟨index, h⟩, hc⟩⟩

theorem taken_iff : Taken words slot ↔
    ∃ (index : Nat) (word : Occupancy), words[index]? = some word ∧ word.Marks slot := by
  simp only [Taken, mem_iff_getElem?]
  exact ⟨fun ⟨word, ⟨index, h⟩, hm⟩ => ⟨index, word, h, hm⟩,
    fun ⟨index, word, h, hm⟩ => ⟨word, ⟨index, h⟩, hm⟩⟩

theorem Taken.admitted (h : Taken words slot) : Admitted words slot := by
  obtain ⟨word, hword, hmarks⟩ := h
  exact ⟨word, hword, hmarks.1⟩

theorem Ordered.before (h : Ordered words) {i j : Nat} (hlt : i < j)
    (hword : words[i]? = some word) (hword' : words[j]? = some word') :
    word.base + word.valid ≤ word'.base := by
  obtain ⟨hi, rfl⟩ := List.getElem_of_getElem? hword
  obtain ⟨hj, rfl⟩ := List.getElem_of_getElem? hword'
  exact pairwise_iff_getElem.mp h.ascending i j hi hj hlt

theorem Ordered.index_unique (h : Ordered words) {i j : Nat} (hword : words[i]? = some word)
    (hword' : words[j]? = some word') (hcovers : word.Covers slot)
    (hcovers' : word'.Covers slot) : i = j := by
  have hlow := hcovers.1
  have hhigh := hcovers.2
  have hlow' := hcovers'.1
  have hhigh' := hcovers'.2
  rcases lt_trichotomy i j with hlt | heq | hlt
  · have := h.before hlt hword hword'
    omega
  · exact heq
  · have := h.before hlt hword' hword
    omega

theorem Ordered.taken_iff_bit (h : Ordered words) (hword : words[index]? = some word)
    (hcovers : word.Covers slot) :
    Taken words slot ↔ testBit word.used (slot - word.base) = true := by
  rw [taken_iff]
  constructor
  · rintro ⟨other, word', hword', hmarks⟩
    obtain rfl := h.index_unique hword hword' hcovers hmarks.1
    obtain rfl := Option.mem_unique hword hword'
    exact hmarks.2
  · intro hbit
    exact ⟨index, word, hword, hcovers, hbit⟩

/-- A word is rewritten in place, over the same slots. -/
structure Rewrites (words : List Occupancy) (index : Nat) (word word' : Occupancy) : Prop where
  found : words[index]? = some word
  base : word'.base = word.base
  valid : word'.valid = word.valid

section

variable (h : Rewrites words index word word')
include h

theorem Rewrites.covers : word'.Covers slot ↔ word.Covers slot := by
  unfold Occupancy.Covers
  rw [h.base, h.valid]

theorem Rewrites.getElem? (i : Nat) :
    (words.set index word')[i]? = if index = i then some word' else words[i]? := by
  rw [getElem?_set, if_pos (List.getElem_of_getElem? h.found).1]

theorem Rewrites.admitted : Admitted (words.set index word') slot ↔ Admitted words slot := by
  simp only [admitted_iff, h.getElem?]
  constructor
  · rintro ⟨i, other, hother, hcovers⟩
    split at hother
    · obtain rfl := Option.some.inj hother
      exact ⟨index, word, h.found, h.covers.mp hcovers⟩
    · exact ⟨i, other, hother, hcovers⟩
  · rintro ⟨i, other, hother, hcovers⟩
    by_cases heq : index = i
    · subst heq
      obtain rfl := Option.mem_unique h.found hother
      exact ⟨index, word', if_pos rfl, h.covers.mpr hcovers⟩
    · exact ⟨i, other, by rw [if_neg heq]; exact hother, hcovers⟩

theorem Rewrites.ordered (hwords : Ordered words) : Ordered (words.set index word') := by
  refine ⟨?_, ?_⟩
  · intro other hother
    rcases mem_or_eq_of_mem_set hother with hother | rfl
    · exact hwords.valid other hother
    · rw [h.valid]
      exact hwords.valid word (mem_of_getElem? h.found)
  · rw [pairwise_iff_getElem]
    intro i j hi hj hlt
    have hleft := h.getElem? i
    have hright := h.getElem? j
    rw [getElem?_eq_getElem hi] at hleft
    rw [getElem?_eq_getElem hj] at hright
    split at hleft <;> split at hright
    · omega
    next heq _ =>
      subst heq
      obtain heq := Option.some.inj hleft
      rw [heq, h.base, h.valid]
      exact hwords.before hlt h.found hright.symm
    next _ heq =>
      subst heq
      obtain heq := Option.some.inj hright
      rw [heq, h.base]
      exact hwords.before hlt hleft.symm h.found
    · exact hwords.before hlt hleft.symm hright.symm

theorem Rewrites.taken (hwords : Ordered words) : Taken (words.set index word') slot ↔
      word'.Marks slot ∨ (¬ word.Covers slot ∧ Taken words slot) := by
  have hself : (words.set index word')[index]? = some word' := by rw [h.getElem?, if_pos rfl]
  by_cases hcovers : word.Covers slot
  · rw [(h.ordered hwords).taken_iff_bit hself (h.covers.mpr hcovers)]
    simp [Occupancy.Marks, h.covers, hcovers]
  have hnot : ¬ word'.Marks slot := fun hmarks => hcovers (h.covers.mp hmarks.1)
  simp only [hnot, hcovers, not_false_eq_true, true_and, false_or]
  simp only [taken_iff, h.getElem?]
  constructor
  · rintro ⟨i, other, hother, hmarks⟩
    split at hother
    · obtain rfl := Option.some.inj hother
      exact absurd hmarks hnot
    · exact ⟨i, other, hother, hmarks⟩
  · rintro ⟨i, other, hother, hmarks⟩
    refine ⟨i, other, ?_, hmarks⟩
    rw [if_neg]
    · exact hother
    · rintro rfl
      obtain rfl := Option.mem_unique h.found hother
      exact hcovers hmarks.1

end

theorem taken_rewrite (hwords : Ordered words) (hfound : words[index]? = some word) {Q : Prop}
    (hinside : word.Covers slot → (testBit used (slot - word.base) = true ↔ Q))
    (houtside : ¬ word.Covers slot → (Taken words slot ↔ Q)) :
    Taken (words.set index { word with used }) slot ↔ Q := by
  have hrewrites : Rewrites words index word { word with used } := ⟨hfound, rfl, rfl⟩
  rw [hrewrites.taken hwords]
  by_cases hcovers : word.Covers slot
  · simpa [Occupancy.Marks, hrewrites.covers, hcovers] using hinside hcovers
  · simpa [Occupancy.Marks, hrewrites.covers, hcovers] using houtside hcovers

theorem taken_set_bit (hwords : Ordered words) (hfound : words[index]? = some word)
    (hbit : bit < word.valid) :
    Taken (words.set index { word with used := word.used ||| bitMask bit }) slot ↔
      slot = word.base + bit ∨ Taken words slot := by
  have hvalid := (hwords.valid word (mem_of_getElem? hfound)).2
  refine taken_rewrite hwords hfound (fun hcovers => ?_) fun hcovers => ?_
  · have hlow := hcovers.1
    have hsame : slot - word.base = bit ↔ slot = word.base + bit := by omega
    rw [hwords.taken_iff_bit hfound hcovers, testBit_or,
      testBit_bitMask (Nat.lt_of_lt_of_le hbit hvalid), Bool.or_eq_true, decide_eq_true_eq, hsame,
      or_comm]
  · have hne : slot ≠ word.base + bit := fun heq => hcovers ⟨by omega, by omega⟩
    simp [hne]

theorem taken_clear_bit (hwords : Ordered words) (hfound : words[index]? = some word)
    (hbit : bit < word.valid) :
    Taken (words.set index { word with used := word.used &&& ~~~bitMask bit }) slot ↔
      slot ≠ word.base + bit ∧ Taken words slot := by
  have hvalid := (hwords.valid word (mem_of_getElem? hfound)).2
  refine taken_rewrite hwords hfound (fun hcovers => ?_) fun hcovers => ?_
  · have hlow := hcovers.1
    have hhigh := hcovers.2
    have hsame : slot - word.base = bit ↔ slot = word.base + bit := by omega
    have hmask : testBit (~~~bitMask bit) (slot - word.base) =
        !decide (slot - word.base = bit) := by
      unfold bits at hvalid
      rw [testBit_not _ (by omega), testBit_bitMask (Nat.lt_of_lt_of_le hbit hvalid)]
    simp [hwords.taken_iff_bit hfound hcovers, testBit_and, hmask, hsame, and_comm]
  · have hne : slot ≠ word.base + bit := fun heq => hcovers ⟨by omega, by omega⟩
    simp [hne]

end Words

def occupancyOf (planned : Bool) (word : SlotWord) : Occupancy :=
  ⟨word.base, word.valid, if planned then word.planned else word.used⟩

def occupancy (planned : Bool) (pool : SlotPool maxKernelUntypeds) : List Occupancy :=
  (pool.allWords.take pool.count).map (occupancyOf planned)

/-- The counters of the pool are unchanged and so is its room for words. -/
structure SameCounters (pool pool' : SlotPool maxKernelUntypeds) : Prop where
  length : pool'.allWords.length = pool.allWords.length
  words : pool'.words.length = pool.words.length
  count : pool'.count = pool.count
  total : pool'.total = pool.total
  live : pool'.live = pool.live
  nextWord : pool'.nextWord = pool.nextWord

theorem SameCounters.trans {first second third : SlotPool maxKernelUntypeds}
    (h : SameCounters first second) (h' : SameCounters second third) : SameCounters first third :=
  ⟨h'.length.trans h.length, h'.words.trans h.words, h'.count.trans h.count,
    h'.total.trans h.total, h'.live.trans h.live, h'.nextWord.trans h.nextWord⟩

section Storage

variable {pool pool' : SlotPool maxKernelUntypeds} {index : Nat} {word : SlotWord}

theorem length_allWords (pool : SlotPool maxKernelUntypeds) :
    pool.allWords.length = bootstrapWords maxKernelUntypeds + pool.words.length := by
  simp [allWords]

theorem word_eq (pool : SlotPool maxKernelUntypeds) (index : Nat) :
    pool.word index = pool.allWords[index]? := by
  unfold word allWords
  split
  next hlt =>
    rw [getElem?_append_left (by simpa using hlt)]
    simp
  next hge =>
    rw [getElem?_append_right (by simpa using hge)]
    simp

theorem setWord_eq (hindex : index < pool.allWords.length) (word : SlotWord) :
    ∃ pool', pool.setWord index word = some pool' ∧
      pool'.allWords = pool.allWords.set index word ∧ SameCounters pool pool' := by
  rw [length_allWords] at hindex
  unfold setWord
  by_cases hboot : index < bootstrapWords maxKernelUntypeds
  · rw [if_pos hboot]
    refine ⟨_, rfl, ?_, ?_, rfl, rfl, rfl, rfl, rfl⟩
    · unfold allWords
      rw [set_append_left _ _ (by simpa using hboot), Vector.toList_setIfInBounds]
    · rw [length_allWords, length_allWords]
  · rw [if_neg hboot, if_pos (by omega)]
    refine ⟨_, rfl, ?_, ?_, ?_, rfl, rfl, rfl, rfl⟩
    · unfold allWords
      rw [set_append_right _ _ (by simpa using hboot)]
      simp
    · rw [length_allWords, length_allWords, length_set]
    · exact length_set

theorem writeWord_ensures (hindex : index < pool.allWords.length) (word : SlotWord) :
    ∃ pool', writeWord index word pool = (.ok (), pool') ∧
      pool'.allWords = pool.allWords.set index word ∧ SameCounters pool pool' := by
  obtain ⟨pool', hset, hwords, hsame⟩ := setWord_eq hindex word
  refine ⟨pool', ?_, hwords, hsame⟩
  unfold writeWord
  simp [bind_apply, Call.read, Call.lift, Call.modify, hset, Outcome.unwrap]

theorem getElem?_occupancy (hindex : index < pool.count) (planned : Bool) :
    (occupancy planned pool)[index]? = (pool.word index).map (occupancyOf planned) := by
  unfold occupancy
  rw [getElem?_map, getElem?_take_of_lt hindex, word_eq]

end Storage

def Full (words : List Occupancy) (hint : Nat) : Prop :=
  hint ≤ words.length ∧ ∀ (index : Nat) (word : Occupancy), index < hint →
    words[index]? = some word → ∀ slot, word.Covers slot → Taken words slot

/-- The bitmaps mark exactly the slots handed out. -/
structure Tracks (pool : SlotPool maxKernelUntypeds) (held : List Nat) : Prop where
  room : pool.count ≤ pool.allWords.length
  ordered : Ordered (occupancy false pool)
  bounded : ∀ slot, Admitted (occupancy false pool) slot → slot < usizeMax
  total : pool.total = ((occupancy false pool).map Occupancy.valid).sum
  taken : ∀ slot, slot ∈ held ↔ Taken (occupancy false pool) slot
  distinct : held.Nodup

/-- Between calls the counter and the hint agree with the bitmaps. -/
structure Keeps (pool : SlotPool maxKernelUntypeds) (held : List Nat) : Prop extends
    Tracks pool held where
  live : pool.live = held.length
  full : Full (occupancy false pool) pool.nextWord

def Free (pool : SlotPool maxKernelUntypeds) (held : List Nat) (slot : Nat) : Prop :=
  Admitted (occupancy false pool) slot ∧ slot ∉ held

section Calls

variable {pool pool' : SlotPool maxKernelUntypeds} {held held' : List Nat} {index slot : Nat}
  {word word' : SlotWord} {occupied : Occupancy}

variable (planned : Bool)

theorem length_occupancy (hroom : pool.count ≤ pool.allWords.length) :
    (occupancy planned pool).length = pool.count := by
  unfold occupancy
  rw [length_map, length_take]
  omega

theorem word_at (hroom : pool.count ≤ pool.allWords.length) (hindex : index < pool.count) :
    ∃ word, pool.word index = some word ∧
      (occupancy false pool)[index]? = some (occupancyOf false word) := by
  have hlt := lt_of_lt_of_le hindex hroom
  refine ⟨pool.allWords[index], by rw [word_eq, getElem?_eq_getElem hlt], ?_⟩
  rw [getElem?_occupancy hindex, word_eq, getElem?_eq_getElem hlt]
  rfl

section

variable (h : Tracks pool held)
include h

theorem Tracks.word_of (hword : (occupancy false pool)[index]? = some occupied) :
    index < pool.count ∧
      ∃ word, pool.word index = some word ∧ occupancyOf false word = occupied := by
  have hlt := (List.getElem_of_getElem? hword).1
  rw [length_occupancy false h.room] at hlt
  obtain ⟨word, hfound, hoccupied⟩ := word_at h.room hlt
  exact ⟨hlt, word, hfound, Option.mem_unique hoccupied hword⟩

theorem Tracks.valid (hindex : index < pool.count)
    (hword : pool.word index = some word) : 0 < word.valid ∧ word.valid ≤ bits := by
  obtain ⟨word', hword', hoccupied⟩ := word_at h.room hindex
  obtain rfl := Option.mem_unique hword hword'
  exact h.ordered.valid _ (mem_of_getElem? hoccupied)

theorem Tracks.held_iff_bit (hindex : index < pool.count)
    (hword : pool.word index = some word) (hbit : bit < word.valid) :
    word.base + bit ∈ held ↔ testBit word.used bit = true := by
  have hfound : (occupancy false pool)[index]? = some (occupancyOf false word) := by
    rw [getElem?_occupancy hindex, hword]
    rfl
  have hcovers : (occupancyOf false word).Covers (word.base + bit) :=
    ⟨Nat.le_add_right _ _, Nat.add_lt_add_left hbit _⟩
  rw [h.taken, h.ordered.taken_iff_bit hfound hcovers]
  simp [occupancyOf]

theorem Tracks.congr (hroom : pool'.count ≤ pool'.allWords.length)
    (hsame : occupancy false pool' = occupancy false pool) (htotal : pool'.total = pool.total) :
    Tracks pool' held := by
  refine ⟨hroom, ?_, ?_, ?_, ?_, h.distinct⟩
  all_goals rw [hsame]
  · exact h.ordered
  · exact h.bounded
  · rw [htotal]
    exact h.total
  · exact h.taken

theorem Tracks.perm (hperm : held.Perm held') : Tracks pool held' :=
  ⟨h.room, h.ordered, h.bounded, h.total, fun slot => by rw [← hperm.mem_iff, h.taken],
    hperm.nodup_iff.mp h.distinct⟩

end

/-- One word of the pool is rewritten over the same slots. -/
structure Writes (pool : SlotPool maxKernelUntypeds) (index : Nat) (word word' : SlotWord)
    (pool' : SlotPool maxKernelUntypeds) : Prop where
  index_lt : index < pool.count
  found : pool.word index = some word
  base : word'.base = word.base
  valid : word'.valid = word.valid
  words : pool'.allWords = pool.allWords.set index word'
  same : SameCounters pool pool'

section

variable (hwrites : Writes pool index word word' pool')
include hwrites

theorem Writes.rewrites : Rewrites (occupancy planned pool) index (occupancyOf planned word)
      (occupancyOf planned word') := by
  refine ⟨?_, hwrites.base, hwrites.valid⟩
  rw [getElem?_occupancy hwrites.index_lt, hwrites.found]
  rfl

theorem Writes.occupancy :
    occupancy planned pool' = (occupancy planned pool).set index (occupancyOf planned word') := by
  unfold RootSlotWords.occupancy
  rw [hwrites.words, hwrites.same.count, take_set, map_set]

theorem Writes.room
    (hroom : pool.count ≤ pool.allWords.length) : pool'.count ≤ pool'.allWords.length := by
  rw [hwrites.same.count, hwrites.same.length]
  exact hroom

theorem Writes.sum_valid : ((RootSlotWords.occupancy false pool').map Occupancy.valid).sum =
      ((RootSlotWords.occupancy false pool).map Occupancy.valid).sum := by
  have hfound := (hwrites.rewrites false).found
  obtain ⟨hlt, hget⟩ := List.getElem_of_getElem? hfound
  have hvalid : (occupancyOf false word').valid =
      ((RootSlotWords.occupancy false pool).map Occupancy.valid).get
        ⟨index, by rw [length_map]; exact hlt⟩ := by
    simp only [get_eq_getElem, getElem_map, hget]
    exact hwrites.valid
  rw [hwrites.occupancy false, map_set, hvalid, get_eq_getElem, set_getElem_self]

end

theorem Tracks.rewrite (h : Tracks pool held) (hwrites : Writes pool index word word' pool')
    (htaken : ∀ slot, slot ∈ held' ↔ Taken (occupancy false pool') slot)
    (hdistinct : held'.Nodup) : Tracks pool' held' := by
  refine ⟨hwrites.room h.room, ?_, ?_, ?_, htaken, hdistinct⟩
  · rw [hwrites.occupancy false]
    exact (hwrites.rewrites false).ordered h.ordered
  · intro slot hslot
    rw [hwrites.occupancy false, (hwrites.rewrites false).admitted] at hslot
    exact h.bounded slot hslot
  · rw [hwrites.sum_valid, hwrites.same.total]
    exact h.total

theorem Tracks.take (h : Tracks pool held) (hwrites : Writes pool index word word' pool')
    (hused : word'.used = word.used ||| bitMask bit) (hbit : bit < word.valid)
    (hclear : testBit word.used bit = false) : Tracks pool' ((word.base + bit) :: held) := by
  have hfound := (hwrites.rewrites false).found
  have hset : occupancyOf false word' =
      { occupancyOf false word with used := (occupancyOf false word).used ||| bitMask bit } := by
    simp [occupancyOf, hwrites.base, hwrites.valid, hused]
  apply h.rewrite hwrites
  · intro slot
    rw [hwrites.occupancy false, hset, taken_set_bit h.ordered hfound hbit, mem_cons, h.taken]
    rfl
  · rw [nodup_cons, h.held_iff_bit hwrites.index_lt hwrites.found hbit, hclear]
    exact ⟨nofun, h.distinct⟩

theorem Tracks.give (h : Tracks pool held) (hwrites : Writes pool index word word' pool')
    (hused : word'.used = word.used &&& ~~~bitMask bit) (hbit : bit < word.valid) :
    Tracks pool' (held.erase (word.base + bit)) := by
  have hfound := (hwrites.rewrites false).found
  have hset : occupancyOf false word' =
      { occupancyOf false word with used := (occupancyOf false word).used &&& ~~~bitMask bit } := by
    simp [occupancyOf, hwrites.base, hwrites.valid, hused]
  refine h.rewrite hwrites ?_ (h.distinct.erase _)
  intro slot
  rw [hwrites.occupancy false, hset, taken_clear_bit h.ordered hfound hbit,
    h.distinct.mem_erase_iff, h.taken]
  rfl

theorem Tracks.writes (h : Tracks pool held) (hindex : index < pool.count)
    (hfound : pool.word index = some word) (word' : SlotWord) (hbase : word'.base = word.base)
    (hvalid : word'.valid = word.valid) :
    ∃ pool', writeWord index word' pool = (.ok (), pool') ∧ Writes pool index word word' pool' := by
  obtain ⟨pool', hwrite, hwords, hsame⟩ := writeWord_ensures (lt_of_lt_of_le hindex h.room) word'
  exact ⟨pool', hwrite, hindex, hfound, hbase, hvalid, hwords, hsame⟩

theorem marks_of_free_eq_zero (hvalid : 0 < occupied.valid ∧ occupied.valid ≤ bits)
    (hfree : ~~~occupied.used &&& lowMask occupied.valid = 0)
    (hcovers : occupied.Covers slot) : occupied.Marks slot := by
  refine ⟨hcovers, ?_⟩
  have hhigh := hcovers.2
  have hbit : slot - occupied.base < 64 := by unfold bits at hvalid; omega
  by_contra hclear
  have hmask := (and_eq_zero_iff _ _).mp hfree (slot - occupied.base) hbit
    (by rw [testBit_not _ hbit]; simpa using hclear)
  rw [testBit_lowMask hvalid.1 hvalid.2, decide_eq_false_iff_not] at hmask
  omega

theorem lowest_free_bit {valid : Nat} (hvalid : 0 < valid ∧ valid ≤ bits)
    (hfree : ~~~used &&& lowMask valid ≠ 0) :
    trailingZeros (~~~used &&& lowMask valid) < valid ∧
      testBit used (trailingZeros (~~~used &&& lowMask valid)) = false ∧
      ∀ bit, bit < trailingZeros (~~~used &&& lowMask valid) → testBit used bit = true := by
  obtain ⟨hbit, hset, hlower⟩ := trailingZeros_spec hfree
  rw [testBit_and, testBit_lowMask hvalid.1 hvalid.2, Bool.and_eq_true, decide_eq_true_eq,
    testBit_not _ hbit, Bool.not_eq_true'] at hset
  refine ⟨hset.2, hset.1, ?_⟩
  intro bit hlt
  have hclear := hlower bit hlt
  rw [testBit_and, testBit_lowMask hvalid.1 hvalid.2, testBit_not _ (by omega),
    decide_eq_true (by omega : bit < valid), Bool.and_true, Bool.not_eq_false'] at hclear
  exact hclear

theorem Tracks.isLeast (h : Tracks pool held) (hfull : Full (occupancy false pool) index)
    (hindex : index < pool.count) (hword : pool.word index = some word)
    (hfree : ~~~word.used &&& word.mask ≠ 0) :
    IsLeast {slot | Free pool held slot}
      (word.base + trailingZeros (~~~word.used &&& word.mask)) := by
  have hvalid := h.valid hindex hword
  obtain ⟨hbit, hclear, hlower⟩ := lowest_free_bit hvalid hfree
  have hfound : (occupancy false pool)[index]? = some (occupancyOf false word) := by
    rw [getElem?_occupancy hindex, hword]
    rfl
  have hcovers : (occupancyOf false word).Covers
      (word.base + trailingZeros (~~~word.used &&& word.mask)) := by
    exact ⟨Nat.le_add_right _ _, Nat.add_lt_add_left hbit _⟩
  refine ⟨⟨admitted_iff.mpr ⟨index, _, hfound, hcovers⟩, ?_⟩, ?_⟩
  · intro hmem
    have hset := (h.held_iff_bit hindex hword hbit).mp hmem
    rw [hclear] at hset
    cases hset
  rintro slot ⟨hadmitted, hslot⟩
  rw [h.taken] at hslot
  obtain ⟨i, other, hother, hcovers'⟩ := admitted_iff.mp hadmitted
  by_contra hlt
  rcases Nat.lt_trichotomy i index with hbefore | rfl | hafter
  · exact hslot (hfull.2 i other hbefore hother slot hcovers')
  · obtain rfl := Option.mem_unique hfound hother
    have hlow : word.base ≤ slot := hcovers'.1
    rw [h.ordered.taken_iff_bit hfound hcovers'] at hslot
    refine hslot (hlower (slot - word.base) ?_)
    change slot - word.base < trailingZeros (~~~word.used &&& word.mask)
    omega
  · have hbase := h.ordered.before hafter hfound hother
    have hlow := hcovers'.1
    have hhigh := hcovers.2
    omega

theorem Full.keep {hint : Nat} (hfull : Full (occupancy false pool) hint)
    (h : Tracks pool held) (h' : Tracks pool' held') (hwrites : Writes pool index word word' pool')
    (hmore : held ⊆ held') : Full (occupancy false pool') hint := by
  rw [hwrites.occupancy false]
  refine ⟨by rw [length_set]; exact hfull.1, ?_⟩
  intro i other hi hother slot hcovers
  have htaken : Taken (occupancy false pool) slot := by
    rw [(hwrites.rewrites false).getElem?] at hother
    split at hother
    next heq =>
      subst heq
      obtain rfl := Option.some.inj hother
      exact hfull.2 index _ hi (hwrites.rewrites false).found slot
        ((hwrites.rewrites false).covers.mp hcovers)
    · exact hfull.2 i other hi hother slot hcovers
  rw [← hwrites.occupancy false, ← h'.taken]
  exact hmore ((h.taken slot).mpr htaken)

theorem Full.give {hint : Nat} (hfull : Full (occupancy false pool) hint)
    (hwrites : Writes pool index word word' pool') (h : Tracks pool held)
    (h' : Tracks pool' (held.erase (word.base + bit))) :
    Full (occupancy false pool') (min hint index) := by
  refine ⟨?_, ?_⟩
  · rw [hwrites.occupancy false, length_set]
    exact le_trans (min_le_left _ _) hfull.1
  intro i other hi hother slot hcovers
  rw [hwrites.occupancy false, (hwrites.rewrites false).getElem?, if_neg (by omega)] at hother
  have htaken := hfull.2 i other (by omega) hother slot hcovers
  rw [← h'.taken, h.distinct.mem_erase_iff, h.taken]
  refine ⟨?_, htaken⟩
  rintro rfl
  have hbefore := h.ordered.before (by omega) hother (hwrites.rewrites false).found
  have hhigh := hcovers.2
  have hbase : (occupancyOf false word).base = word.base := rfl
  omega

def Allocated (pool : SlotPool maxKernelUntypeds) (held : List Nat) (allocated : Nat)
    (outcome : Outcome AllocError (Nat × Bool)) (pool' : SlotPool maxKernelUntypeds) : Prop :=
  (∃ slot reused, outcome = .ok (slot, reused) ∧
      IsLeast {slot | Free pool held slot} slot ∧ Keeps pool' (slot :: held)) ∨
    (outcome = .error (.returned (.slotsExhausted allocated)) ∧ pool' = pool ∧
      ∀ slot, ¬ Free pool held slot)

theorem allocateFrom_ensures (h : Keeps pool held) (allocated left index : Nat)
    (hleft : index + left = pool.count) (hfull : Full (occupancy false pool) index) :
    Ensures (allocateFrom allocated left index) pool (Allocated pool held allocated) := by
  induction left generalizing index with
  | zero =>
    refine .inr ⟨rfl, rfl, ?_⟩
    rintro slot ⟨hadmitted, hslot⟩
    rw [h.taken] at hslot
    obtain ⟨i, word, hword, hcovers⟩ := admitted_iff.mp hadmitted
    exact hslot (hfull.2 i word (by have := (h.word_of hword).1; omega) hword slot hcovers)
  | succ left ih =>
    have hindex : index < pool.count := by omega
    obtain ⟨word, hword, hoccupied⟩ := word_at h.room hindex
    have hvalid := h.valid hindex hword
    refine ensures_read (ensures_unwrap hword ?_)
    by_cases hfree : ~~~word.used &&& word.mask = 0
    · rw [if_pos (by simpa using hfree)]
      refine ih (index + 1) (by omega) ⟨?_, ?_⟩
      · rw [length_occupancy false h.room]
        exact hindex
      intro i other hi hother slot hcovers
      rcases lt_or_eq_of_le (Nat.le_of_lt_succ hi) with hlt | rfl
      · exact hfull.2 i other hlt hother slot hcovers
      · obtain rfl := Option.mem_unique hoccupied hother
        exact taken_iff.mpr ⟨i, _, hother, marks_of_free_eq_zero hvalid hfree hcovers⟩
    · rw [if_neg (by simpa using hfree)]
      have hleast := h.toTracks.isLeast hfull hindex hword hfree
      obtain ⟨hbit, hclear, -⟩ := lowest_free_bit hvalid hfree
      obtain ⟨pool', hwrite, hwrites⟩ := h.writes hindex hword
        { word with
          used := word.used ||| bitMask (trailingZeros (~~~word.used &&& word.mask))
          issued := word.issued ||| bitMask (trailingZeros (~~~word.used &&& word.mask)) }
        rfl rfl
      have htracks := h.take hwrites rfl hbit hclear
      have hfull' := hfull.keep h.toTracks htracks hwrites (subset_cons_self _ _)
      refine ensures_bind_ok hwrite (ensures_modify ?_)
      refine .inl ⟨_, _, rfl, hleast, htracks.congr htracks.room rfl rfl, ?_, hfull'⟩
      rw [hwrites.same.live, h.live]
      rfl

theorem allocate_ensures (h : Keeps pool held) (allocated : Nat) :
    Ensures (allocate allocated) pool (Allocated pool held allocated) := by
  refine ensures_read (allocateFrom_ensures h allocated _ _ ?_ h.full)
  have hhint := h.full.1
  rw [length_occupancy false h.room] at hhint
  omega

theorem not_admitted_of_between {words : List Occupancy} {low high : Nat} (hle : high ≤ low)
    (hbelow : ∀ (i : Nat) (word : Occupancy), i < low → words[i]? = some word →
      word.base + word.valid ≤ slot)
    (habove : ∀ (i : Nat) (word : Occupancy), high ≤ i → words[i]? = some word →
      slot < word.base) : ¬ Admitted words slot := by
  intro hadmitted
  obtain ⟨i, word, hword, hcovers⟩ := admitted_iff.mp hadmitted
  have hlow := hcovers.1
  have hhigh := hcovers.2
  by_cases hi : i < low
  · have := hbelow i word hi hword
    omega
  · have := habove i word (by omega) hword
    omega

theorem locateBetween_succ {passes low high : Nat} (hlt : low < high)
    (hword : pool.word (low + (high - low) / 2) = some word) :
    pool.locateBetween slot (passes + 1) low high =
      if slot < word.base then pool.locateBetween slot passes low (low + (high - low) / 2)
      else if slot - word.base < word.valid then
        .ok (some (low + (high - low) / 2, slot - word.base))
      else pool.locateBetween slot passes (low + (high - low) / 2 + 1) high := by
  rw [locateBetween, if_pos hlt]
  change (Outcome.unwrap (pool.word (low + (high - low) / 2)) >>= _) = _
  rw [hword]
  rfl

/-- The search ends at a word that holds the slot, or leaves no word between the bounds. -/
theorem locateBetween_spec (hroom : pool.count ≤ pool.allWords.length)
    (slot passes low high : Nat) (hpasses : high - low ≤ passes) (hhigh : high ≤ pool.count) :
    (pool.locateBetween slot passes low high = .ok none ∧ (Ordered (occupancy false pool) →
      (∀ (i : Nat) (word : Occupancy), i < low → (occupancy false pool)[i]? = some word →
        word.base + word.valid ≤ slot) →
      (∀ (i : Nat) (word : Occupancy), high ≤ i → (occupancy false pool)[i]? = some word →
        slot < word.base) → ¬ Admitted (occupancy false pool) slot)) ∨
      ∃ index word bit, pool.locateBetween slot passes low high = .ok (some (index, bit)) ∧
        index < pool.count ∧ pool.word index = some word ∧ slot = word.base + bit ∧
        bit < word.valid := by
  induction passes generalizing low high with
  | zero =>
    refine .inl ⟨?_, fun _ => not_admitted_of_between (by omega)⟩
    unfold locateBetween
    rw [if_neg (by omega)]
    rfl
  | succ passes ih =>
    by_cases hlt : low < high
    · have hindex : low + (high - low) / 2 < pool.count := by omega
      obtain ⟨word, hword, hoccupied⟩ := word_at hroom hindex
      rw [locateBetween_succ hlt hword]
      by_cases hbase : slot < word.base
      · rw [if_pos hbase]
        refine (ih low _ (by omega) (by omega)).imp_left fun ⟨hnone, hmissing⟩ =>
          ⟨hnone, fun hordered hbelow habove => hmissing hordered hbelow ?_⟩
        intro i other hi hother
        rcases lt_or_eq_of_le hi with hlt' | heq
        · have hbefore := hordered.before hlt' hoccupied hother
          have hfirst : (occupancyOf false word).base = word.base := rfl
          omega
        · rw [← heq, hoccupied] at hother
          obtain rfl := Option.some.inj hother
          exact hbase
      · rw [if_neg hbase]
        by_cases hvalid : slot - word.base < word.valid
        · rw [if_pos hvalid]
          exact .inr ⟨_, word, _, rfl, hindex, hword, by omega, hvalid⟩
        rw [if_neg hvalid]
        refine (ih _ high (by omega) hhigh).imp_left fun ⟨hnone, hmissing⟩ =>
          ⟨hnone, fun hordered hbelow habove => hmissing hordered ?_ habove⟩
        intro i other hi hother
        rcases lt_or_eq_of_le (Nat.le_of_lt_succ hi) with hlt' | heq
        · have hbefore := hordered.before hlt' hother hoccupied
          have hlast : (occupancyOf false word).base = word.base := rfl
          omega
        rw [heq, hoccupied] at hother
        obtain rfl := Option.some.inj hother
        change word.base + word.valid ≤ slot
        omega
    · unfold locateBetween
      rw [if_neg hlt]
      exact .inl ⟨rfl, fun _ => not_admitted_of_between (by omega)⟩

/-- The binary search finds the word that holds an admitted slot. -/
theorem locate_spec (h : Tracks pool held) (slot : Nat) :
    (pool.locate slot = .ok none ∧ ¬ Admitted (occupancy false pool) slot) ∨
      ∃ index word bit, pool.locate slot = .ok (some (index, bit)) ∧
        index < pool.count ∧ pool.word index = some word ∧ slot = word.base + bit ∧
        bit < word.valid := by
  refine (locateBetween_spec h.room slot pool.count 0 pool.count
    (Nat.le_refl _) (Nat.le_refl _)).imp_left
    fun ⟨hnone, hmissing⟩ => ⟨hnone, hmissing h.ordered ?_ ?_⟩
  · intro i word hi
    exact absurd hi (Nat.not_lt_zero i)
  · intro i word hi hword
    exact absurd (h.word_of hword).1 (by omega)

theorem release_ensures (h : Keeps pool held) (slot : Nat) :
    Ensures (release slot) pool fun outcome pool' =>
      outcome = .ok (decide (slot ∈ held)) ∧ Keeps pool' (held.erase slot) := by
  apply ensures_read
  rcases locate_spec h.toTracks slot with ⟨hlocate, hnone⟩ | ⟨index, word, bit, hlocate, hfound⟩
  · have hslot : slot ∉ held := fun hmem => hnone ((h.taken slot).mp hmem).admitted
    apply ensures_bind_ok (by rw [hlocate]; rfl)
    refine ⟨by rw [decide_eq_false hslot]; rfl, ?_⟩
    rw [erase_of_not_mem hslot]
    exact h
  · obtain ⟨hindex, hword, rfl, hbit⟩ := hfound
    have hvalid := h.valid hindex hword
    have hbit' : bit < 64 := lt_of_lt_of_le hbit hvalid.2
    have hheld := h.held_iff_bit hindex hword hbit
    refine ensures_bind_ok (by rw [hlocate]; rfl) (ensures_unwrap hword ?_)
    by_cases hset : testBit word.used bit = true
    · rw [if_neg (by rw [beq_iff_eq, and_bitMask_eq_zero_iff _ hbit', hset]; exact nofun)]
      obtain ⟨pool', hwrite, hwrites⟩ := h.writes hindex hword
        { word with used := word.used &&& ~~~bitMask bit } rfl rfl
      have htracks := h.give hwrites rfl hbit
      have hfull := h.full.give hwrites h.toTracks htracks
      refine ensures_bind_ok hwrite (ensures_modify ?_)
      refine ⟨by rw [decide_eq_true (hheld.mpr hset)]; rfl,
        htracks.congr htracks.room rfl rfl, ?_, ?_⟩
      · change pool'.live - 1 = _
        rw [length_erase_of_mem (hheld.mpr hset), hwrites.same.live, h.live]
      · rw [hwrites.same.nextWord]
        exact hfull
    · have hclear : testBit word.used bit = false := by simpa using hset
      have hslot : word.base + bit ∉ held := fun hmem => hset (hheld.mp hmem)
      rw [if_pos (by rw [beq_iff_eq, and_bitMask_eq_zero_iff _ hbit', hclear])]
      refine ⟨by rw [decide_eq_false hslot]; rfl, ?_⟩
      rw [erase_of_not_mem hslot]
      exact h

end Calls

end SlimeOs.RootSlotWords
