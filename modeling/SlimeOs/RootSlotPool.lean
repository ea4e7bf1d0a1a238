import Mathlib.Data.List.Nodup
import SlimeOs.RootSlotRuns

/-!
The pool of root slots over whole runs: words are admitted behind each other and
slots are taken and given back in any order. No slot is handed out twice.
-/

namespace SlimeOs.RootSlotPool

open BitWord FallibleCall FreeRuns List RootSlotRuns RootSlotWords RootSlots FallibleCall.Call

variable {maxKernelUntypeds : Nat}

section Admit

variable {pool pool' : SlotPool maxKernelUntypeds} {held : List Nat} {start stop words : Nat}

def rangeWords (start stop words : Nat) : List Occupancy :=
  (List.range words).map fun index =>
    ⟨start + index * bits, min (stop - (start + index * bits)) bits, 0⟩

theorem rangeWords_succ (start stop words : Nat) :
    rangeWords start stop (words + 1) = rangeWords start stop words ++
      [⟨start + words * bits, min (stop - (start + words * bits)) bits, 0⟩] := by
  simp [rangeWords, range_succ]

theorem sum_rangeWords (start stop words : Nat) :
    ((rangeWords start stop words).map Occupancy.valid).sum =
      min (stop - start) (words * bits) := by
  induction words with
  | zero => simp [rangeWords]
  | succ words ih =>
    rw [rangeWords_succ, map_append, sum_append, ih]
    simp only [map_cons, map_nil, sum_cons, sum_nil, bits]
    omega

theorem admitWord_ensures {index : Nat} (hroom : pool.count < pool.allWords.length) :
    Ensures (admitWord start stop () index) pool fun outcome pool' =>
      outcome = .ok () ∧ pool'.allWords.length = pool.allWords.length ∧
        pool'.count = pool.count + 1 ∧ pool'.live = pool.live ∧ pool'.nextWord = pool.nextWord ∧
        occupancy false pool' = occupancy false pool ++
          [⟨start + index * bits, min (stop - (start + index * bits)) bits, 0⟩] := by
  obtain ⟨pool', hwrite, hwords, hsame⟩ := writeWord_ensures hroom
    { SlotWord.empty with
      base := start + index * bits
      valid := min (stop - (start + index * bits)) bits }
  refine ensures_read (ensures_bind_ok hwrite ?_)
  refine ⟨rfl, hsame.length, congrArg (· + 1) hsame.count, hsame.live, hsame.nextWord, ?_⟩
  change (pool'.allWords.take (pool'.count + 1)).map _ = _
  have hlength : (pool.allWords.take pool.count).length = pool.count := by
    rw [length_take]
    omega
  rw [hwords, hsame.count, take_set, take_add_one, getElem?_eq_getElem hroom,
    set_append_right _ _ (by omega), hlength, Nat.sub_self, map_append]
  rfl

structure Admitting (pool : SlotPool maxKernelUntypeds) (start stop done : Nat)
    (pool' : SlotPool maxKernelUntypeds) : Prop where
  length : pool'.allWords.length = pool.allWords.length
  count : pool'.count = pool.count + done
  live : pool'.live = pool.live
  nextWord : pool'.nextWord = pool.nextWord
  words : occupancy false pool' = occupancy false pool ++ rangeWords start stop done

theorem admitWords_ensures (hroom : pool.count + words ≤ pool.allWords.length) :
    Ensures ((List.range words).foldlM (admitWord start stop) ()) pool fun outcome pool' =>
      ∃ done, outcome = .ok done ∧ Admitting pool start stop words pool' := by
  apply ensures_loop (fun done _ pool' => Admitting pool start stop done pool')
  · exact ⟨rfl, rfl, rfl, rfl, by simp [rangeWords]⟩
  intro done _ pool' hdone h
  have hlt : pool'.count < pool'.allWords.length := by
    rw [h.count, h.length]
    omega
  apply ensures_weaken (admitWord_ensures hlt)
  rintro outcome pool'' ⟨hok, hlength, hcount, hlive, hnext, hwords⟩
  refine ⟨(), hok, hlength.trans h.length, ?_, hlive.trans h.live, hnext.trans h.nextWord, ?_⟩
  · rw [hcount, h.count]
    omega
  · rw [hwords, h.words, rangeWords_succ, append_assoc]

theorem mem_rangeWords {word : Occupancy} (hword : word ∈ rangeWords start stop words) :
    ∃ index, index < words ∧ word.base = start + index * bits ∧
      word.valid = min (stop - (start + index * bits)) bits ∧ word.used = 0 := by
  obtain ⟨index, hindex, rfl⟩ := List.mem_map.mp hword
  exact ⟨index, mem_range.mp hindex, rfl, rfl, rfl⟩

theorem ordered_rangeWords (hwords : ∀ index, index < words → index * bits < stop - start) :
    Ordered (rangeWords start stop words) := by
  refine ⟨?_, ?_⟩
  · intro word hword
    obtain ⟨index, hindex, -, hvalid, -⟩ := mem_rangeWords hword
    have hlt := hwords index hindex
    unfold bits at *
    omega
  · unfold rangeWords
    rw [pairwise_map]
    apply pairwise_lt_range.imp
    intro first second hlt
    unfold bits at *
    simp only
    omega

theorem not_taken_rangeWords (start stop words slot : Nat) :
    ¬ Taken (rangeWords start stop words) slot := by
  rintro ⟨word, hword, hmarks⟩
  obtain ⟨_, -, -, -, hused⟩ := mem_rangeWords hword
  have hset := hmarks.2
  rw [hused, testBit_zero] at hset
  cases hset

theorem taken_append {first second : List Occupancy} {slot : Nat} :
    Taken (first ++ second) slot ↔ Taken first slot ∨ Taken second slot := by
  simp only [Taken, mem_append]
  constructor
  · rintro ⟨word, hword | hword, hmarks⟩
    · exact .inl ⟨word, hword, hmarks⟩
    · exact .inr ⟨word, hword, hmarks⟩
  · rintro (⟨word, hword, hmarks⟩ | ⟨word, hword, hmarks⟩)
    · exact ⟨word, .inl hword, hmarks⟩
    · exact ⟨word, .inr hword, hmarks⟩

theorem keeps_admitted (h : Keeps pool held) (hadmitting : Admitting pool start stop words pool')
    (hroom : pool.count + words ≤ pool.allWords.length)
    (hwords : words = (stop - start + (bits - 1)) / bits) (hstop : stop < usizeMax)
    (habove : start < stop → ∀ word ∈ occupancy false pool, word.base + word.valid ≤ start) :
    Keeps { pool' with total := pool.total + (stop - start) } held := by
  have htaken : ∀ slot, Taken (occupancy false pool ++ rangeWords start stop words) slot ↔
      Taken (occupancy false pool) slot := by
    intro slot
    rw [taken_append, or_iff_left (not_taken_rangeWords start stop words slot)]
  have hempty : ∀ word ∈ rangeWords start stop words, start < stop ∧ start ≤ word.base ∧
      word.base + word.valid ≤ stop := by
    intro word hword
    obtain ⟨index, hindex, hbase, hvalid, -⟩ := mem_rangeWords hword
    unfold bits at *
    omega
  refine ⟨⟨?_, ?_, ?_, ?_, ?_, h.distinct⟩, ?_, ?_⟩
  · change pool'.count ≤ pool'.allWords.length
    rw [hadmitting.count, hadmitting.length]
    exact hroom
  · change Ordered (occupancy false pool')
    rw [hadmitting.words]
    have hrange : Ordered (rangeWords start stop words) := by
      apply ordered_rangeWords
      intro index hindex
      unfold bits at *
      omega
    refine ⟨?_, pairwise_append.mpr ⟨h.ordered.ascending, hrange.ascending, ?_⟩⟩
    · intro word hword
      rcases mem_append.mp hword with hword | hword
      · exact h.ordered.valid word hword
      · exact hrange.valid word hword
    · intro old hold new hnew
      obtain ⟨hlt, hbase, -⟩ := hempty new hnew
      exact Nat.le_trans (habove hlt old hold) hbase
  · change ∀ slot, Admitted (occupancy false pool') slot → _
    rw [hadmitting.words]
    rintro slot ⟨word, hword, hcovers⟩
    rcases mem_append.mp hword with hword | hword
    · exact h.bounded slot ⟨word, hword, hcovers⟩
    · have hend := (hempty word hword).2.2
      have hhigh := hcovers.2
      omega
  · change pool.total + (stop - start) = ((occupancy false pool').map Occupancy.valid).sum
    rw [hadmitting.words, map_append, sum_append, sum_rangeWords, h.total]
    unfold bits at *
    omega
  · change ∀ slot, slot ∈ held ↔ Taken (occupancy false pool') slot
    intro slot
    rw [hadmitting.words, htaken, h.taken]
  · exact hadmitting.live.trans h.live
  · change Full (occupancy false pool') pool'.nextWord
    rw [hadmitting.words, hadmitting.nextWord]
    refine ⟨?_, ?_⟩
    · rw [length_append]
      have hhint := h.full.1
      omega
    intro index word hindex hword slot hcovers
    rw [htaken]
    rw [getElem?_append_left (by have := h.full.1; omega)] at hword
    exact h.full.2 index word hindex hword slot hcovers

theorem rejectOverlap_leaves (h : Tracks pool held) (start stop : Nat) : Leaves (fun _ => True)
      (fun _ => ∀ word ∈ occupancy false pool,
        ¬ (start < word.base + word.valid ∧ word.base < stop))
      ((List.range pool.count).foldlM (rejectOverlap pool start stop) ()) := by
  refine (range_leaves _ (fun done (_ : Unit) => ∀ (i : Nat) (word : Occupancy), i < done →
    (occupancy false pool)[i]? = some word →
    ¬ (start < word.base + word.valid ∧ word.base < stop)) pool.count ?_ ?_).imp (fun _ => id) ?_
  · intro i word hi
    exact absurd hi (Nat.not_lt_zero i)
  · intro done _ hlt hbefore
    obtain ⟨found, hread, hfound⟩ := word_at h.room hlt
    unfold rejectOverlap
    rw [hread]
    change Leaves _ _ (Outcome.rejectIf
      (decide (start < found.base + found.valid) && decide (found.base < stop)) _)
    rcases hmeets : (decide (start < found.base + found.valid) && decide (found.base < stop))
      with _ | _
    · intro i word hi hword
      rcases Nat.lt_or_eq_of_le (Nat.le_of_lt_succ hi) with hlt' | rfl
      · exact hbefore i word hlt' hword
      · obtain rfl := Option.mem_unique hfound hword
        simpa [occupancyOf] using hmeets
    · trivial
  · intro _ hloop word hword
    obtain ⟨i, hi⟩ := mem_iff_getElem?.mp hword
    refine hloop i word ?_ hi
    exact (h.word_of hi).1

theorem admitRange_ensures (h : Keeps pool held) (range : Range)
    (horder : ∀ word ∈ occupancy false pool, word.base ≤ range.start.toNat) :
    Ensures (admitRange range) pool fun _ pool' => Keeps pool' held := by
  refine ensures_check (fun hle => ?_) fun _ => h
  apply ensures_read
  refine ensures_check (fun hfree => ?_) fun _ => h
  refine ensures_check (fun hmax => ?_) fun _ => h
  have hoverlap := rejectOverlap_leaves h.toTracks range.start.toNat range.stop.toNat
  rcases hcheck : (List.range pool.count).foldlM
      (rejectOverlap pool range.start.toNat range.stop.toNat) () with fault | u
  · exact h
  rw [hcheck] at hoverlap
  apply ensures_bind_ok rfl
  refine ensures_check (fun _ => ?_) fun _ => h
  have hstop : range.stop.toNat < usizeMax := by
    have hlt := range.stop.toNat_lt
    simp only [Bool.or_eq_false_iff, beq_eq_false_iff_ne] at hmax
    unfold usizeMax at hmax ⊢
    omega
  have hroom : pool.count + (range.stop.toNat - range.start.toNat + (bits - 1)) / bits ≤
      pool.allWords.length := by
    have hcount := h.room
    rw [decide_eq_false_iff_not] at hfree
    unfold SlotPool.metadataFree at hfree
    rw [length_allWords] at hcount ⊢
    omega
  refine ensures_answer (admitWords_ensures hroom) fun _ pool' hadmitting => ?_
  apply keeps_admitted h hadmitting hroom rfl hstop
  intro hlt word hword
  have hbase := horder word hword
  have hclear := hoverlap word hword
  omega

theorem keeps_empty : Keeps (SlotPool.empty : SlotPool maxKernelUntypeds) [] := by
  have hnone : occupancy false (SlotPool.empty : SlotPool maxKernelUntypeds) = [] := by
    simp [occupancy, SlotPool.empty]
  refine ⟨⟨Nat.zero_le _, ?_, ?_, ?_, ?_, nodup_nil⟩, rfl, ?_⟩
  all_goals rw [hnone]
  · exact ⟨nofun, List.Pairwise.nil⟩
  · rintro slot ⟨word, hword, -⟩
    cases hword
  · rfl
  · intro slot
    simp [Taken]
  · exact ⟨Nat.le_refl 0, fun index word hindex => absurd hindex (Nat.not_lt_zero index)⟩

theorem initializePool_ensures (range : Range) :
    Ensures (initializePool range) (SlotPool.empty : SlotPool maxKernelUntypeds)
      fun _ pool' => Keeps pool' [] := by
  have hempty : Keeps (SlotPool.empty : SlotPool maxKernelUntypeds) [] := keeps_empty
  refine ensures_read (ensures_check (fun _ => ensures_modify ?_) fun _ => hempty)
  have hkeeps : Keeps { (SlotPool.empty : SlotPool maxKernelUntypeds) with
      initialEnd := range.stop.toNat } [] :=
    ⟨hempty.toTracks.congr hempty.room rfl rfl, hempty.live, hempty.full⟩
  apply admitRange_ensures hkeeps
  intro word hword
  simp [occupancy, SlotPool.empty] at hword

theorem occupancy_provision (hroom : pool.count ≤ pool.allWords.length) (count : Nat) :
    occupancy false { pool with words := pool.words ++ replicate count SlotWord.empty } =
      occupancy false pool := by
  unfold occupancy SlotPool.allWords
  rw [← append_assoc]
  exact congrArg (map _) (take_append_of_le_length hroom)

theorem keeps_provision (h : Keeps pool held) (count : Nat) :
    Keeps { pool with words := pool.words ++ List.replicate count SlotWord.empty } held := by
  have hsame := occupancy_provision h.room count
  refine ⟨h.toTracks.congr ?_ hsame rfl, h.live, ?_⟩
  · have hroom := h.room
    simp only [SlotPool.allWords, length_append] at hroom ⊢
    omega
  · rw [hsame]
    exact h.full

end Admit

section Runs

inductive Operation where
  | provision (count : Nat)
  | admitRange (range : Range)
  | allocate (allocated : Nat)
  | allocateContiguous (count allocated : Nat)
  | release (slot : Nat)
  | planner (requests : List PlanRequest)
deriving DecidableEq

structure Machine (maxKernelUntypeds : Nat) where
  pool : SlotPool maxKernelUntypeds
  held : List Nat

def Machine.start (range : Range) : Machine maxKernelUntypeds :=
  ⟨(initializePool range SlotPool.empty).2, []⟩

def heldAfter {α : Type} (slots : α → List Nat) (held : List Nat) : Outcome AllocError α → List Nat
  | .ok answer => slots answer ++ held
  | .error _ => held

def heldAfterRelease (slot : Nat) (held : List Nat) : Outcome AllocError Bool → List Nat
  | .ok true => held.erase slot
  | _ => held

def step (machine : Machine maxKernelUntypeds) : Operation → Machine maxKernelUntypeds
  | .provision count => ⟨(provision count machine.pool).2, machine.held⟩
  | .admitRange range => ⟨(admitRange range machine.pool).2, machine.held⟩
  | .allocate allocated =>
    ⟨(allocate allocated machine.pool).2,
      heldAfter (fun answer => [answer.1]) machine.held (allocate allocated machine.pool).1⟩
  | .allocateContiguous count allocated =>
    ⟨(allocateContiguous count allocated machine.pool).2,
      heldAfter (fun answer => List.range' answer.1 count) machine.held
        (allocateContiguous count allocated machine.pool).1⟩
  | .release slot =>
    ⟨(release slot machine.pool).2,
      heldAfterRelease slot machine.held (release slot machine.pool).1⟩
  | .planner requests => ⟨(planner requests machine.pool).2, machine.held⟩

def InOrder (machine : Machine maxKernelUntypeds) : Operation → Prop
  | .admitRange range =>
    ∀ word ∈ machine.pool.allWords.take machine.pool.count, word.base ≤ range.start.toNat
  | _ => True

theorem keeps_step (machine : Machine maxKernelUntypeds) (operation : Operation)
    (h : Keeps machine.pool machine.held) (horder : InOrder machine operation) :
    Keeps (step machine operation).pool (step machine operation).held := by
  cases operation with
  | provision count => exact keeps_provision h count
  | admitRange range =>
    refine admitRange_ensures h range fun word hword => ?_
    obtain ⟨found, hfound, rfl⟩ := List.mem_map.mp hword
    exact horder found hfound
  | allocate allocated =>
    change Keeps (allocate allocated machine.pool).2
      (heldAfter _ machine.held (allocate allocated machine.pool).1)
    rcases allocate_ensures h allocated with ⟨slot, reused, hok, -, hkeeps⟩ | ⟨herror, hsame, -⟩
    · rw [hok]
      exact hkeeps
    · rw [herror, hsame]
      exact h
  | allocateContiguous count allocated =>
    change Keeps (allocateContiguous count allocated machine.pool).2
      (heldAfter _ machine.held (allocateContiguous count allocated machine.pool).1)
    rcases allocateContiguous_ensures h count allocated with
      ⟨start, reused, hok, -, hkeeps⟩ | ⟨herror, hsame, -⟩
    · rw [hok]
      exact hkeeps
    · rw [herror, hsame]
      exact h
  | release slot =>
    obtain ⟨hok, hkeeps⟩ := release_ensures h slot
    change Keeps (release slot machine.pool).2
      (heldAfterRelease slot machine.held (release slot machine.pool).1)
    rw [hok]
    by_cases hslot : slot ∈ machine.held
    · rw [decide_eq_true hslot]
      exact hkeeps
    · rw [decide_eq_false hslot]
      rw [erase_of_not_mem hslot] at hkeeps
      exact hkeeps
  | planner requests => exact keeps_planning h (planner_planning requests machine.pool)

def slots (words : List Occupancy) : List Nat :=
  words.flatMap fun word => List.range' word.base word.valid

variable {words : List Occupancy}

theorem mem_slots {slot : Nat} : slot ∈ slots words ↔ Admitted words slot := by
  simp [slots, Admitted, Occupancy.Covers]

theorem length_slots (words : List Occupancy) :
    (slots words).length = (words.map Occupancy.valid).sum := by
  simp [slots, length_flatMap]

theorem nodup_slots (h : Ordered words) : (slots words).Nodup := by
  refine nodup_flatMap.mpr ⟨fun word _ => nodup_range', h.ascending.imp ?_⟩
  intro first second hle slot hfirst hsecond
  rw [mem_range'_1] at hfirst hsecond
  omega

/-- Adjacent free slots, at least one, all in one leaf once they reach `2 ^ 60`. -/
structure SlotRun (free : Nat → Prop) (start count : Nat) : Prop where
  nonempty : 0 < count
  free : ∀ i, i < count → free (start + i)
  leaf : 2 ^ 60 < start + count → (start + count - 1) / 1024 = start / 1024

theorem linked_succ (address : Nat) : Linked address (address + 1) ↔
      address + 1 < 2 ^ 60 ∨ (address + 1) / 1024 = address / 1024 := by
  simp [Linked, sameLeaf, Nat.shiftRight_eq_div_pow]

theorem slotRun_iff {free : Nat → Prop} {start count : Nat} :
    SlotRun free start count ↔ FreeRun Linked free start count := by
  constructor
  · intro h
    refine ⟨h.nonempty, h.free, ?_⟩
    intro i hi
    rw [linked_succ]
    by_cases hlow : start + count ≤ 2 ^ 60
    · exact .inl (by omega)
    · have hleaf := h.leaf (by omega)
      exact .inr (by omega)
  · intro h
    refine ⟨h.nonempty, h.free, ?_⟩
    intro hreach
    have hpos := h.nonempty
    -- a link across `2 ^ 60` would join two leaves
    have hstart : 2 ^ 60 ≤ start := by
      by_contra hbelow
      have hlink := h.linked (2 ^ 60 - 1 - start) (by omega)
      rw [linked_succ] at hlink
      omega
    have hsame : ∀ i, i < count → (start + i) / 1024 = start / 1024 := by
      intro i hi
      induction i with
      | zero => rfl
      | succ i ih =>
        have hlink := h.linked i hi
        rw [linked_succ] at hlink
        omega
    have hlast := hsame (count - 1) (by omega)
    rw [← hlast]
    congr 1
    omega

/-- What the pool promises its callers: its counters count, allocations take the lowest
free slots there are, and a release is accepted exactly for a slot handed out. -/
structure Correct (machine : Machine maxKernelUntypeds) : Prop where
  distinct : machine.held.Nodup
  live : machine.pool.live = machine.held.length
  total : ∃ slots : List Nat, slots.Nodup ∧ slots.length = machine.pool.total ∧
    ∀ slot, slot ∈ slots ↔ Admitted (occupancy false machine.pool) slot
  free : machine.pool.free + machine.pool.live = machine.pool.total
  allocate : ∀ allocated, Ensures (allocate allocated) machine.pool fun outcome pool' =>
    (∃ slot reused, outcome = .ok (slot, reused) ∧
        IsLeast {slot | Free machine.pool machine.held slot} slot) ∨
      (outcome = .error (.returned (.slotsExhausted allocated)) ∧ pool' = machine.pool ∧
        ∀ slot, ¬ Free machine.pool machine.held slot)
  allocateContiguous : ∀ count allocated,
    Ensures (allocateContiguous count allocated) machine.pool fun outcome pool' =>
      (∃ start reused, outcome = .ok (start, reused) ∧
          IsLeast {start | SlotRun (Free machine.pool machine.held) start count} start) ∨
        (outcome = .error (.returned (.slotsExhausted allocated)) ∧ pool' = machine.pool ∧
          ∀ start, ¬ SlotRun (Free machine.pool machine.held) start count)
  release : ∀ slot, (release slot machine.pool).1 = .ok (decide (slot ∈ machine.held))

theorem Correct.of_keeps {machine : Machine maxKernelUntypeds}
    (h : Keeps machine.pool machine.held) : Correct machine := by
  have hslots : ∀ slot, slot ∈ machine.held → slot ∈ slots (occupancy false machine.pool) :=
    fun slot hslot => mem_slots.mpr ((h.taken slot).mp hslot).admitted
  have hle : machine.pool.live ≤ machine.pool.total := by
    rw [h.live, h.total, ← length_slots]
    exact (subperm_of_subset h.distinct hslots).length_le
  refine ⟨h.distinct, h.live, ⟨slots (occupancy false machine.pool), nodup_slots h.ordered, ?_,
    fun _ => mem_slots⟩, Nat.sub_add_cancel hle, ?_, ?_, fun slot => (release_ensures h slot).1⟩
  · rw [length_slots, h.total]
  · intro allocated
    apply ensures_weaken (allocate_ensures h allocated)
    rintro outcome pool' (⟨slot, reused, hok, hleast, -⟩ | hexhausted)
    · exact .inl ⟨slot, reused, hok, hleast⟩
    · exact .inr hexhausted
  · intro count allocated
    apply ensures_weaken (allocateContiguous_ensures h count allocated)
    simp only [slotRun_iff]
    rintro outcome pool' (⟨start, reused, hok, hleast, -⟩ | hexhausted)
    · exact .inl ⟨start, reused, hok, hleast⟩
    · exact .inr hexhausted

example : (run step (Machine.start ⟨100, 110⟩ : Machine 0)
    [.allocate 0, .admitRange ⟨200, 230⟩, .allocateContiguous 12 1, .release 100]).held =
      List.range' 200 12 := by decide +kernel

end Runs

end SlimeOs.RootSlotPool
