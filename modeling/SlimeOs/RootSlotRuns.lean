import SlimeOs.FreeRuns
import SlimeOs.RootSlotWords

/-!
Runs of adjacent root slots: the scan over the bitmap words finds the lowest run,
an allocation takes it, and a plan writes nothing but its own bitmaps.
-/

namespace SlimeOs.RootSlotRuns

open BitWord FallibleCall FreeRuns List Option RootSlotWords RootSlots FallibleCall.Call

variable {maxKernelUntypeds : Nat}

section Scan

variable {words : List Occupancy} {count position index : Nat} {state : RunScan} {word : Occupancy}

def FreeIn (words : List Occupancy) (slot : Nat) : Prop := Admitted words slot ∧ ¬ Taken words slot

def Linked (previous address : Nat) : Prop := sameLeaf previous address = true

def Scans (words : List Occupancy) (count position : Nat) (state : RunScan) : Prop :=
  ∃ bound, bound ≤ position ∧ (∀ cell, bound ≤ cell → cell < position → ¬ FreeIn words cell) ∧
    Scanned Linked (FreeIn words) count bound state.start state.run ∧
    (∀ previous, state.previous = some previous → previous + 1 = bound) ∧
    (state.previous = none → state.run = 0)

def Lowest (words : List Occupancy) (count start : Nat) : Prop :=
  IsLeast {s | FreeRun Linked (FreeIn words) s count} start

section

variable (h : Scans words count position state)
include h

variable {position' : Nat}

theorem Scans.advance (hle : position ≤ position')
    (htaken : ∀ cell, position ≤ cell → cell < position' → ¬ FreeIn words cell) :
    Scans words count position' state := by
  obtain ⟨bound, hbound, hbetween, hrest⟩ := h
  refine ⟨bound, le_trans hbound hle, ?_, hrest⟩
  intro cell hlow hhigh
  by_cases hcell : cell < position
  · exact hbetween cell hlow hcell
  · exact htaken cell (by omega) hhigh

theorem Scans.skip (hlt : position < position')
    (htaken : ∀ cell, position ≤ cell → cell < position' → ¬ FreeIn words cell)
    (previous : Option Nat) (hprevious : ∀ p, previous = some p → p + 1 = position') :
    Scans words count position' ⟨state.start, 0, previous⟩ := by
  obtain ⟨bound, hbound, hbetween, hscanned, -, -⟩ := h
  refine ⟨position', le_refl _, fun cell hlow hhigh => absurd hhigh (by omega),
    hscanned.skip (by omega) ?_ _, hprevious, fun _ => rfl⟩
  intro cell hlow hhigh
  by_cases hcell : cell < position
  · exact hbetween cell hlow hcell
  · exact htaken cell (by omega) hhigh

theorem Scans.extends {run : Nat}
    (hrun : run = if state.previous.all fun previous => sameLeaf previous position then state.run
      else 0) :
    ∃ start seen, Scanned Linked (FreeIn words) count position start seen ∧
      Extends Linked position start seen (if run == 0 then position else state.start)
        (run + 1) := by
  obtain ⟨bound, hbound, hbetween, hscanned, hprevious, hfresh⟩ := h
  rcases lt_or_eq_of_le hbound with hlt | rfl
  · -- a gap before the slot: whatever was seen last is not its neighbour
    have hzero : run = 0 := by
      rw [hrun]
      rcases hstate : state.previous with _ | previous
      · simpa using hfresh hstate
      · have hbefore := hprevious previous hstate
        have hne : position ≠ previous + 1 := by omega
        simp [sameLeaf, hne]
    subst hzero
    refine ⟨position, 0, hscanned.skip hlt hbetween _, ?_, ?_⟩
    · intro hpos
      exact absurd hpos (lt_irrefl 0)
    · intro _
      exact ⟨rfl, rfl⟩
  · rcases hstate : state.previous with _ | previous
    · have hzero : run = 0 := by
        rw [hrun, hstate]
        simpa using hfresh hstate
      rw [hfresh hstate] at hscanned
      subst hzero
      refine ⟨state.start, 0, hscanned, ?_, ?_⟩
      · intro hpos
        exact absurd hpos (lt_irrefl 0)
      · intro _
        exact ⟨rfl, rfl⟩
    · have hbefore := hprevious previous hstate
      obtain rfl : previous = bound - 1 := by omega
      by_cases hleaf : sameLeaf (bound - 1) bound = true
      · have hsame : run = state.run := by simp [hrun, hstate, hleaf]
        rw [← hsame] at hscanned
        refine ⟨state.start, run, hscanned, ?_, ?_⟩
        · intro hpos _
          exact ⟨if_neg (by simpa using ne_of_gt hpos), rfl⟩
        intro hjoin
        have hzero : run = 0 := Nat.eq_zero_of_not_pos fun hpos => hjoin ⟨hpos, hleaf⟩
        subst hzero
        exact ⟨rfl, rfl⟩
      · have hzero : run = 0 := by simp [hrun, hstate, hleaf]
        subst hzero
        refine ⟨state.start, state.run, hscanned, ?_, ?_⟩
        · intro _ hlinked
          exact absurd hlinked hleaf
        · intro _
          exact ⟨rfl, rfl⟩

end

theorem scanBit_leaves {base bit : Nat} {bitmap : UInt64}
    (h : Scans words count (base + bit) state) (hbit : bit < 64)
    (hfree : FreeIn words (base + bit) ↔ testBit bitmap bit = false) :
    Leaves (Lowest words count) (Scans words count (base + bit + 1))
      (scanBit count none base bitmap state bit) := by
  unfold scanBit
  by_cases hset : testBit bitmap bit = false
  · have hclear := (and_bitMask_eq_zero_iff _ hbit).mpr hset
    obtain ⟨start, seen, hscanned, hextends⟩ := h.extends rfl
    have hle := hscanned.extends_le hextends
    rw [if_neg (by simp [hclear])]
    generalize (if state.previous.all fun previous => sameLeaf previous (base + bit) then state.run
      else 0) = run at hextends hle ⊢
    by_cases hcount : run + 1 = count
    · rw [if_pos (by simpa using hcount)]
      rw [hcount] at hextends
      exact hscanned.found (hfree.mpr hset) hextends
    rw [if_neg (by simpa using hcount)]
    have hscanned' := hscanned.extend (hfree.mpr hset) hextends (by omega)
    refine ⟨base + bit + 1, le_refl _, fun cell hlow hhigh => absurd hhigh (by omega),
      hscanned', ?_, nofun⟩
    intro previous hprevious
    rw [← some.inj hprevious]
  · have htaken : bitmap &&& bitMask bit ≠ 0 := by
      rw [Ne, and_bitMask_eq_zero_iff _ hbit]
      exact hset
    rw [if_pos (by simp [htaken])]
    refine h.skip (Nat.lt_succ_self _) ?_ _ ?_
    · intro cell hlow hhigh
      obtain rfl : cell = base + bit := by omega
      rw [hfree]
      exact hset
    · intro previous hprevious
      rw [some.inj hprevious]

theorem freeIn_iff_clear (h : Ordered words)
    (hword : words[index]? = some word) {bit : Nat} (hbit : bit < word.valid) :
    FreeIn words (word.base + bit) ↔ testBit word.used bit = false := by
  have hcovers : word.Covers (word.base + bit) := ⟨Nat.le_add_right _ _, Nat.add_lt_add_left hbit _⟩
  have hadmitted := admitted_iff.mpr ⟨index, word, hword, hcovers⟩
  simp [FreeIn, hadmitted, h.taken_iff_bit hword hcovers]

theorem scanWord_leaves (h : Ordered words) {word : SlotWord} (planned : Bool)
    (hword : words[index]? = some (occupancyOf planned word))
    (hscans : Scans words count word.base state) :
    Leaves (Lowest words count) (Scans words count (word.base + word.valid))
      (scanWord count none planned state word) := by
  have hvalid : 0 < word.valid ∧ word.valid ≤ bits := h.valid _ (mem_of_getElem? hword)
  unfold scanWord
  by_cases hfull : ((if planned then word.planned else word.used) &&& word.mask == word.mask) = true
  · rw [if_pos hfull]
    have hlt : word.base < word.base + word.valid := by omega
    refine hscans.skip hlt ?_ none nofun
    intro cell hlow hhigh hcell
    obtain ⟨bit, rfl⟩ : ∃ bit, cell = word.base + bit := ⟨cell - word.base, by omega⟩
    have hbit : bit < word.valid := by omega
    have hclear := (freeIn_iff_clear h hword hbit).mp hcell
    have hmask : testBit (lowMask word.valid) bit = true := by
      rw [testBit_lowMask hvalid.1 hvalid.2, decide_eq_true hbit]
    rw [beq_iff_eq] at hfull
    rw [SlotWord.mask] at hfull
    rw [← hfull] at hmask
    simp only [occupancyOf] at hclear
    simp [hclear] at hmask
  · rw [if_neg hfull]
    apply range_leaves _ (fun bit state => Scans words count (word.base + bit) state) _ hscans
    intro bit state' hbit hstate
    exact scanBit_leaves hstate (lt_of_lt_of_le hbit hvalid.2) (freeIn_iff_clear h hword hbit)

def ScansWords (words : List Occupancy) (count index : Nat) (state : RunScan) : Prop :=
  ∃ position, Scans words count position state ∧
    (∀ (i : Nat) (word : Occupancy), i < index → words[i]? = some word →
      word.base + word.valid ≤ position) ∧
    ∀ (i : Nat) (word : Occupancy), index ≤ i → words[i]? = some word → position ≤ word.base

theorem ScansWords.at_base (h : Ordered words)
    (hword : words[index]? = some word) (hscans : ScansWords words count index state) :
    Scans words count word.base state := by
  obtain ⟨position, hposition, hbelow, habove⟩ := hscans
  apply hposition.advance (habove index word (le_refl _) hword)
  rintro cell hlow hhigh ⟨hadmitted, -⟩
  obtain ⟨i, other, hother, hcovers⟩ := admitted_iff.mp hadmitted
  have hbase := hcovers.1
  have hend := hcovers.2
  rcases lt_trichotomy i index with hlt | rfl | hgt
  · have := hbelow i other hlt hother
    omega
  · obtain rfl := mem_unique hword hother
    omega
  · have := h.before hgt hword hother
    omega

variable (pool : SlotPool maxKernelUntypeds) (planned : Bool)

theorem scanWords_leaves (h : Ordered (occupancy planned pool)) (hcount : 0 < count) :
    Leaves (Lowest (occupancy planned pool) count)
      (ScansWords (occupancy planned pool) count (pool.allWords.take pool.count).length)
      ((pool.allWords.take pool.count).foldlM (scanWord count none planned) ⟨0, 0, none⟩) := by
  apply fold_leaves _ (ScansWords (occupancy planned pool) count) _
  · refine ⟨0, ⟨0, Nat.le_refl 0, fun cell _ hcell => absurd hcell (Nat.not_lt_zero cell),
      scanned_zero hcount, nofun, fun _ => rfl⟩, ?_, ?_⟩
    · intro i word hi
      exact absurd hi (Nat.not_lt_zero i)
    · intro i word _ _
      exact Nat.zero_le _
  · intro index word state hword hscans
    have hfound : (occupancy planned pool)[index]? = some (occupancyOf planned word) := by
      unfold occupancy
      rw [getElem?_map, hword]
      rfl
    apply (scanWord_leaves h planned hfound (hscans.at_base h hfound)).imp (fun _ => id)
    intro state' hpass
    refine ⟨word.base + word.valid, hpass, ?_, ?_⟩
    · intro i other hi hother
      rcases Nat.lt_or_eq_of_le (Nat.le_of_lt_succ hi) with hlt | rfl
      · have hbefore := h.before hlt hother hfound
        have hbase : (occupancyOf planned word).base = word.base := rfl
        omega
      · obtain rfl := Option.mem_unique hfound hother
        exact Nat.le_refl _
    · intro i other hi hother
      exact h.before hi hfound hother

theorem contiguous_spec (h : Ordered (occupancy planned pool)) (count : Nat) :
    (∃ start, pool.contiguous count none planned = some start ∧
        Lowest (occupancy planned pool) count start) ∨
      (pool.contiguous count none planned = none ∧
        ∀ start, ¬ FreeRun Linked (FreeIn (occupancy planned pool)) start count) := by
  unfold SlotPool.contiguous
  rcases Nat.eq_zero_or_pos count with rfl | hcount
  · exact .inr ⟨rfl, fun start hrun => absurd hrun.nonempty (Nat.lt_irrefl 0)⟩
  rw [if_neg (by simpa using Nat.ne_of_gt hcount)]
  have hscan := scanWords_leaves pool planned h hcount
  rcases hresult : (pool.allWords.take pool.count).foldlM (scanWord count none planned)
      ⟨0, 0, none⟩ with start | state
  · rw [hresult] at hscan
    exact .inl ⟨start, rfl, hscan⟩
  rw [hresult] at hscan
  refine .inr ⟨rfl, ?_⟩
  obtain ⟨position, ⟨bound, -, hbetween, hscanned, -, -⟩, hbelow, -⟩ := hscan
  apply hscanned.exhausted
  intro cell hcell
  obtain ⟨i, word, hword, hcovers⟩ := admitted_iff.mp hcell.1
  have hi : i < (pool.allWords.take pool.count).length := by
    have hlt := (List.getElem_of_getElem? hword).1
    unfold occupancy at hlt
    rwa [length_map] at hlt
  have hend := hbelow i word hi hword
  have hhigh := hcovers.2
  by_contra hge
  exact hbetween cell (by omega) (by omega) hcell

end Scan

section Contiguous

variable {pool pool' : SlotPool maxKernelUntypeds} {held : List Nat}

/-- The first slots of a run are taken, and nothing else has changed. -/
structure Taking (pool : SlotPool maxKernelUntypeds) (held : List Nat) (start done : Nat)
    (pool' : SlotPool maxKernelUntypeds) : Prop where
  tracks : Tracks pool' (List.range' start done ++ held)
  admitted : ∀ slot, Admitted (occupancy false pool') slot ↔ Admitted (occupancy false pool) slot
  full : Full (occupancy false pool') pool.nextWord
  same : SameCounters pool pool'

theorem takeSlot_ensures {start done reused : Nat} (h : Taking pool held start done pool')
    (hfree : Free pool held (start + done)) :
    Ensures (takeSlot start reused done) pool' fun outcome pool'' =>
      ∃ reused', outcome = .ok reused' ∧ Taking pool held start (done + 1) pool'' := by
  have hnew : start + done ∉ range' start done ++ held := by
    rw [mem_append, mem_range'_1]
    rintro (hrange | hheld)
    · omega
    · exact hfree.2 hheld
  apply ensures_read
  rcases locate_spec h.tracks (start + done) with
    ⟨-, hnone⟩ | ⟨index, word, bit, hlocate, hindex, hword, hslot, hbit⟩
  · exact absurd ((h.admitted _).mpr hfree.1) hnone
  have hclear : testBit word.used bit = false := by
    rw [hslot, h.tracks.held_iff_bit hindex hword hbit] at hnew
    simpa using hnew
  obtain ⟨pool'', hwrite, hwrites⟩ := h.tracks.writes hindex hword
    { word with used := word.used ||| bitMask bit, issued := word.issued ||| bitMask bit }
    rfl rfl
  have htracks := h.tracks.take hwrites rfl hbit hclear
  have hfull := h.full.keep h.tracks htracks hwrites (subset_cons_self _ _)
  refine ensures_bind_ok (by rw [hlocate]; rfl) (ensures_unwrap rfl
    (ensures_unwrap hword (ensures_bind_ok hwrite ?_)))
  refine ⟨_, rfl, htracks.perm ?_, ?_, hfull, h.same.trans hwrites.same⟩
  · rw [← hslot, range'_1_concat, append_assoc]
    exact perm_middle.symm
  intro slot
  change Admitted (occupancy false pool'') slot ↔ _
  rw [hwrites.occupancy false, (hwrites.rewrites false).admitted]
  exact h.admitted slot

def AllocatedRun (pool : SlotPool maxKernelUntypeds) (held : List Nat) (count allocated : Nat)
    (outcome : Outcome AllocError (Nat × Nat)) (pool' : SlotPool maxKernelUntypeds) : Prop :=
  (∃ start reused, outcome = .ok (start, reused) ∧
      IsLeast {s | FreeRun Linked (Free pool held) s count} start ∧
      Keeps pool' (List.range' start count ++ held)) ∨
    (outcome = .error (.returned (.slotsExhausted allocated)) ∧ pool' = pool ∧
      ∀ start, ¬ FreeRun Linked (Free pool held) start count)

theorem allocateContiguous_ensures (h : Keeps pool held) (count allocated : Nat) :
    Ensures (allocateContiguous count allocated) pool (AllocatedRun pool held count allocated) := by
  have hsame : FreeIn (occupancy false pool) = Free pool held := by
    funext slot
    unfold FreeIn Free
    rw [h.taken]
  apply ensures_read
  rcases contiguous_spec pool false h.ordered count with ⟨start, hfound, hlowest⟩ | ⟨hnone, hrun⟩
  · rw [hfound]
    unfold Lowest at hlowest
    rw [hsame] at hlowest
    refine Call.ensures_okOr (fun start' hstart => ?_) nofun
    obtain rfl := Option.some.inj hstart
    have hloop : Ensures ((List.range count).foldlM (takeSlot start) 0) pool
        fun outcome pool' => ∃ reused, outcome = .ok reused ∧ Taking pool held start count pool' :=
      ensures_loop (fun done _ pool' => Taking pool held start done pool')
        ⟨h.toTracks, fun _ => Iff.rfl, h.full, rfl, rfl, rfl, rfl, rfl, rfl⟩
        fun done reused pool' hdone htaking => takeSlot_ensures htaking (hlowest.1.free done hdone)
    refine ensures_answer hloop fun reused pool' htaking => ?_
    refine ensures_modify (.inl ⟨start, reused, rfl, hlowest,
      htaking.tracks.congr htaking.tracks.room rfl rfl, ?_, ?_⟩)
    · change pool'.live + count = _
      rw [htaking.same.live, h.live, length_append, length_range', Nat.add_comm]
    · have hfull := htaking.full
      rw [← htaking.same.nextWord] at hfull
      exact hfull
  · rw [hnone]
    rw [hsame] at hrun
    exact .inr ⟨rfl, rfl, hrun⟩

end Contiguous

section Plan

variable {pool pool' : SlotPool maxKernelUntypeds} {held : List Nat} {index : Nat} {word : SlotWord}

structure Planning (pool pool' : SlotPool maxKernelUntypeds) : Prop where
  used : occupancy false pool' = occupancy false pool
  same : SameCounters pool pool'

theorem Planning.trans {first second third : SlotPool maxKernelUntypeds}
    (h : Planning first second) (h' : Planning second third) : Planning first third :=
  ⟨h'.used.trans h.used, h.same.trans h'.same⟩

instance : IsPreorder (SlotPool maxKernelUntypeds) Planning where
  refl _ := ⟨rfl, rfl, rfl, rfl, rfl, rfl, rfl⟩
  trans _ _ _ := Planning.trans

theorem keeps_planning (h : Keeps pool held) (hplan : Planning pool pool') : Keeps pool' held := by
  refine ⟨h.toTracks.congr ?_ hplan.used hplan.same.total, ?_, ?_⟩
  · rw [hplan.same.count, hplan.same.length]
    exact h.room
  · rw [hplan.same.live]
    exact h.live
  · rw [hplan.used, hplan.same.nextWord]
    exact h.full

theorem planning_write
    (hword : Outcome.unwrap (pool.word index) = (.ok word : Outcome AllocError SlotWord))
    (planned : UInt64) :
    Ensures (writeWord index { word with planned }) pool fun _ => Planning pool := by
  obtain ⟨hlt, hget⟩ := List.getElem_of_getElem?
    (word_eq pool index ▸ Outcome.unwrap_eq_ok_iff.mp hword)
  obtain ⟨pool', hwrite, hwords, hsame⟩ := writeWord_ensures hlt { word with planned }
  unfold Ensures
  rw [hwrite]
  refine ⟨?_, hsame⟩
  unfold occupancy
  rw [hwords, hsame.count, take_set, map_set]
  change (map _ _).set index (occupancyOf false word) = _
  rw [← map_set, ← take_set, ← hget, set_getElem_self]

theorem planFrom_planning (allocated left index : Nat) :
    Ensures (planFrom allocated left index) pool fun _ => Planning pool := by
  induction left generalizing index with
  | zero => exact refl pool
  | succ left ih =>
    refine ensures_read (ensures_lift (fun word hword => ?_) fun _ => refl pool)
    dsimp only
    split
    · exact ih (index + 1)
    · exact ensures_bind (planning_write hword _) (fun _ _ h => h) fun _ _ h => h

variable (nextWord : Nat)

theorem planOne_planning (request : PlanRequest) :
    Moves Planning (planOne nextWord request : PoolCall maxKernelUntypeds (Nat × Nat)) := by
  cases request with
  | allocate allocated => exact moves_bind moves_read fun _ _ => planFrom_planning _ _ _
  | allocateContiguous count allocated =>
    refine moves_bind moves_read fun pool => moves_bind moves_lift fun start => ?_
    refine moves_bind (moves_fold _ _ fun _ done pool => ?_) fun _ => moves_pure _
    change Ensures (planSlot start () done) pool fun _ => Planning pool
    refine ensures_read (ensures_lift (fun located _ => ?_) fun _ => refl pool)
    refine ensures_lift (fun place _ => ?_) fun _ => refl pool
    exact ensures_lift (fun word hword => planning_write hword _) fun _ => refl pool

variable (requests : List PlanRequest)

theorem planAll_planning :
    Moves Planning (planAll nextWord requests :
      PoolCall maxKernelUntypeds (List (Option Nat))) := by
  induction requests generalizing nextWord with
  | nil => exact moves_pure _
  | cons request requests ih =>
    intro pool
    have hone := planOne_planning nextWord request pool
    have hlater (answer : Option Nat) (next : Nat) (pool : SlotPool maxKernelUntypeds) :
        Planning pool
          ((planAll next requests >>= fun answers => pure (answer :: answers)) pool).2 :=
      moves_bind (ih next) (fun _ => moves_pure _) pool
    unfold planAll
    rcases hresult : planOne nextWord request pool with ⟨(error | _ | _) | ⟨start, next⟩, pool'⟩
    all_goals rw [hresult] at hone
    · exact hone.trans (hlater none nextWord pool')
    · exact hone
    · exact hone
    · exact hone.trans (hlater (some start) next pool')

theorem planner_planning :
    Moves Planning (planner requests : PoolCall maxKernelUntypeds (List (Option Nat))) := by
  refine moves_bind moves_read fun pool => moves_bind (moves_fold _ _ fun _ index pool => ?_)
    fun _ => planAll_planning 0 requests
  change Ensures (copyUsed () index) pool fun _ => Planning pool
  exact ensures_read (ensures_lift (fun word hword => planning_write hword _) fun _ => refl pool)

end Plan

end SlimeOs.RootSlotRuns
