import SlimeOs.RootSlotPool

/-!
The words of the slot pool are there whenever the pool counts them. Nothing else is needed for
a slot to be given back without a panic.
-/

namespace SlimeOs.RootSlotRoom

open FallibleCall FallibleCall.Call RootSlots RootSlotPool RootSlotWords SlotPool

variable {maxKernelUntypeds : Nat}

def Roomy (pool : SlotPool maxKernelUntypeds) : Prop := pool.count ≤ pool.allWords.length

def KeepsRoom (pool pool' : SlotPool maxKernelUntypeds) : Prop := Roomy pool → Roomy pool'

instance : IsPreorder (SlotPool maxKernelUntypeds) KeepsRoom where
  refl _ h := h
  trans _ _ _ h h' := h' ∘ h

theorem writeWord_keepsRoom (index : Nat) (word : SlotWord) :
    Moves KeepsRoom (writeWord index word : PoolCall maxKernelUntypeds Unit) := by
  intro pool hroom
  by_cases hindex : index < pool.allWords.length
  · obtain ⟨pool', hwrite, -, hsame⟩ := writeWord_ensures hindex word
    rw [hwrite]
    unfold Roomy
    rw [hsame.count, hsame.length]
    exact hroom
  · have hset : pool.setWord index word = none := by
      rw [length_allWords] at hindex
      unfold setWord
      rw [if_neg (by omega), if_neg (by omega)]
    have hwrite : writeWord index word pool = (.error .panicked, pool) := by
      unfold writeWord
      simp [bind_apply, Call.read, Call.lift, hset, Outcome.unwrap]
    rw [hwrite]
    exact hroom

theorem modify_keepsRoom {f : SlotPool maxKernelUntypeds → SlotPool maxKernelUntypeds}
    (hcount : ∀ pool, (f pool).count = pool.count)
    (hwords : ∀ pool, (f pool).allWords = pool.allWords) :
    Moves KeepsRoom (Call.modify f : PoolCall maxKernelUntypeds Unit) := by
  intro pool hroom
  change (f pool).count ≤ (f pool).allWords.length
  rw [hcount, hwords]
  exact hroom

theorem allocate_keepsRoom (allocated : Nat) :
    Moves KeepsRoom (allocate allocated : PoolCall maxKernelUntypeds (Nat × Bool)) := by
  have hfrom (left index : Nat) :
      Moves KeepsRoom (allocateFrom allocated left index :
        PoolCall maxKernelUntypeds (Nat × Bool)) := by
    induction left generalizing index with
    | zero => exact moves_lift
    | succ left ih =>
      refine moves_bind moves_read fun pool => moves_bind moves_lift fun word => ?_
      dsimp only
      split
      · exact ih (index + 1)
      · refine moves_bind (writeWord_keepsRoom _ _) fun _ => ?_
        exact moves_bind (modify_keepsRoom (fun _ => rfl) fun _ => rfl) fun _ => moves_pure _
  exact moves_bind moves_read fun pool => hfrom _ _

theorem release_keepsRoom (slot : Nat) :
    Moves KeepsRoom (release slot : PoolCall maxKernelUntypeds Bool) := by
  refine moves_bind moves_read fun pool => moves_bind moves_lift fun located => ?_
  rcases located with _ | ⟨-, -⟩
  · exact moves_pure _
  refine moves_bind moves_lift fun word => ?_
  dsimp only
  split
  · exact moves_pure _
  · refine moves_bind (writeWord_keepsRoom _ _) fun _ => ?_
    exact moves_bind (modify_keepsRoom (fun _ => rfl) fun _ => rfl) fun _ => moves_pure _

theorem allocateContiguous_keepsRoom (count allocated : Nat) :
    Moves KeepsRoom (allocateContiguous count allocated :
      PoolCall maxKernelUntypeds (Nat × Nat)) := by
  refine moves_bind moves_read fun pool => moves_bind moves_lift fun start => ?_
  refine moves_bind (moves_fold _ _ fun reused index => ?_) fun reused => ?_
  · refine moves_bind moves_read fun pool => moves_bind moves_lift fun located => ?_
    refine moves_bind moves_lift fun place => moves_bind moves_lift fun word => ?_
    exact moves_bind (writeWord_keepsRoom _ _) fun _ => moves_pure _
  · exact moves_bind (modify_keepsRoom (fun _ => rfl) fun _ => rfl) fun _ => moves_pure _

theorem provision_keepsRoom (count : Nat) :
    Moves KeepsRoom (provision count : PoolCall maxKernelUntypeds Unit) := by
  intro pool hroom
  change pool.count ≤ (pool.bootstrap.toList ++ (pool.words ++ _)).length
  unfold Roomy allWords at hroom
  rw [List.length_append] at hroom
  simp only [List.length_append]
  omega

theorem admitRange_keepsRoom (range : Range) :
    Moves KeepsRoom (admitRange range : PoolCall maxKernelUntypeds Unit) := by
  intro pool hroom
  change Ensures (admitRange range) pool fun _ pool' => Roomy pool'
  refine ensures_rejectIf (fun _ => ensures_read ?_) fun _ => hroom
  refine ensures_rejectIf (fun hfree => ?_) fun _ => hroom
  refine ensures_rejectIf (fun _ => ensures_lift (fun _ _ => ?_) fun _ => hroom) fun _ => hroom
  refine ensures_rejectIf (fun _ => ?_) fun _ => hroom
  have hwords : pool.count +
      (range.stop.toNat - range.start.toNat + (bits - 1)) / bits ≤ pool.allWords.length := by
    have hlength := length_allWords pool
    have hfree' := of_decide_eq_false hfree
    unfold metadataFree at hfree'
    unfold Roomy at hroom
    omega
  refine ensures_answer (admitWords_ensures hwords) fun _ pool' hadmitting => ?_
  change pool'.count ≤ pool'.allWords.length
  rw [hadmitting.count, hadmitting.length]
  exact hwords

theorem release_completes {pool : SlotPool maxKernelUntypeds} (hroom : Roomy pool) (slot : Nat) :
    ∃ released, (release slot pool).1 = .ok released := by
  unfold release
  rcases locateBetween_spec hroom slot pool.count 0 pool.count (le_refl _) (le_refl _) with
    ⟨hlocate, -⟩ | ⟨index, word, bit, hlocate, hindex, hword, -, -⟩
  · refine ⟨false, ?_⟩
    simp [bind_apply, Call.read, Call.lift, locate, hlocate, pure]
  obtain ⟨pool', hwrite, -⟩ := writeWord_ensures (lt_of_lt_of_le hindex hroom)
    { word with used := word.used &&& ~~~BitWord.bitMask bit }
  by_cases hused : word.used &&& BitWord.bitMask bit = 0
  · refine ⟨false, ?_⟩
    simp [bind_apply, Call.read, Call.lift, locate, hlocate, hword, Outcome.unwrap, hused,
      pure]
  refine ⟨true, ?_⟩
  simp only [bind_apply, Call.read, Call.lift, locate, hlocate, hword, Outcome.unwrap,
    beq_iff_eq, if_neg hused, hwrite]
  rfl

end SlimeOs.RootSlotRoom
