import SlimeOs.BootStateCodec

/-!
The two boot-state slots: which of them is live, and what a history of commits
does to them.

A commit writes the slot that is not live, with a larger sequence. An interrupted
write therefore damages only the slot that was not selected, and a completed one
is selected next. The one exception is a staged all-zero identity, whose slot
does not decode.
-/

namespace SlimeOs.BootSlots

open BootStateCodec ByteLayout CheckedWord FallibleCall FallibleCall.Outcome Option BootState

inductive Slot where
  | a
  | b
deriving DecidableEq

def Slot.other : Slot → Slot
  | .a => .b
  | .b => .a

variable (slot : Slot)

@[simp] theorem Slot.other_other : slot.other.other = slot := by
  cases slot <;> rfl

@[simp] theorem Slot.other_ne : slot.other ≠ slot := by
  cases slot <;> nofun

structure Slots where
  a : Bytes slotBytes
  b : Bytes slotBytes
deriving DecidableEq

namespace Slots

def get (slots : Slots) : Slot → Bytes slotBytes
  | .a => slots.a
  | .b => slots.b

def set (slots : Slots) (slot : Slot) (bytes : Bytes slotBytes) : Slots :=
  match slot with
  | .a => { slots with a := bytes }
  | .b => { slots with b := bytes }

variable (bytes : Bytes slotBytes) (slots : Slots)

@[simp] theorem get_set_same : (slots.set slot bytes).get slot = bytes := by
  cases slot <;> rfl

@[simp] theorem get_set_other : (slots.set slot.other bytes).get slot = slots.get slot := by
  cases slot <;> rfl

@[simp] theorem get_other_set : (slots.set slot bytes).get slot.other = slots.get slot.other := by
  cases slot <;> rfl

end Slots

structure SelectedBootState where
  slot : Slot
  state : BootState
deriving DecidableEq

inductive SelectionError where
  | conflictingSlots
  | noValidBootState
deriving DecidableEq

def selectBootstate (sha256 : List UInt8 → Digest) (a b : Bytes slotBytes) :
    Outcome SelectionError SelectedBootState :=
  match decode sha256 a, decode sha256 b with
  | .ok a, .ok b =>
    if b.sequence < a.sequence then .ok ⟨.a, a⟩
    else if a.sequence < b.sequence then .ok ⟨.b, b⟩
    else if a = b then .ok ⟨.a, a⟩
    else .error (.returned .conflictingSlots)
  | .ok a, .error _ => .ok ⟨.a, a⟩
  | .error _, .ok b => .ok ⟨.b, b⟩
  | .error _, .error _ => .error (.returned .noValidBootState)

inductive Transition where
  | stagePending (pending : Digest) (attempts : UInt32) (generationRoot stateRoot : Digest)
  | consumePendingAttempt
  | promotePending (running : Digest) (releaseSequence : UInt64)
  | rollbackPending
deriving DecidableEq

namespace Transition

def apply (transition : Transition) (state : BootState) :
    Outcome BootTransitionError BootState :=
  match transition with
  | .stagePending pending attempts generationRoot stateRoot =>
    state.stagePending pending attempts generationRoot stateRoot
  | .consumePendingAttempt => state.consumePendingAttempt
  | .promotePending running releaseSequence => state.promotePending running releaseSequence
  | .rollbackPending => state.rollbackPending

/-- The transition does not stage the identity that the wire form reads as none. -/
def Representable : Transition → Prop
  | .stagePending pending _ _ _ => pending ≠ zeros 32
  | _ => True

end Transition

structure Write where
  slot : Slot
  state : BootState
  bytes : Bytes slotBytes
deriving DecidableEq

/-- Select the live state, apply a transition to it and, if that changes it and the
result encodes, aim it at the other slot. -/
def plannedWrite (sha256 : List UInt8 → Digest) (slots : Slots) (transition : Transition) :
    Option Write := do
  let selected ← (selectBootstate sha256 slots.a slots.b).toOption
  let next ← (transition.apply selected.state).toOption
  if next = selected.state then
    none
  else do
    let bytes ← (encode sha256 next).toOption
    pure ⟨selected.slot.other, next, bytes⟩

/-- What becomes of a slot write: it completes, it does not happen, or it is cut
short and leaves a slot that does not decode. -/
inductive Fate (sha256 : List UInt8 → Digest) where
  | completes
  | lost
  | torn (remains : Bytes slotBytes) (hrejected : ∀ state, decode sha256 remains ≠ .ok state)

structure Commit (sha256 : List UInt8 → Digest) where
  transition : Transition
  fate : Fate sha256

/-- The slots, and the last state that was completely written to them. -/
structure History where
  slots : Slots
  written : BootState

open History

/-- A write that is planned and completes does not stage the all-zero identity. -/
def History.Representable {sha256 : List UInt8 → Digest} (history : History)
    (commit : Commit sha256) : Prop :=
  (plannedWrite sha256 history.slots commit.transition).isSome → commit.fate = .completes →
    commit.transition.Representable

def History.land {sha256 : List UInt8 → Digest} (history : History) (write : Write) :
    Fate sha256 → History
  | .completes => ⟨history.slots.set write.slot write.bytes, write.state⟩
  | .lost => history
  | .torn remains _ => ⟨history.slots.set write.slot remains, history.written⟩

def History.step (sha256 : List UInt8 → Digest) (history : History) (commit : Commit sha256) :
    History :=
  match plannedWrite sha256 history.slots commit.transition with
  | none => history
  | some write => history.land write commit.fate

section Selection

variable {sha256 : List UInt8 → Digest} {slots : Slots} {selected : SelectedBootState}

/-- The selected slot decodes; the other one does not, is older, or holds the same state, when A is
taken. -/
theorem select_eq_ok_iff : selectBootstate sha256 slots.a slots.b = .ok selected ↔
      decode sha256 (slots.get selected.slot) = .ok selected.state ∧
      ∀ state, decode sha256 (slots.get selected.slot.other) = .ok state →
        state.sequence < selected.state.sequence ∨
          (state = selected.state ∧ selected.slot = .a) := by
  rcases selected with ⟨slot, -⟩
  unfold selectBootstate
  rcases ha : decode sha256 slots.a with _ | first <;>
    rcases hb : decode sha256 slots.b with _ | second <;>
    cases slot <;>
    simp only [ha, hb, Slots.get, Slot.other, reduceCtorEq, false_and,
      Except.ok.injEq, SelectedBootState.mk.injEq, false_implies, implies_true, and_true,
      true_and, forall_eq', and_false, or_false]
  -- both slots decode: the sequences decide, and on a tie the states must agree
  · split_ifs <;> grind
  · split_ifs <;> grind

section

variable (h : selectBootstate sha256 slots.a slots.b = .ok selected)
include h

theorem decode_selected : decode sha256 (slots.get selected.slot) = .ok selected.state :=
  (select_eq_ok_iff.mp h).1

/-- In the slot that is not live, bytes that do not decode or decode to an older state change
nothing. -/
theorem select_set_older {bytes : Bytes slotBytes}
    (hbytes : ∀ state, decode sha256 bytes = .ok state → state.sequence < selected.state.sequence) :
    selectBootstate sha256 (slots.set selected.slot.other bytes).a
      (slots.set selected.slot.other bytes).b = .ok selected := by
  rw [select_eq_ok_iff]
  refine ⟨by rw [Slots.get_set_other]; exact decode_selected h, ?_⟩
  intro state hstate
  rw [Slots.get_set_same] at hstate
  exact .inl (hbytes state hstate)

end

end Selection

variable {transition : Transition}

section Transitions

variable {sequence next : UInt64}

theorem nextSequence_eq_ok_iff :
    nextSequence sequence = .ok next ↔ next.toNat = sequence.toNat + 1 ∧ next ≠ maxSequence := by
  simp only [nextSequence, okOr_eq_ok_iff, filter_eq_some_iff,
    checkedAdd_eq_some_iff, bne_iff_ne]
  rfl

theorem lt_nextSequence (h : nextSequence sequence = .ok next) : sequence < next := by
  obtain ⟨hnext, -⟩ := nextSequence_eq_ok_iff.mp h
  rw [UInt64.lt_iff_toNat_lt]
  omega

variable {state next : BootState}

theorem stagePending_eq_ok_iff {pending generationRoot stateRoot : Digest} {attempts : UInt32} :
    state.stagePending pending attempts generationRoot stateRoot = .ok next ↔
      attempts ≠ 0 ∧ nextSequence state.sequence = .ok next.sequence ∧
      next = ⟨next.sequence, state.knownGood, some pending, attempts, generationRoot, stateRoot,
        state.acceptedReleaseSequence⟩ := by
  simp only [stagePending, bind_eq_ok_iff, rejectIf_eq_ok_iff,
    pure_eq_ok_iff, beq_eq_false_iff_ne, exists_const]
  constructor
  · rintro ⟨hattempts, sequence, hsequence, rfl⟩
    exact ⟨hattempts, hsequence, rfl⟩
  · rintro ⟨hattempts, hsequence, hnext⟩
    exact ⟨hattempts, next.sequence, hsequence, hnext.symm⟩

theorem consumePendingAttempt_eq_ok_iff : state.consumePendingAttempt = .ok next ↔
      state.pending ≠ none ∧ state.remainingAttempts ≠ 0 ∧
      nextSequence state.sequence = .ok next.sequence ∧
      next = { state with
        sequence := next.sequence, remainingAttempts := state.remainingAttempts - 1 } := by
  simp only [consumePendingAttempt, bind_eq_ok_iff, rejectIf_eq_ok_iff,
    pure_eq_ok_iff, beq_eq_false_iff_ne, isNone_eq_false_iff,
    isSome_iff_ne_none, exists_const]
  constructor
  · rintro ⟨hpending, hattempts, sequence, hsequence, rfl⟩
    exact ⟨hpending, hattempts, hsequence, rfl⟩
  · rintro ⟨hpending, hattempts, hsequence, hnext⟩
    exact ⟨hpending, hattempts, next.sequence, hsequence, hnext.symm⟩

theorem promotePending_eq_ok_iff {running : Digest} {releaseSequence : UInt64} :
    state.promotePending running releaseSequence = .ok next ↔
      state.pending = some running ∧ state.acceptedReleaseSequence < releaseSequence ∧
      nextSequence state.sequence = .ok next.sequence ∧
      next = { state with
        sequence := next.sequence
        knownGood := running
        pending := none
        remainingAttempts := 0
        acceptedReleaseSequence := releaseSequence } := by
  simp only [promotePending, bind_eq_ok_iff, rejectIf_eq_ok_iff,
    pure_eq_ok_iff, bne_eq_false_iff_eq, decide_eq_false_iff_not, UInt64.not_le,
    exists_const]
  constructor
  · rintro ⟨hpending, hrelease, sequence, hsequence, rfl⟩
    exact ⟨hpending, hrelease, hsequence, rfl⟩
  · rintro ⟨hpending, hrelease, hsequence, hnext⟩
    exact ⟨hpending, hrelease, next.sequence, hsequence, hnext.symm⟩

theorem rollbackPending_eq_ok_iff : state.rollbackPending = .ok next ↔
      (state.pending = none ∧ next = state) ∨
      (state.pending ≠ none ∧ nextSequence state.sequence = .ok next.sequence ∧
        next = { state with
          sequence := next.sequence, pending := none, remainingAttempts := 0 }) := by
  unfold rollbackPending
  split
  next hnone =>
    simp only [isNone_iff_eq_none] at hnone
    simp [hnone, eq_comm, pure, Except.pure]
  rename_i hsome
  simp only [isNone_iff_eq_none] at hsome
  simp only [bind_eq_ok_iff, pure_eq_ok_iff, hsome, false_and, false_or,
    ne_eq, not_false_eq_true, true_and]
  constructor
  · rintro ⟨sequence, hsequence, rfl⟩
    exact ⟨hsequence, rfl⟩
  · rintro ⟨hsequence, hnext⟩
    exact ⟨next.sequence, hsequence, hnext.symm⟩

/-- A transition that changes the state raises its sequence and never takes back an accepted
release. -/
theorem Transition.apply_advances (h : transition.apply state = .ok next) (hne : next ≠ state) :
    state.sequence < next.sequence ∧
      state.acceptedReleaseSequence ≤ next.acceptedReleaseSequence := by
  cases transition with
  | stagePending pending attempts generationRoot stateRoot =>
    obtain ⟨-, hsequence, hnext⟩ := stagePending_eq_ok_iff.mp h
    refine ⟨lt_nextSequence hsequence, ?_⟩
    rw [hnext]
    exact UInt64.le_refl _
  | consumePendingAttempt =>
    obtain ⟨-, -, hsequence, hnext⟩ := consumePendingAttempt_eq_ok_iff.mp h
    refine ⟨lt_nextSequence hsequence, ?_⟩
    rw [hnext]
    exact UInt64.le_refl _
  | promotePending running releaseSequence =>
    obtain ⟨-, hrelease, hsequence, hnext⟩ := promotePending_eq_ok_iff.mp h
    refine ⟨lt_nextSequence hsequence, ?_⟩
    rw [hnext]
    exact UInt64.le_of_lt hrelease
  | rollbackPending =>
    rcases rollbackPending_eq_ok_iff.mp h with ⟨-, heq⟩ | ⟨-, hsequence, hnext⟩
    · exact absurd heq hne
    · refine ⟨lt_nextSequence hsequence, ?_⟩
      rw [hnext]
      exact UInt64.le_refl _

/-- Only staging it makes the all-zero identity pending. -/
theorem Transition.apply_pending
    (h : transition.apply state = .ok next) (hrepresentable : transition.Representable)
    (hpending : state.pending ≠ some (zeros 32)) : next.pending ≠ some (zeros 32) := by
  cases transition with
  | stagePending pending attempts generationRoot stateRoot =>
    obtain ⟨-, -, hnext⟩ := stagePending_eq_ok_iff.mp h
    rw [hnext]
    intro hzero
    exact hrepresentable (Option.some.inj hzero)
  | consumePendingAttempt =>
    obtain ⟨-, -, -, hnext⟩ := consumePendingAttempt_eq_ok_iff.mp h
    rw [hnext]
    exact hpending
  | promotePending running releaseSequence =>
    obtain ⟨-, -, -, hnext⟩ := promotePending_eq_ok_iff.mp h
    rw [hnext]
    nofun
  | rollbackPending =>
    rcases rollbackPending_eq_ok_iff.mp h with ⟨-, rfl⟩ | ⟨-, -, hnext⟩
    · exact hpending
    · rw [hnext]
      nofun

end Transitions

section Histories

variable {sha256 : List UInt8 → Digest} {write : Write} {history : History} {commit : Commit sha256}

/-- Everything a planned write is: the transition of the live state, aimed at the
slot that is not live. -/
theorem plannedWrite_eq_some_iff {slots : Slots} :
    plannedWrite sha256 slots transition = some write ↔
      ∃ selected, selectBootstate sha256 slots.a slots.b = .ok selected ∧
        transition.apply selected.state = .ok write.state ∧ write.state ≠ selected.state ∧
        encode sha256 write.state = .ok write.bytes ∧ write.slot = selected.slot.other := by
  rcases write with ⟨slot, state, bytes⟩
  simp only [plannedWrite, bind_eq_bind, bind_eq_some_iff, toOption_eq_some_iff]
  constructor
  · rintro ⟨selected, hselected, next, hnext, hwrite⟩
    split_ifs at hwrite with hsame
    simp only [bind_eq_some_iff, toOption_eq_some_iff] at hwrite
    obtain ⟨encoded, hencoded, heq⟩ := hwrite
    obtain ⟨rfl, rfl, rfl⟩ : selected.slot.other = slot ∧ next = state ∧ encoded = bytes := by
      simpa using heq
    exact ⟨selected, hselected, hnext, hsame, hencoded, rfl⟩
  · rintro ⟨selected, hselected, hnext, hne, hencoded, rfl⟩
    refine ⟨selected, hselected, state, hnext, ?_⟩
    rw [if_neg hne, bind_eq_some_iff]
    exact ⟨bytes, toOption_eq_some_iff.mpr hencoded, rfl⟩

/-- The slots select exactly the last state that was completely written. -/
def History.Durable (sha256 : List UInt8 → Digest) (history : History) : Prop :=
  ∃ selected, selectBootstate sha256 history.slots.a history.slots.b = .ok selected ∧
    selected.state = history.written

theorem History.step_of_plannedWrite
    (hplan : plannedWrite sha256 history.slots commit.transition = some write) :
    history.step sha256 commit = history.land write commit.fate := by
  unfold step
  rw [hplan]

theorem History.step_of_no_write
    (hplan : plannedWrite sha256 history.slots commit.transition = none) :
    history.step sha256 commit = history := by
  unfold step
  rw [hplan]

/-- The write goes to the slot that is not live, and the slots select what was last written
completely. -/
theorem History.step_durable (h : history.Durable sha256) (hcommit : history.Representable commit) :
    (history.step sha256 commit).Durable sha256 := by
  rcases hplan : plannedWrite sha256 history.slots commit.transition with _ | write
  · rw [step_of_no_write hplan]
    exact h
  obtain ⟨selected, hselected, hwritten⟩ := h
  obtain ⟨live, hlive, happly, hne, hencode, hslot⟩ :=
    plannedWrite_eq_some_iff.mp hplan
  obtain rfl : live = selected := by simpa [hlive] using hselected
  rcases hfate : commit.fate with _ | _ | ⟨remains, hrejected⟩
  · obtain ⟨-, -, hpending⟩ := (decode_eq_ok_iff _ _ _).mp (decode_selected hlive)
    obtain ⟨hvalid, himage⟩ := (encode_eq_ok_iff _).mp hencode
    have hdecode : decode sha256 write.bytes = .ok write.state := by
      rw [← himage]
      exact decode_image sha256 hvalid
        (Transition.apply_pending happly (hcommit (by rw [hplan]; rfl) hfate) hpending)
    rw [step_of_plannedWrite hplan, hfate, land, hslot]
    refine ⟨⟨live.slot.other, write.state⟩, ?_, rfl⟩
    rw [select_eq_ok_iff]
    refine ⟨by simpa using hdecode, fun state hstate => .inl ?_⟩
    rw [Slot.other_other, Slots.get_set_other, decode_selected hlive] at hstate
    obtain rfl : live.state = state := by simpa using hstate
    exact (Transition.apply_advances happly hne).1
  · rw [step_of_plannedWrite hplan, hfate]
    exact ⟨live, hlive, hwritten⟩
  · rw [step_of_plannedWrite hplan, hfate, land, hslot]
    exact ⟨live,
      select_set_older hlive fun state hstate => absurd hstate (hrejected state), hwritten⟩

theorem History.step_written (h : history.Durable sha256) (commit : Commit sha256) :
    (∀ write, plannedWrite sha256 history.slots commit.transition = some write →
      commit.fate = .completes → (history.step sha256 commit).written = write.state ∧
        history.written.sequence < write.state.sequence) ∧
    history.written.acceptedReleaseSequence ≤
      (history.step sha256 commit).written.acceptedReleaseSequence := by
  rcases hplan : plannedWrite sha256 history.slots commit.transition with _ | write
  · rw [step_of_no_write hplan]
    exact ⟨nofun, UInt64.le_refl _⟩
  obtain ⟨selected, hselected, hwritten⟩ := h
  obtain ⟨live, hlive, happly, hne, -, -⟩ := plannedWrite_eq_some_iff.mp hplan
  obtain rfl : live = selected := by simpa [hlive] using hselected
  obtain ⟨hsequence, haccepted⟩ := Transition.apply_advances happly hne
  rw [hwritten] at hsequence haccepted
  rcases hfate : commit.fate with _ | _ | ⟨remains, hrejected⟩
  · rw [step_of_plannedWrite hplan, hfate]
    refine ⟨?_, haccepted⟩
    rintro _ ⟨rfl⟩ -
    exact ⟨rfl, hsequence⟩
  · rw [step_of_plannedWrite hplan, hfate]
    exact ⟨nofun, UInt64.le_refl _⟩
  · rw [step_of_plannedWrite hplan, hfate]
    exact ⟨nofun, UInt64.le_refl _⟩

end Histories

/-- Over every history of commits from slots that select a state, in which no write
that completes stages the all-zero identity, the slots select exactly the last
completely written state. The next completed write is selected after it, with a
larger sequence, and the accepted release never goes back. -/
theorem history_crashSafe (sha256 : List UInt8 → Digest) (start : Slots)
    (live : SelectedBootState) (hstart : selectBootstate sha256 start.a start.b = .ok live)
    (commits : List (Commit sha256))
    (hcommits : Permitted (History.step sha256) History.Representable ⟨start, live.state⟩ commits) :
    let history := run (History.step sha256) ⟨start, live.state⟩ commits
    ∃ selected, selectBootstate sha256 history.slots.a history.slots.b = .ok selected ∧
      selected.state = history.written ∧
      ∀ commit : Commit sha256, history.Representable commit →
        let after := history.step sha256 commit
        ∃ next, selectBootstate sha256 after.slots.a after.slots.b = .ok next ∧
          next.state = after.written ∧
          (∀ write, plannedWrite sha256 history.slots commit.transition = some write →
            commit.fate = .completes →
              next.state = write.state ∧ selected.state.sequence < next.state.sequence) ∧
          selected.state.acceptedReleaseSequence ≤ next.state.acceptedReleaseSequence := by
  intro history
  have hbegin : History.Durable sha256 ⟨start, live.state⟩ := ⟨live, hstart, rfl⟩
  have hdurable :=
    run_invariant_permitted (History.step sha256) (fun history => history.Durable sha256)
      History.Representable (fun _ _ hdurable hcommit => History.step_durable hdurable hcommit) _
      commits hbegin hcommits
  obtain ⟨selected, hselected, hwritten⟩ := id hdurable
  refine ⟨selected, hselected, hwritten, ?_⟩
  intro commit hcommit after
  obtain ⟨next, hnext, hnextWritten⟩ := History.step_durable hdurable hcommit
  obtain ⟨hwrite, haccepted⟩ := History.step_written hdurable commit
  refine ⟨next, hnext, hnextWritten, ?_, ?_⟩
  · intro write hplan hfate
    obtain ⟨hstate, hsequence⟩ := hwrite write hplan hfate
    have hnextState := hnextWritten.trans hstate
    rw [hnextState, hwritten]
    exact ⟨rfl, hsequence⟩
  · rw [hwritten, hnextWritten]
    exact haccepted

/-- A settled machine: no generation is staged. -/
def settledState : BootState :=
  { zeroPendingState with pending := none, remainingAttempts := 0 }

def settledSlots (sha256 : List UInt8 → Digest) : Slots :=
  ⟨image sha256 settledState, zeros slotBytes⟩

variable (sha256 : List UInt8 → Digest) (state : BootState)

theorem zeros_rejected : decode sha256 (zeros slotBytes) ≠ .ok state := by
  intro h
  have hmagic := ((decode_eq_ok_iff _ _ _).mp h).1.magic
  exact absurd hmagic (by decide)

theorem settledSlots_select :
    selectBootstate sha256 (settledSlots sha256).a (settledSlots sha256).b =
      .ok ⟨.a, settledState⟩ := by
  rw [select_eq_ok_iff]
  exact ⟨decode_image sha256 (by decide) (by decide),
    fun state hstate => absurd hstate (zeros_rejected sha256 state)⟩

/-- A stage of the all-zero identity that is refused, for it brings no attempts, one that
completes, and a consumed attempt whose write is cut short. -/
def stageThenTear (sha256 : List UInt8 → Digest) : List (Commit sha256) :=
  [⟨.stagePending (zeros 32) 0 (Vector.replicate 32 3) (zeros 32), .completes⟩,
    ⟨.stagePending (Vector.replicate 32 2) 1 (Vector.replicate 32 3) (zeros 32), .completes⟩,
    ⟨.consumePendingAttempt, .torn (zeros slotBytes) (zeros_rejected sha256)⟩]

theorem history_crashSafe_torn :
    let history := run (History.step fun _ => zeros 32)
      ⟨settledSlots fun _ => zeros 32, settledState⟩ (stageThenTear fun _ => zeros 32)
    ∃ selected, selectBootstate (fun _ => zeros 32) history.slots.a history.slots.b =
      .ok selected ∧ selected.state = history.written := by
  obtain ⟨selected, hselected, hwritten, -⟩ := history_crashSafe (fun _ => zeros 32)
    (settledSlots _) ⟨.a, settledState⟩ (settledSlots_select _) (stageThenTear _) (by
      refine ⟨fun hplan _ => ?_, fun _ _ => ?_, fun _ _ => trivial, trivial⟩
      · obtain ⟨write, hwrite⟩ := isSome_iff_exists.mp hplan
        obtain ⟨live, -, happly, -⟩ := plannedWrite_eq_some_iff.mp hwrite
        exact absurd rfl (stagePending_eq_ok_iff.mp happly).1
      · change (Vector.replicate 32 2 : Digest) ≠ zeros 32
        decide)
  dsimp only at hselected hwritten
  exact ⟨selected, hselected, hwritten⟩

/-- The settled machine with the all-zero identity staged for one attempt. -/
def zeroStagedState : BootState :=
  { zeroPendingState with sequence := 2 }

def zeroStage (sha256 : List UInt8 → Digest) : Commit sha256 :=
  ⟨.stagePending (zeros 32) 1 (Vector.replicate 32 3) (zeros 32), .completes⟩

theorem zeroStage_plannedWrite :
    plannedWrite sha256 (settledSlots sha256) (zeroStage sha256).transition =
      some ⟨.b, zeroStagedState, image sha256 zeroStagedState⟩ := by
  have happly : Transition.apply (.stagePending (zeros 32) 1 (Vector.replicate 32 3) (zeros 32))
      settledState = .ok zeroStagedState := by decide
  have hne : zeroStagedState ≠ settledState := by decide
  have hvalid : validate zeroStagedState = .ok () := by decide
  rw [plannedWrite_eq_some_iff]
  exact ⟨⟨.a, settledState⟩, settledSlots_select sha256, happly, hne,
    (encode_eq_ok_iff _).mpr ⟨hvalid, rfl⟩, rfl⟩

theorem zeroStagedState_rejected : decode sha256 (image sha256 zeroStagedState) ≠ .ok state :=
  image_zeroPending_rejected sha256 rfl (by decide) state

theorem zeroStage_step :
    let history := step sha256 ⟨settledSlots sha256, settledState⟩ (zeroStage sha256)
    history.written = zeroStagedState ∧
      selectBootstate sha256 history.slots.a history.slots.b = .ok ⟨.a, settledState⟩ := by
  have hselect := select_set_older (settledSlots_select sha256) fun state hstate =>
    absurd hstate (zeroStagedState_rejected sha256 state)
  have hstep : step sha256 ⟨settledSlots sha256, settledState⟩ (zeroStage sha256) = _ :=
    step_of_plannedWrite (zeroStage_plannedWrite sha256)
  rw [hstep]
  exact ⟨rfl, hselect⟩

theorem zeroStage_selects_older :
    let history := run (History.step fun _ => zeros 32)
      ⟨settledSlots fun _ => zeros 32, settledState⟩ [zeroStage fun _ => zeros 32]
    history.written = zeroStagedState ∧
      selectBootstate (fun _ => zeros 32) history.slots.a history.slots.b =
        .ok ⟨.a, settledState⟩ := by
  rw [run_cons, run_nil]
  exact zeroStage_step _

end SlimeOs.BootSlots
