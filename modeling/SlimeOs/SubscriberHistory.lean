import Mathlib.Data.Nat.ModEq
import SlimeOs.CheckedWord
import SlimeOs.FallibleCall

/-!
The bounded history of one stream subscriber. A ring of the declared depth keeps the last
samples, and what it evicts or is told was abandoned is counted until it is reported.
-/

namespace SlimeOs.SubscriberHistory

open CheckedWord FallibleCall Nat Prod

def maxHistory : Nat := 64

structure HistoryEntry where
  sequence : Nat
  publisher : Nat
  slot : Nat
  inline : Bool
deriving DecidableEq

structure StreamHistory where
  entries : Vector (Option HistoryEntry) maxHistory
  head : Nat
  len : Nat
  depth : Nat
  lost : Nat
  oldestLost : Nat
  depth_le : depth ≤ maxHistory
  head_lt : head < depth

namespace StreamHistory

def new (depth : Nat) : Option StreamHistory :=
  if h : depth = 0 ∨ maxHistory < depth then none
  else
    some
      { entries := Vector.replicate maxHistory none
        head := 0
        len := 0
        depth := depth
        lost := 0
        oldestLost := 0
        depth_le := by omega
        head_lt := by omega }

variable (history : StreamHistory)

theorem depth_pos : 0 < history.depth := zero_lt_of_lt history.head_lt

/-- The cell of a position, counted around the declared depth. -/
def cell (position : Nat) : Fin maxHistory :=
  ⟨position % history.depth, lt_of_lt_of_le (Nat.mod_lt _ history.depth_pos) history.depth_le⟩

def takeLoss : Option (Nat × Nat) × StreamHistory :=
  if history.lost = 0 then (none, history)
  else
    (some (history.lost, history.oldestLost),
      { history with
        lost := 0
        oldestLost := 0 })

/-- A report carried forward from another history. -/
def inheritLoss : Option (Nat × Nat) → StreamHistory
  | none => history
  | some (count, oldest) =>
    { history with
      oldestLost :=
        if history.lost = 0 ∨ oldest < history.oldestLost then oldest else history.oldestLost
      lost := saturatingAddNat history.lost count }

def abandonLoss (abandoned : Nat) : StreamHistory :=
  if abandoned = 0 then history
  else
    { history with
      oldestLost :=
        if history.lost = 0 then
          if history.len = 0 then 0
          else (history.entries.get (history.cell (history.head + history.len - 1))).elim 0
            HistoryEntry.sequence
        else history.oldestLost
      lost := saturatingAddNat history.lost abandoned }

def noteLoss (abandoned : Nat) (inherited : Option (Nat × Nat)) : StreamHistory :=
  (history.inheritLoss inherited).abandonLoss abandoned

def pop : Option HistoryEntry × StreamHistory :=
  if history.len = 0 then (none, history)
  else
    let head : Fin maxHistory := ⟨history.head, lt_of_lt_of_le history.head_lt history.depth_le⟩
    (history.entries.get head,
      { history with
        entries := history.entries.set head none
        head := (history.head + 1) % history.depth
        len := history.len - 1
        head_lt := Nat.mod_lt _ history.depth_pos })

/-- An eviction is counted where it happens. -/
def countLoss : Option HistoryEntry → StreamHistory
  | none => history
  | some evicted =>
    { history with
      oldestLost := if history.lost = 0 then evicted.sequence else history.oldestLost
      lost := saturatingAddNat history.lost 1 }

def append (entry : HistoryEntry) : StreamHistory :=
  { history with
    entries := history.entries.set (history.cell (history.head + history.len)) (some entry)
    len := history.len + 1 }

def push (entry : HistoryEntry) : Option HistoryEntry × StreamHistory :=
  let (evicted, history) := if history.len = history.depth then history.pop else (none, history)
  (evicted, (history.countLoss evicted).append entry)

def entryAt (offset : Nat) : Option HistoryEntry :=
  if history.len ≤ offset then none else history.entries.get (history.cell (history.head + offset))

def peek : Option HistoryEntry := history.entryAt 0

end StreamHistory

open StreamHistory List

/-- The ring has its declared depth and holds the queue from its head on. -/
structure Holds (depth : Nat) (history : StreamHistory) (queue : List HistoryEntry) : Prop where
  len : history.len = queue.length
  le : history.len ≤ depth
  depth : history.depth = depth
  entry : ∀ offset, history.entryAt offset = queue[offset]?

section Ring

variable {depth : Nat} {history : StreamHistory} {queue : List HistoryEntry}

theorem cell_injective {i j : Nat} (hi : i < history.depth) (hj : j < history.depth)
    (h : history.cell (history.head + i) = history.cell (history.head + j)) : i = j := by
  have hmod := congrArg Fin.val h
  exact (Nat.ModEq.add_left_cancel' _ hmod).eq_of_lt_of_lt hi hj

theorem cell_head : (history.cell history.head).val = history.head :=
  mod_eq_of_lt history.head_lt

variable (h : Holds depth history queue)
include h

theorem Holds.popped : history.pop.1 = queue.head? ∧ Holds depth history.pop.2 queue.tail := by
  have hdepth := h.depth
  have hlen := h.len
  have hle := h.le
  unfold pop
  by_cases hempty : history.len = 0
  · obtain rfl := length_eq_zero_iff.mp (hlen ▸ hempty)
    rw [if_pos hempty]
    exact ⟨rfl, h⟩
  rw [if_neg hempty]
  have hcell : history.cell history.head =
      ⟨history.head, lt_of_lt_of_le history.head_lt history.depth_le⟩ := Fin.ext cell_head
  refine ⟨?_, by rw [length_tail, ← hlen], (sub_le _ _).trans hle, hdepth, ?_⟩
  · have hfirst := h.entry 0
    unfold entryAt at hfirst
    rw [if_neg (by omega), add_zero, hcell] at hfirst
    rw [head?_eq_getElem?]
    exact hfirst
  intro offset
  rw [getElem?_tail, ← h.entry]
  unfold entryAt
  by_cases hoffset : history.len ≤ offset + 1
  · rw [if_pos hoffset, if_pos (show history.len - 1 ≤ offset by omega)]
  rw [if_neg hoffset, if_neg (show ¬ history.len - 1 ≤ offset by omega)]
  have hnext : ((history.head + 1) % history.depth + offset) % history.depth =
      (history.head + (offset + 1)) % history.depth := by
    rw [mod_add_mod, add_assoc, add_comm 1]
  have hne : history.head ≠ (history.head + (offset + 1)) % history.depth := by
    intro heq
    have hsame : history.cell (history.head + 0) = history.cell (history.head + (offset + 1)) :=
      Fin.ext (cell_head.trans heq)
    exact absurd (cell_injective history.depth_pos (by omega) hsame) (by omega)
  simp only [cell, hnext]
  exact Vector.getElem_set_ne _ _ hne

theorem Holds.appended (hroom : history.len < depth) (entry : HistoryEntry) :
    Holds depth (history.append entry) (queue ++ [entry]) := by
  have hdepth := h.depth
  have hlen := h.len
  refine ⟨by rw [length_append, ← hlen]; rfl, hroom, hdepth, ?_⟩
  intro offset
  rcases Nat.lt_trichotomy offset history.len with hlt | rfl | hgt
  · rw [getElem?_append_left (hlen ▸ hlt), ← h.entry]
    unfold entryAt append
    rw [if_neg (by simp only; omega), if_neg (by omega)]
    have hne : (history.cell (history.head + history.len)).val ≠
        (history.cell (history.head + offset)).val := by
      intro heq
      exact absurd (cell_injective (by omega) (by omega) (Fin.ext heq)) (by omega)
    exact Vector.getElem_set_ne (Fin.isLt _) (Fin.isLt _) hne
  · rw [hlen, getElem?_concat_length, ← hlen]
    unfold entryAt append
    rw [if_neg (by simp only; omega)]
    exact Vector.getElem_set_self (Fin.isLt _)
  · rw [getElem?_eq_none (by simp; omega)]
    exact if_pos hgt

theorem Holds.counted (evicted : Option HistoryEntry) :
    Holds depth (history.countLoss evicted) queue := by
  cases evicted with
  | none => exact h
  | some entry => exact ⟨h.len, h.le, h.depth, h.entry⟩

theorem Holds.noted (abandoned : Nat) (inherited : Option (Nat × Nat)) :
    Holds depth (history.noteLoss abandoned inherited) queue := by
  have hinherit : Holds depth (history.inheritLoss inherited) queue := by
    cases inherited with
    | none => exact h
    | some report => exact ⟨h.len, h.le, h.depth, h.entry⟩
  unfold noteLoss abandonLoss
  split
  · exact hinherit
  · exact ⟨hinherit.len, hinherit.le, hinherit.depth, hinherit.entry⟩

theorem Holds.taken : Holds depth history.takeLoss.2 queue := by
  unfold takeLoss
  split
  · exact h
  · exact ⟨h.len, h.le, h.depth, h.entry⟩

end Ring

inductive Operation where
  | push (entry : HistoryEntry)
  | pop
  | peek
  | entryAt (offset : Nat)
  | takeLoss
  | noteLoss (abandoned : Nat) (inherited : Option (Nat × Nat))

/-- What the call answers about the queued samples, and the history after it. -/
def StreamHistory.perform (history : StreamHistory) :
    Operation → Option HistoryEntry × StreamHistory
  | .push entry => history.push entry
  | .pop => history.pop
  | .peek => (history.peek, history)
  | .entryAt offset => (history.entryAt offset, history)
  | .takeLoss => (none, history.takeLoss.2)
  | .noteLoss abandoned inherited => (none, history.noteLoss abandoned inherited)

/-- The queue a history stands for: at its depth a sample takes the place of the oldest. -/
def keepLast (depth : Nat) (queue : List HistoryEntry) :
    Operation → Option HistoryEntry × List HistoryEntry
  | .push entry =>
    if queue.length = depth then (queue.head?, queue.tail ++ [entry]) else (none, queue ++ [entry])
  | .pop => (queue.head?, queue.tail)
  | .peek => (queue.head?, queue)
  | .entryAt offset => (queue[offset]?, queue)
  | .takeLoss => (none, queue)
  | .noteLoss _ _ => (none, queue)

def evictedBy (depth : Nat) (queue : List HistoryEntry) : Operation → List HistoryEntry
  | .push _ => if queue.length = depth then queue.head?.toList else []
  | _ => []

/-- A history in use, with the queue it stands for, the losses so far, how many of them were
reported, what was evicted since the last report, and the sequences heard of. -/
structure Session where
  history : StreamHistory
  queue : List HistoryEntry
  lost : Nat
  reported : Nat
  evicted : List HistoryEntry
  seen : List Nat

def Session.start (history : StreamHistory) : Session := ⟨history, [], 0, 0, [], []⟩

def Session.step (depth : Nat) (session : Session) (operation : Operation) : Session where
  history := (session.history.perform operation).2
  queue := (keepLast depth session.queue operation).2
  lost := session.lost + (evictedBy depth session.queue operation).length +
    match operation with
    | .noteLoss abandoned inherited => abandoned + inherited.elim 0 Prod.fst
    | _ => 0
  reported := session.reported +
    match operation with
    | .takeLoss => session.history.takeLoss.1.elim 0 Prod.fst
    | _ => 0
  evicted :=
    match operation with
    | .takeLoss => []
    | _ => session.evicted ++ evictedBy depth session.queue operation
  seen :=
    match operation with
    | .push entry => entry.sequence :: session.seen
    | .noteLoss _ (some (_, oldest)) => oldest :: session.seen
    | _ => session.seen

variable {operation : Operation} {abandoned depth : Nat}

section Runs

variable {depth : Nat} {session : Session} {history : StreamHistory}

theorem Holds.pushed (h : Holds depth session.history session.queue) (entry : HistoryEntry) :
    ∃ (evicted : Option HistoryEntry) (before : StreamHistory),
      session.history.push entry = (evicted, (before.countLoss evicted).append entry) ∧
      evicted.toList = evictedBy depth session.queue (.push entry) ∧
      (keepLast depth session.queue (.push entry)).1 = evicted ∧
      Holds depth ((before.countLoss evicted).append entry)
        (keepLast depth session.queue (.push entry)).2 ∧
      before.lost = session.history.lost ∧ before.oldestLost = session.history.oldestLost := by
  have hdepth := h.depth
  have hlen := h.len
  have hle := h.le
  unfold push
  by_cases hfull : session.history.len = session.history.depth
  · obtain ⟨hevicted, hholds⟩ := h.popped
    have hroom : session.history.pop.2.len < depth := by
      have hpos := session.history.depth_pos
      unfold pop
      rw [if_neg (by omega)]
      simp only
      omega
    refine ⟨session.history.pop.1, session.history.pop.2, by rw [if_pos hfull], ?_⟩
    simp only [keepLast, evictedBy, if_pos (show session.queue.length = depth by omega)]
    refine ⟨by rw [hevicted], hevicted.symm, ?_, ?_⟩
    · refine (hholds.counted _).appended ?_ entry
      cases session.history.pop.1 <;> exact hroom
    · unfold pop
      split <;> exact ⟨rfl, rfl⟩
  · refine ⟨none, session.history, by rw [if_neg hfull], ?_⟩
    simp only [keepLast, evictedBy, if_neg (show ¬ session.queue.length = depth by omega)]
    exact ⟨rfl, trivial, h.appended (by omega) entry, trivial, trivial⟩

theorem Holds.perform (h : Holds depth session.history session.queue) (operation : Operation) :
    (session.history.perform operation).1 = (keepLast depth session.queue operation).1 ∧
      Holds depth (session.step depth operation).history (session.step depth operation).queue := by
  cases operation with
  | push entry =>
    obtain ⟨evicted, before, hpush, -, hanswer, hholds, -⟩ := h.pushed entry
    refine ⟨by rw [hanswer]; exact congrArg fst hpush, ?_⟩
    change Holds depth (session.history.push entry).2 _
    rw [hpush]
    exact hholds
  | pop => exact h.popped
  | peek =>
    refine ⟨?_, h⟩
    change session.history.entryAt 0 = session.queue.head?
    rw [h.entry, head?_eq_getElem?]
  | entryAt offset => exact ⟨h.entry offset, h⟩
  | takeLoss => exact ⟨rfl, h.taken⟩
  | noteLoss abandoned inherited => exact ⟨rfl, h.noted abandoned inherited⟩

theorem holds_new (hnew : new depth = some history) :
    Holds depth history [] ∧ history.lost = 0 := by
  unfold new at hnew
  split at hnew
  · cases hnew
  · obtain rfl := Option.some.inj hnew
    exact ⟨⟨rfl, zero_le _, rfl, fun _ => rfl⟩, rfl⟩

theorem saturatingAddNat_of_lt {a b : Nat} (h : saturatingAddNat a b < 2 ^ 64 - 1) :
    saturatingAddNat a b = a + b := by
  unfold saturatingAddNat at *
  omega

theorem noteLoss_lost {inherited : Option (Nat × Nat)}
    (hlost : (history.noteLoss abandoned inherited).lost < 2 ^ 64 - 1) :
    (history.noteLoss abandoned inherited).lost =
      history.lost + (abandoned + inherited.elim 0 fst) := by
  have habandon : (history.noteLoss abandoned inherited).lost =
      saturatingAddNat (history.inheritLoss inherited).lost abandoned ∨
      abandoned = 0 ∧ (history.noteLoss abandoned inherited).lost =
        (history.inheritLoss inherited).lost := by
    unfold noteLoss abandonLoss
    split
    next hzero => exact .inr ⟨hzero, rfl⟩
    · exact .inl rfl
  have hinherit : (history.inheritLoss inherited).lost =
      saturatingAddNat history.lost (inherited.elim 0 fst) ∨
      inherited.elim 0 fst = 0 ∧ (history.inheritLoss inherited).lost = history.lost := by
    rcases inherited with _ | ⟨-, -⟩
    · exact .inr ⟨rfl, rfl⟩
    · exact .inl rfl
  unfold saturatingAddNat at habandon hinherit
  omega

/-- What was reported and what is still to be reported make up the losses. -/
theorem counted_step (h : Holds depth session.history session.queue)
    (hcounted : session.reported + session.history.lost = session.lost)
    (hlost : (session.step depth operation).history.lost < 2 ^ 64 - 1) :
    (session.step depth operation).reported + (session.step depth operation).history.lost =
      (session.step depth operation).lost := by
  cases operation with
  | push entry =>
    obtain ⟨evicted, before, hpush, hevicted, -, -, hbefore, -⟩ := h.pushed entry
    change (session.history.push entry).2.lost < 2 ^ 64 - 1 at hlost
    change session.reported + 0 + (session.history.push entry).2.lost =
      session.lost + (evictedBy depth session.queue (.push entry)).length + 0
    rw [hpush] at hlost ⊢
    rw [← hevicted, ← hcounted, ← hbefore]
    cases evicted with
    | none => rfl
    | some oldest =>
      have hone : ((before.countLoss (some oldest)).append entry).lost = before.lost + 1 :=
        saturatingAddNat_of_lt hlost
      simp only [Option.toList_some, length_singleton]
      omega
  | pop =>
    change session.reported + 0 + session.history.pop.2.lost = session.lost + 0 + 0
    unfold pop
    split <;> exact hcounted
  | peek => exact hcounted
  | entryAt offset => exact hcounted
  | takeLoss =>
    change session.reported + session.history.takeLoss.1.elim 0 fst +
      session.history.takeLoss.2.lost = session.lost + 0 + 0
    unfold takeLoss
    split <;> exact hcounted
  | noteLoss abandoned inherited =>
    change session.reported + 0 + (session.history.noteLoss abandoned inherited).lost =
      session.lost + 0 + (abandoned + inherited.elim 0 fst)
    rw [noteLoss_lost hlost]
    omega

/-- A history is a queue of its depth: it answers as the queue does, and while its counter is
below the ceiling every loss is reported once or still pending. -/
theorem history_keeps_last (hdepth : 1 ≤ depth ∧ depth ≤ maxHistory) (operations : List Operation) :
    ∃ history, new depth = some history ∧
      let session := run (Session.step depth) (Session.start history) operations
      (List.range session.history.len).map session.history.entryAt = session.queue.map some ∧
        session.queue.length ≤ depth ∧
        (∀ operation, (session.history.perform operation).1 =
          (keepLast depth session.queue operation).1) ∧
        (Permitted (Session.step depth)
            (fun session operation => (session.step depth operation).history.lost < 2 ^ 64 - 1)
            (Session.start history) operations →
          session.reported + session.history.lost = session.lost) := by
  obtain ⟨history, hnew⟩ : ∃ history, new depth = some history := ⟨_, dif_neg (by omega)⟩
  obtain ⟨hstart, hlost⟩ := holds_new hnew
  have h := run_invariant (Session.step depth)
    (fun session => Holds depth session.history session.queue)
    (fun session operation h => (h.perform operation).2) (Session.start history) operations hstart
  refine ⟨history, hnew, ?_, ?_, fun operation => (h.perform operation).1, ?_⟩
  · apply ext_getElem (by rw [length_map, length_map, length_range, h.len])
    intro offset _ hoffset
    rw [length_map] at hoffset
    rw [getElem_map, getElem_map, getElem_range, h.entry, getElem?_eq_getElem hoffset]
  · rw [← h.len]
    exact h.le
  · intro hbelow
    refine (run_invariant_permitted (Session.step depth) (fun session =>
      Holds depth session.history session.queue ∧
        session.reported + session.history.lost = session.lost) _ ?_ _ operations ⟨hstart, ?_⟩
      hbelow).2
    · intro session operation h hlost
      exact ⟨(h.1.perform operation).2, counted_step h.1 h.2 hlost⟩
    · change 0 + history.lost = 0
      rw [hlost]

end Runs

/-- A ring of two forgets the older sample and reports it as lost. -/
theorem history_keeps_last_two :
    ∃ history, new 2 = some history ∧
      let session := run (Session.step 2) (Session.start history)
        [.push ⟨1, 0, 1, true⟩, .push ⟨2, 0, 2, true⟩, .push ⟨3, 0, 3, true⟩, .takeLoss]
      session.queue = [⟨2, 0, 2, true⟩, ⟨3, 0, 3, true⟩] ∧
        (List.range session.history.len).map session.history.entryAt = session.queue.map some ∧
        session.reported + session.history.lost = 1 := by
  obtain ⟨history, hnew, hqueue, -, -, hcount⟩ := @history_keeps_last 2 (by decide)
    [.push ⟨1, 0, 1, true⟩, .push ⟨2, 0, 2, true⟩, .push ⟨3, 0, 3, true⟩, .takeLoss]
  obtain rfl := Option.some.inj hnew
  exact ⟨_, rfl, rfl, hqueue, hcount ⟨by decide, by decide, by decide, by decide, trivial⟩⟩

/-- Sequences grow, and a report carried over is of a sample lost before any that is queued. -/
def Genuine (session : Session) : Operation → Prop
  | .push entry => ∀ sequence ∈ session.seen, sequence < entry.sequence
  | .noteLoss _ (some (_, oldest)) => ∀ entry ∈ session.queue, oldest ≤ entry.sequence
  | _ => True

/-- Samples are abandoned only where a loss is already on record or nothing older than the
newest sample is queued. -/
def Settled (session : Session) : Operation → Prop
  | .noteLoss abandoned inherited =>
    abandoned = 0 ∨ (session.history.inheritLoss inherited).lost ≠ 0 ∨ session.queue.length ≤ 1
  | _ => True

/-- The samples abandoned are dated by the newest one queued, and an eviction of an older one
leaves that date. -/
theorem abandoned_samples_postdate_eviction :
    ∃ history, new 2 = some history ∧
      let operations := [.push ⟨7, 0, 7, true⟩, .push ⟨8, 0, 8, true⟩, .noteLoss 1 none,
        .push ⟨9, 0, 9, true⟩]
      let session := run (Session.step 2) (Session.start history) operations
      Permitted (Session.step 2) Genuine (Session.start history) operations ∧
        session.history.takeLoss.1 = some (2, 8) ∧ session.evicted = [⟨7, 0, 7, true⟩] :=
  ⟨_, rfl, ⟨nofun, show ∀ sequence ∈ [7], sequence < 8 by decide, trivial,
    show ∀ sequence ∈ [8, 7], sequence < 9 by decide, trivial⟩, by decide, rfl⟩

section Reports

/-- A pending report is dated before everything it covers and everything still to come. -/
structure Dated (history : StreamHistory) (evicted queue : List HistoryEntry) (seen : List Nat) :
    Prop where
  sorted : (evicted ++ queue).Pairwise fun first second => first.sequence < second.sequence
  heard : ∀ entry ∈ evicted ++ queue, entry.sequence ∈ seen
  settled : history.lost = 0 → evicted = []
  oldest : history.lost ≠ 0 → ∀ next, (∃ entry ∈ evicted ++ queue, entry.sequence = next) ∨
    (∀ sequence ∈ seen, sequence < next) → history.oldestLost ≤ next

variable {history history' : StreamHistory} {evicted queue : List HistoryEntry} {seen : List Nat}
  (h : Dated history evicted queue seen)
include h

theorem Dated.congr (hlost : history'.lost = history.lost)
    (holdest : history'.oldestLost = history.oldestLost) : Dated history' evicted queue seen := by
  refine ⟨h.sorted, h.heard, hlost ▸ h.settled, ?_⟩
  rw [hlost, holdest]
  exact h.oldest

theorem Dated.tail : Dated history evicted queue.tail seen := by
  have hsub := (tail_sublist queue).append_left evicted
  refine ⟨h.sorted.sublist hsub, fun entry hentry => h.heard entry (hsub.subset hentry), h.settled,
    fun hlost next hnext => h.oldest hlost next (hnext.imp_left ?_)⟩
  rintro ⟨entry, hentry, rfl⟩
  exact ⟨entry, hsub.subset hentry, rfl⟩

variable {entry : HistoryEntry}

theorem Dated.evict (hhead : queue.head? = some entry) :
    Dated (history.countLoss (some entry)) (evicted ++ [entry]) queue.tail seen := by
  have hqueue : evicted ++ [entry] ++ queue.tail = evicted ++ queue := by
    rw [append_assoc, singleton_append, cons_head?_tail hhead]
  refine ⟨hqueue ▸ h.sorted, hqueue ▸ h.heard, ?_, fun _ next hnext => ?_⟩
  · intro hlost
    change saturatingAddNat history.lost 1 = 0 at hlost
    unfold saturatingAddNat at hlost
    omega
  rw [hqueue] at hnext
  change ite _ _ _ ≤ next
  split
  next hlost =>
    have hsorted := h.sorted
    have hheard := h.heard
    rw [h.settled hlost, ← cons_head?_tail hhead] at hsorted hheard hnext
    rcases hnext with ⟨other, hother, rfl⟩ | hnext
    · rcases mem_cons.mp hother with rfl | hother
      · exact le_refl _
      · exact ((pairwise_cons.mp hsorted).1 other hother).le
    · exact (hnext _ (hheard entry mem_cons_self)).le
  next hlost => exact h.oldest hlost next hnext

theorem Dated.appended (hnext : ∀ sequence ∈ seen, sequence < entry.sequence) :
    Dated (history.append entry) evicted (queue ++ [entry]) (entry.sequence :: seen) := by
  have hmem {other : HistoryEntry} (hother : other ∈ evicted ++ (queue ++ [entry])) :
      other ∈ evicted ++ queue ∨ other = entry := by
    rwa [← append_assoc, mem_append, mem_singleton] at hother
  refine ⟨?_, ?_, h.settled, fun hlost next hahead => ?_⟩
  · rw [← append_assoc, pairwise_append]
    refine ⟨h.sorted, pairwise_singleton _ _, fun first hfirst last hlast => ?_⟩
    rw [mem_singleton.mp hlast]
    exact hnext _ (h.heard first hfirst)
  · intro other hother
    rcases hmem hother with hold | rfl
    · exact mem_cons_of_mem _ (h.heard other hold)
    · exact mem_cons_self
  · rcases hahead with ⟨other, hother, rfl⟩ | hahead
    · rcases hmem hother with hold | rfl
      · exact h.oldest hlost _ (.inl ⟨other, hold, rfl⟩)
      · exact h.oldest hlost _ (.inr hnext)
    · exact h.oldest hlost next (.inr fun sequence hsequence =>
        hahead sequence (mem_cons_of_mem _ hsequence))

theorem Dated.inherit {count oldest : Nat} (hgenuine : ∀ entry ∈ queue, oldest ≤ entry.sequence) :
    Dated (history.inheritLoss (some (count, oldest))) evicted queue (oldest :: seen) := by
  refine ⟨h.sorted, fun entry hentry => mem_cons_of_mem _ (h.heard entry hentry), ?_,
    fun _ next hnext => ?_⟩
  · intro hlost
    change saturatingAddNat history.lost count = 0 at hlost
    unfold saturatingAddNat at hlost
    exact h.settled (by omega)
  change ite _ _ _ ≤ next
  by_cases hlost : history.lost = 0
  · rw [if_pos (.inl hlost)]
    rw [h.settled hlost] at hnext
    rcases hnext with ⟨entry, hentry, rfl⟩ | hnext
    · exact hgenuine entry hentry
    · exact (hnext oldest mem_cons_self).le
  · have hle := h.oldest hlost next (hnext.imp_right fun hnext sequence hsequence =>
      hnext sequence (mem_cons_of_mem _ hsequence))
    split <;> omega

theorem Dated.abandon (hholds : Holds depth history queue)
    (hsettled : abandoned = 0 ∨ history.lost ≠ 0 ∨ queue.length ≤ 1) :
    Dated (history.abandonLoss abandoned) evicted queue seen := by
  unfold abandonLoss
  split
  · exact h
  next habandoned =>
  refine ⟨h.sorted, h.heard, ?_, fun _ next hnext => ?_⟩
  · intro hlost
    change saturatingAddNat history.lost abandoned = 0 at hlost
    unfold saturatingAddNat at hlost
    exact h.settled (by omega)
  by_cases hlost : history.lost = 0
  · rw [if_pos hlost]
    rw [h.settled hlost] at hnext
    rcases queue with _ | ⟨entry, _ | ⟨second, rest⟩⟩
    · rw [if_pos (show history.len = 0 from hholds.len)]
      exact zero_le _
    · have hentry := hholds.entry 0
      have hlen : history.len = 1 := hholds.len
      unfold entryAt at hentry
      rw [if_neg (by omega)] at hentry
      rw [hlen]
      change Option.elim (history.entries.get (history.cell (history.head + 0))) _ _ ≤ next
      rw [hentry]
      rcases hnext with ⟨other, hother, rfl⟩ | hnext
      · rw [mem_singleton.mp hother]
        exact le_refl _
      · exact (hnext _ (h.heard entry (mem_append_right _ mem_cons_self))).le
    · simp only [length_cons] at hsettled
      omega
  · rw [if_neg hlost]
    exact h.oldest hlost next hnext

end Reports

theorem dated_step {session : Session} (hholds : Holds depth session.history session.queue)
    (h : Dated session.history session.evicted session.queue session.seen)
    (hgenuine : Genuine session operation) (hsettled : Settled session operation) :
    Dated (session.step depth operation).history (session.step depth operation).evicted
      (session.step depth operation).queue (session.step depth operation).seen := by
  have hnone : session.evicted ++ [] = session.evicted := append_nil _
  cases operation with
  | push entry =>
    obtain ⟨evicted, before, hpush, hevicted, hanswer, -, hlost, holdest⟩ := hholds.pushed entry
    change Dated (session.history.push entry).2
      (session.evicted ++ evictedBy depth session.queue (.push entry))
      (keepLast depth session.queue (.push entry)).2 (entry.sequence :: session.seen)
    rw [hpush, ← hevicted]
    have hbefore := h.congr hlost holdest
    by_cases hfull : session.queue.length = depth
    · simp only [keepLast, if_pos hfull] at hanswer ⊢
      cases evicted with
      | none => exact hnone.symm ▸ hbefore.tail.appended hgenuine
      | some oldest => exact (hbefore.evict hanswer).appended hgenuine
    · simp only [keepLast, if_neg hfull] at hanswer ⊢
      subst hanswer
      exact hnone.symm ▸ hbefore.appended hgenuine
  | pop =>
    change Dated session.history.pop.2 (session.evicted ++ []) session.queue.tail session.seen
    rw [hnone]
    unfold pop
    split
    · exact h.tail
    · exact h.tail.congr rfl rfl
  | peek | entryAt =>
    change Dated session.history (session.evicted ++ []) session.queue session.seen
    rwa [hnone]
  | takeLoss =>
    have hcleared : session.history.takeLoss.2.lost = 0 := by
      unfold takeLoss
      split
      next hlost => exact hlost
      · rfl
    have hqueued {entry : HistoryEntry} (hentry : entry ∈ session.queue) :
        entry ∈ session.evicted ++ session.queue := mem_append_right _ hentry
    exact ⟨h.sorted.sublist (sublist_append_right _ _), fun entry hentry => h.heard entry
      (hqueued hentry), fun _ => rfl, fun hlost => absurd hcleared hlost⟩
  | noteLoss abandoned inherited =>
    change Dated ((session.history.inheritLoss inherited).abandonLoss abandoned)
      (session.evicted ++ []) session.queue _
    rw [hnone]
    rcases inherited with _ | ⟨count, oldest⟩
    · exact h.abandon hholds hsettled
    · exact (h.inherit hgenuine).abandon
        ⟨hholds.len, hholds.le, hholds.depth, hholds.entry⟩ hsettled

/-- Where no abandonment hides a queued sample, a report is dated before every eviction since the
report before it. -/
theorem loss_report_names_oldest {depth : Nat} {history : StreamHistory}
    (hnew : new depth = some history) (operations : List Operation)
    (hops : Permitted (Session.step depth)
      (fun session operation => Genuine session operation ∧ Settled session operation)
      (Session.start history) operations) (count oldest : Nat) :
    let session := run (Session.step depth) (Session.start history) operations
    session.history.takeLoss.1 = some (count, oldest) →
      ∀ entry ∈ session.evicted, oldest ≤ entry.sequence := by
  intro session hreport entry hentry
  have h := run_invariant_permitted (Session.step depth) (fun session =>
      Holds depth session.history session.queue ∧
        Dated session.history session.evicted session.queue session.seen) _
    (fun session operation h hallowed =>
      ⟨(h.1.perform operation).2, dated_step h.1 h.2 hallowed.1 hallowed.2⟩) (Session.start history)
    operations
    ⟨(holds_new hnew).1, Pairwise.nil, nofun, fun _ => rfl,
      fun hlost => absurd (holds_new hnew).2 hlost⟩
    hops
  unfold takeLoss at hreport
  split at hreport
  · cases hreport
  next hlost =>
    obtain ⟨-, rfl⟩ := Prod.mk.inj (Option.some.inj hreport)
    exact h.2.oldest hlost _ (.inl ⟨entry, mem_append_left _ hentry, rfl⟩)

theorem loss_report_names_oldest_inherited :
    ∃ history, new 1 = some history ∧
      let session := run (Session.step 1) (Session.start history)
        [.noteLoss 3 (some (2, 5)), .push ⟨7, 0, 7, true⟩, .push ⟨8, 0, 8, true⟩]
      session.history.takeLoss.1 = some (6, 5) ∧ session.evicted = [⟨7, 0, 7, true⟩] ∧
        ∀ entry ∈ session.evicted, 5 ≤ entry.sequence := by
  refine ⟨_, rfl, by decide, rfl, ?_⟩
  refine @loss_report_names_oldest 1 _ rfl
    [.noteLoss 3 (some (2, 5)), .push ⟨7, 0, 7, true⟩, .push ⟨8, 0, 8, true⟩]
    ⟨⟨nofun, ?_⟩, ⟨?_, trivial⟩, ⟨?_, trivial⟩, trivial⟩ 6 5 (by decide)
  · exact .inr (.inr (Nat.zero_le 1))
  · exact show ∀ sequence ∈ [5], sequence < 7 by decide
  · exact show ∀ sequence ∈ [7, 5], sequence < 8 by decide

end SlimeOs.SubscriberHistory
