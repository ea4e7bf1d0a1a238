import Mathlib.Data.List.Nodup

/-!
A first-in first-out queue of keys without duplicates, seen through its log.

Keys are queued in batches, dispatched from the front and withdrawn from
anywhere. A log that replays on such a queue dispatches each batch in order, and
a queued key leaves by exactly one dispatch unless it is withdrawn.
-/

namespace SlimeOs.ReadinessLog

open List

/-- One event of the queue. A batch names the keys it signalled and those of them it added. -/
inductive Event (κ : Type) where
  | queued (signalled added : List κ)
  | dispatched (key : κ)
  | withdrawn (key : κ)
deriving DecidableEq

variable {κ : Type} {queue : List κ} {key other : κ}

def Event.Queues (key : κ) : Event κ → Prop
  | .queued _ added => key ∈ added
  | .dispatched _ => False
  | .withdrawn _ => False

section Replay

variable [DecidableEq κ] [LT κ]

def Replays : List κ → List (Event κ) → List κ → Prop
  | queue, [], last => queue = last
  | queue, .queued signalled added :: log, last =>
    added.Pairwise (· < ·) ∧ (∀ key ∈ added, key ∉ queue) ∧
      (∀ key ∈ signalled, key ∈ queue ++ added) ∧ Replays (queue ++ added) log last
  | queue, .dispatched key :: log, last => ∃ rest, queue = key :: rest ∧ Replays rest log last
  | queue, .withdrawn key :: log, last => Replays (queue.filter fun other => other ≠ key) log last

variable {last : List κ} {log : List (Event κ)}

theorem replays_append {first second : List (Event κ)} :
    Replays queue (first ++ second) last ↔
      ∃ middle, Replays queue first middle ∧ Replays middle second last := by
  induction first generalizing queue with
  | nil => simp [Replays]
  | cons event first ih =>
    cases event with
    | queued signalled added =>
      simp only [cons_append, Replays, ih]
      constructor
      · rintro ⟨hsorted, hfresh, hsignalled, middle, hfirst, hsecond⟩
        exact ⟨middle, ⟨hsorted, hfresh, hsignalled, hfirst⟩, hsecond⟩
      · rintro ⟨middle, ⟨hsorted, hfresh, hsignalled, hfirst⟩, hsecond⟩
        exact ⟨hsorted, hfresh, hsignalled, middle, hfirst, hsecond⟩
    | dispatched key =>
      simp only [cons_append, Replays, ih]
      constructor
      · rintro ⟨rest, hqueue, middle, hfirst, hsecond⟩
        exact ⟨middle, ⟨rest, hqueue, hfirst⟩, hsecond⟩
      · rintro ⟨middle, ⟨rest, hqueue, hfirst⟩, hsecond⟩
        exact ⟨rest, hqueue, middle, hfirst, hsecond⟩
    | withdrawn key =>
      simp [Replays, ih]

theorem replays_take (queue : List κ) (budget : Nat) :
    Replays queue ((queue.take budget).map .dispatched) (queue.drop budget) := by
  induction budget generalizing queue with
  | zero => exact rfl
  | succ budget ih =>
    rcases queue with _ | ⟨-, queue⟩
    · exact rfl
    · exact ⟨queue, rfl, ih queue⟩

/-- A key stays in the queue, and nothing overtakes it, until it is dispatched or
withdrawn. -/
theorem Replays.not_overtaken
    (h : Replays queue (log ++ [.dispatched other]) last) (hne : key ≠ other)
    (hqueue : ∃ ahead behind, queue = ahead ++ key :: behind ∧ other ∉ ahead) :
    .dispatched key ∈ log ∨ .withdrawn key ∈ log := by
  induction log generalizing queue with
  | nil =>
    obtain ⟨ahead, behind, rfl, hahead⟩ := hqueue
    obtain ⟨rest, hhead, -⟩ := h
    rcases ahead with _ | ⟨front, ahead⟩
    · exact absurd (List.cons.inj hhead).1 hne
    · exact absurd (by simp [(List.cons.inj hhead).1]) hahead
  | cons event log ih =>
    obtain ⟨ahead, behind, rfl, hahead⟩ := hqueue
    cases event with
    | queued signalled added =>
      obtain ⟨-, -, -, hrest⟩ := h
      have hlater := ih hrest ⟨ahead, behind ++ added, by simp, hahead⟩
      simpa using hlater
    | dispatched front =>
      obtain ⟨rest, hhead, hrest⟩ := h
      rcases ahead with _ | ⟨front', ahead⟩
      · obtain rfl := (List.cons.inj hhead).1
        exact .inl (by simp)
      obtain ⟨rfl, rfl⟩ := List.cons.inj hhead
      have hlater := ih hrest ⟨ahead, behind, rfl, fun hmem => hahead (by simp [hmem])⟩
      rcases hlater with hlater | hlater
      · exact .inl (by simp [hlater])
      · exact .inr (by simp [hlater])
    | withdrawn gone =>
      by_cases hgone : gone = key
      · subst hgone
        exact .inr (by simp)
      have hkept : key ≠ gone := fun heq => hgone heq.symm
      have hlater := ih h ⟨ahead.filter fun other => other ≠ gone,
        behind.filter fun other => other ≠ gone, by simp [hkept],
        fun hmem => hahead (mem_filter.mp hmem).1⟩
      rcases hlater with hlater | hlater
      · exact .inl (by simp [hlater])
      · exact .inr (by simp [hlater])

/-- Without being withdrawn or queued again, a key leaves the queue as often as it is
dispatched. -/
theorem Replays.count (h : Replays queue log last)
    (key : κ) (hkept : .withdrawn key ∉ log) (honce : ∀ event ∈ log, ¬ event.Queues key) :
    log.count (.dispatched key) + last.count key = queue.count key := by
  induction log generalizing queue with
  | nil =>
    obtain rfl := h
    simp
  | cons event log ih =>
    have hkept' : .withdrawn key ∉ log := fun hmem => hkept (by simp [hmem])
    have honce' : ∀ event ∈ log, ¬ event.Queues key := fun later hlater =>
      honce later (by simp [hlater])
    cases event with
    | queued signalled added =>
      have hadded : key ∉ added := honce (.queued signalled added) (by simp)
      have hrest := ih h.2.2.2 hkept' honce'
      rw [count_append, count_eq_zero_of_not_mem hadded] at hrest
      exact hrest
    | dispatched front =>
      obtain ⟨rest, rfl, hrest⟩ := h
      have hcount := ih hrest hkept' honce'
      by_cases hfront : front = key
      · subst hfront
        rw [count_cons_self, count_cons_self]
        omega
      · rw [count_cons_of_ne (by simpa using hfront), count_cons_of_ne (by simpa using hfront)]
        exact hcount
    | withdrawn gone =>
      have hgone : key ≠ gone := fun heq => hkept (by simp [heq])
      have hcount := ih h hkept' honce'
      rw [count_filter (by simpa using hgone)] at hcount
      exact hcount

end Replay

theorem ne_of_before [LT κ] [Std.Asymm fun first second : κ => first < second] (hlt : key < other) :
    key ≠ other := by
  rintro rfl
  exact Std.Asymm.asymm key key hlt hlt

section Order

variable [DecidableEq κ] [LT κ] [Std.Asymm fun first second : κ => first < second]
  {log : List (Event κ)} {last : List κ}

theorem Replays.nodup (h : Replays queue log last) (hqueue : queue.Nodup) : last.Nodup := by
  induction log generalizing queue with
  | nil =>
    obtain rfl := h
    exact hqueue
  | cons event log ih =>
    cases event with
    | queued signalled added =>
      obtain ⟨hsorted, hfresh, -, hrest⟩ := h
      refine ih hrest (nodup_append.mpr ⟨hqueue, hsorted.imp ne_of_before, ?_⟩)
      rintro key hkey other hother rfl
      exact hfresh key hother hkey
    | dispatched front =>
      obtain ⟨rest, rfl, hrest⟩ := h
      exact ih hrest (nodup_cons.mp hqueue).2
    | withdrawn gone => exact ih h (hqueue.filter _)

variable {before after : List (Event κ)} {signalled added : List κ}

theorem Replays.ascending (h : Replays [] log last) {between : List (Event κ)}
    (hlog : log = before ++ .queued signalled added :: between ++ .dispatched other :: after)
    (hkey : key ∈ added) (hother : other ∈ added) (hlt : key < other) :
    .dispatched key ∈ between ∨ .withdrawn key ∈ between := by
  have hsplit : log =
      before ++ (.queued signalled added :: ((between ++ [.dispatched other]) ++ after)) := by
    rw [hlog]
    simp
  rw [hsplit, replays_append] at h
  obtain ⟨queue, -, hsorted, hfresh, -, hrest⟩ := h
  rw [replays_append] at hrest
  obtain ⟨middle, hbetween, -⟩ := hrest
  apply hbetween.not_overtaken (ne_of_before hlt)
  obtain ⟨ahead, behind, rfl⟩ := append_of_mem hkey
  refine ⟨queue ++ ahead, behind, by simp, ?_⟩
  intro hmem
  rcases mem_append.mp hmem with hmem | hmem
  · exact hfresh other hother hmem
  · have hbefore := (pairwise_append.mp hsorted).2.2 other hmem key (by simp)
    exact Std.Asymm.asymm _ _ hbefore hlt

/-- A signalled key that is not withdrawn is queued, and dispatched once before it is queued again.
-/
theorem Replays.once (h : Replays [] log last)
    (hlog : log = before ++ .queued signalled added :: after)
    (hkey : key ∈ signalled) (hkept : .withdrawn key ∉ after)
    (honce : ∀ event ∈ after, ¬ event.Queues key) :
    after.count (.dispatched key) + last.count key = 1 := by
  rw [hlog, replays_append] at h
  obtain ⟨queue, hbefore, hbatch⟩ := h
  have hqueue : queue.Nodup := hbefore.nodup nodup_nil
  obtain ⟨hsorted, hfresh, hsignalled, hafter⟩ := hbatch
  have hdistinct : (queue ++ added).Nodup := by
    refine nodup_append.mpr ⟨hqueue, hsorted.imp ne_of_before, ?_⟩
    rintro front hfront behind hbehind rfl
    exact hfresh front hbehind hfront
  rw [hafter.count key hkept honce]
  exact count_eq_one_of_mem hdistinct (hsignalled key hkey)

end Order

end SlimeOs.ReadinessLog
