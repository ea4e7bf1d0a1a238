import SlimeOs.WaitSetRegistry

/-!
The registry of a wait set against two lists: the registered sources, strictly
ascending by badge, and the ready queue. Each call is an operation on the lists,
none panics, and every log replays on a first-in first-out queue, so that no
readiness is lost or dispatched twice.
-/

namespace SlimeOs.WaitSetReadiness

open BitWord FallibleCall FixedArray List ReadinessLog WaitSetRegistry FallibleCall.Call

structure Holds (registry : Registry) (sources : List Source) (waiting : List Ready) : Prop where
  registered : Packed registry.registered sources
  registeredLen : registry.registeredLen = sources.length
  ascending : sources.Pairwise fun first second => first.badge < second.badge
  oneBit : ∀ source ∈ sources, OneBit source.badge
  mask : registry.mask = orAll (sources.map Source.badge)
  ready : Packed registry.ready waiting
  readyLen : registry.readyLen = waiting.length
  known : ∀ entry ∈ waiting, entry.badge ∈ sources.map Source.badge
  distinct : (waiting.map Ready.badge).Nodup

theorem holds_new (declared : Declared) : Holds (Registry.new declared) [] [] :=
  ⟨packed_empty, rfl, List.Pairwise.nil, nofun, rfl, packed_empty, rfl, nofun, nodup_nil⟩

variable {badge : UInt64} {position : Nat} {source : Source}

section Lists

variable {sources : List Source}

theorem ascending_insert
    (hsources : sources.Pairwise fun first second => first.badge < second.badge)
    (hfresh : source.badge ∉ sources.map Source.badge)
    (hposition : ((sources.map some).findIdx? fun slot =>
      slot.any fun held => decide (source.badge < held.badge)).getD sources.length = position) :
    position ≤ sources.length ∧
      (sources.insertIdx position source).Pairwise
        fun first second => first.badge < second.badge := by
  induction sources generalizing position with
  | nil =>
    obtain rfl : position = 0 := by simpa using hposition.symm
    simp
  | cons held sources ih =>
    rw [pairwise_cons] at hsources
    rw [map_cons, findIdx?_cons] at hposition
    by_cases hlt : source.badge < held.badge
    · obtain rfl : position = 0 := by simpa [hlt] using hposition.symm
      refine ⟨Nat.zero_le _, ?_⟩
      rw [insertIdx_zero, pairwise_cons, pairwise_cons]
      refine ⟨?_, hsources⟩
      intro other hother
      rcases mem_cons.mp hother with rfl | hother
      · exact hlt
      · exact UInt64.lt_trans hlt (hsources.1 other hother)
    · have hgt : held.badge < source.badge := by
        have hne : source.badge ≠ held.badge := fun heq => hfresh (by simp [heq])
        rw [UInt64.lt_iff_toNat_lt] at hlt ⊢
        have hne' : source.badge.toNat ≠ held.badge.toNat :=
          fun heq => hne (UInt64.toNat_inj.mp heq)
        omega
      have hfresh' : source.badge ∉ sources.map Source.badge :=
        fun hmem => hfresh (by simp [hmem])
      obtain ⟨hle, hpairwise⟩ := ih hsources.2 hfresh' rfl
      obtain rfl : position = ((sources.map some).findIdx? fun slot =>
          slot.any fun held => decide (source.badge < held.badge)).getD sources.length + 1 := by
        rw [← hposition]
        rcases (sources.map some).findIdx? _ with _ | - <;> simp [hlt]
      refine ⟨Nat.succ_le_succ hle, ?_⟩
      rw [insertIdx_succ_cons, pairwise_cons]
      refine ⟨?_, hpairwise⟩
      intro other hother
      rcases (mem_insertIdx hle).mp hother with rfl | hother
      · exact hgt
      · exact hsources.1 other hother

theorem erase_found (hsources : sources.Pairwise fun first second => first.badge < second.badge)
    (hfind : (sources.map some).findIdx? (fun slot =>
      slot.any fun source => source.badge == badge) = some position) :
    position < sources.length ∧
      sources.eraseIdx position = (sources.filter fun source => source.badge != badge) ∧
      badge ∈ sources.map Source.badge := by
  induction sources generalizing position with
  | nil => cases hfind
  | cons held sources ih =>
    rw [pairwise_cons] at hsources
    rw [map_cons, findIdx?_cons] at hfind
    by_cases heq : held.badge = badge
    · obtain rfl : position = 0 := by simpa [heq] using hfind.symm
      refine ⟨Nat.succ_pos _, ?_, by simp [heq]⟩
      rw [eraseIdx_cons_zero, filter_cons_of_neg (by simp [heq]), filter_eq_self.mpr]
      intro other hother
      have hne := ne_of_before (hsources.1 other hother)
      rw [heq] at hne
      simpa using hne.symm
    · rcases hrest : (sources.map some).findIdx? fun slot =>
        slot.any fun source => source.badge == badge with _ | found
      · simp [heq, hrest] at hfind
      obtain rfl : position = found + 1 := by simpa [heq, hrest] using hfind.symm
      obtain ⟨hlt, herase, hmem⟩ := ih hsources.2 hrest
      refine ⟨Nat.succ_lt_succ hlt, ?_, by simp [hmem]⟩
      rw [eraseIdx_cons_succ, herase, filter_cons_of_pos (by simpa using heq)]

end Lists

section Calls

variable {registry : Registry} {sources : List Source} {waiting : List Ready}

theorem Holds.lookup (h : Holds registry sources waiting) :
    leading registry.registered registry.registeredLen = some (sources.map some) := by
  rw [h.registeredLen]
  exact h.registered.leading

theorem Holds.fresh_of_mask (h : Holds registry sources waiting)
    (hbadge : OneBit badge) (hmask : registry.mask &&& badge = 0) :
    badge ∉ sources.map Source.badge := by
  intro hmem
  obtain ⟨bit, hbit, hset⟩ := hbadge.exists_bit
  have hin : testBit registry.mask bit = true := by
    rw [h.mask, testBit_orAll]
    exact ⟨badge, hmem, hset⟩
  rw [(and_eq_zero_iff _ _).mp hmask bit hbit hin] at hset
  cases hset

theorem orAll_insert (sources : List Source) (source : Source)
    (hposition : position ≤ sources.length) :
    orAll ((sources.insertIdx position source).map Source.badge) =
      orAll (sources.map Source.badge) ||| source.badge := by
  apply ext
  intro bit _
  rw [Bool.eq_iff_iff, testBit_orAll, testBit_or, Bool.or_eq_true, testBit_orAll]
  simp only [mem_map, mem_insertIdx hposition]
  constructor
  · rintro ⟨_, ⟨held, rfl | hheld, rfl⟩, hset⟩
    · exact .inr hset
    · exact .inl ⟨held.badge, ⟨held, hheld, rfl⟩, hset⟩
  · rintro (⟨badge, ⟨held, hheld, rfl⟩, hset⟩ | hset)
    · exact ⟨held.badge, ⟨held, .inr hheld, rfl⟩, hset⟩
    · exact ⟨source.badge, ⟨source, .inl rfl, rfl⟩, hset⟩

theorem register_ensures (h : Holds registry sources waiting) (badge : UInt64) :
    Ensures (register badge) registry fun outcome registry' =>
      (∃ error, outcome = .error (.returned error) ∧ registry' = registry) ∨
        ∃ source sources', outcome = .ok source ∧ Holds registry' sources' waiting := by
  apply ensures_read
  refine Call.ensures_okOr (fun source _ => ?_) fun _ => .inl ⟨_, rfl, rfl⟩
  refine ensures_check (fun hbits => ?_) fun _ => .inl ⟨_, rfl, rfl⟩
  refine ensures_check (fun hmask => ?_) fun _ => .inl ⟨_, rfl, rfl⟩
  apply ensures_unwrap h.lookup
  refine ensures_check (fun hroom => ?_) fun _ => .inl ⟨_, rfl, rfl⟩
  have hone := bne_eq_false_iff_eq.mp hbits
  have hfresh := h.fresh_of_mask hone (by simpa using hmask)
  have hlength : sources.length < maxSources := by
    have hfits := h.registered.fits
    have hne : sources.length ≠ maxSources := by
      rw [← h.registeredLen]
      simpa using hroom
    omega
  rw [h.registeredLen]
  obtain ⟨hle, hascending⟩ := ascending_insert h.ascending hfresh rfl
  obtain ⟨shifted, stored, hshift, hstore, hpacked⟩ := h.registered.insert source hle hlength
  refine ensures_unwrap hshift (ensures_unwrap hstore (ensures_modify ?_))
  refine .inr ⟨source, _, rfl, hpacked, ?_, hascending, ?_, ?_, h.ready, h.readyLen, ?_, h.distinct⟩
  · rw [length_insertIdx_of_le_length hle]
    exact congrArg (· + 1) h.registeredLen
  · intro held hheld
    rcases (mem_insertIdx hle).mp hheld with rfl | hheld
    · exact hone
    · exact h.oneBit held hheld
  · rw [orAll_insert sources source hle, ← h.mask]
    rfl
  · intro entry hentry
    obtain ⟨held, hheld, hbadge⟩ := mem_map.mp (h.known entry hentry)
    exact mem_map.mpr ⟨held, (mem_insertIdx hle).mpr (.inr hheld), hbadge⟩

theorem registerFound_ensures (h : Holds registry sources waiting)
    (lookup : Declared → Option Source) :
    Ensures (registerFound lookup) registry fun outcome registry' =>
      (∃ error, outcome = .error (.returned error) ∧ registry' = registry) ∨
        ∃ source sources', outcome = .ok source ∧ Holds registry' sources' waiting := by
  apply ensures_read
  refine Call.ensures_okOr (fun source _ => ?_) fun _ => .inl ⟨_, rfl, rfl⟩
  exact register_ensures h source.badge

theorem mask_filter (hone : ∀ source ∈ sources, OneBit source.badge) (hbadge : OneBit badge) :
    orAll ((sources.filter fun source => source.badge != badge).map Source.badge) =
      orAll (sources.map Source.badge) &&& ~~~badge := by
  apply ext
  intro bit hbit
  rw [Bool.eq_iff_iff, testBit_orAll, testBit_and, Bool.and_eq_true, testBit_orAll,
    testBit_not badge hbit, Bool.not_eq_true']
  simp only [mem_map, mem_filter, bne_iff_ne]
  constructor
  · rintro ⟨_, ⟨source, ⟨hsource, hne⟩, rfl⟩, hset⟩
    refine ⟨⟨source.badge, ⟨source, hsource, rfl⟩, hset⟩, ?_⟩
    have hdisjoint := ((hone source hsource).and_eq_zero_iff_ne hbadge).mpr hne
    exact (and_eq_zero_iff _ _).mp hdisjoint bit hbit hset
  rintro ⟨⟨_, ⟨source, hsource, rfl⟩, hset⟩, hclear⟩
  refine ⟨source.badge, ⟨source, ⟨hsource, ?_⟩, rfl⟩, hset⟩
  intro heq
  rw [heq, hclear] at hset
  cases hset

theorem unregister_ensures (h : Holds registry sources waiting) (badge : UInt64) :
    Ensures (unregister badge) registry fun outcome registry' =>
      (outcome = .ok false ∧ registry' = registry) ∨
        (outcome = .ok true ∧ ∃ sources', Holds registry' sources'
          (waiting.filter fun entry => entry.badge != badge)) := by
  refine ensures_read (ensures_unwrap h.lookup ?_)
  split
  · exact .inl ⟨rfl, rfl⟩
  rename_i position hfind
  obtain ⟨hlt, herase, hheld⟩ := erase_found h.ascending hfind
  have hbadge : OneBit badge := by
    obtain ⟨source, hsource, rfl⟩ := mem_map.mp hheld
    exact h.oneBit source hsource
  obtain ⟨shifted, stored, hshift, hstore, hpacked⟩ := h.registered.remove hlt
  obtain ⟨kept, hretain, hkept⟩ := h.ready.retain fun entry => entry.badge != badge
  rw [← h.registeredLen] at hshift hstore
  rw [← h.readyLen] at hretain
  refine ensures_unwrap hshift (ensures_unwrap hstore (ensures_unwrap hretain (ensures_modify ?_)))
  rw [herase] at hpacked
  refine .inr ⟨rfl, _, hpacked, ?_, h.ascending.filter _, ?_, ?_, hkept, rfl, ?_, ?_⟩
  · change registry.registeredLen - 1 = _
    rw [← herase, length_eraseIdx_of_lt hlt, h.registeredLen]
  · intro source hsource
    exact h.oneBit source (mem_filter.mp hsource).1
  · rw [mask_filter h.oneBit hbadge, ← h.mask]
    rfl
  · intro entry hentry
    obtain ⟨hentry, hne⟩ := mem_filter.mp hentry
    obtain ⟨source, hsource, heq⟩ := mem_map.mp (h.known entry hentry)
    exact mem_map.mpr ⟨source, mem_filter.mpr ⟨hsource, by rw [heq]; exact hne⟩, heq⟩
  · exact h.distinct.sublist ((filter_sublist).map _)

end Calls

section Queue

variable {registry : Registry} {sources : List Source} {waiting : List Ready}

def readyOf (source : Source) : Ready := ⟨source.badge, source.kind, source.drainSlot⟩

/-- The sources a badge word adds to the ready queue: those it carries that do not wait yet. -/
def fresh (badge : UInt64) (waiting : List Ready) (sources : List Source) : List Source :=
  sources.filter fun source =>
    badge &&& source.badge != 0 && !(waiting.map Ready.badge).contains source.badge

theorem mem_fresh : source ∈ fresh badge waiting sources ↔
      source ∈ sources ∧ badge &&& source.badge ≠ 0 ∧ source.badge ∉ waiting.map Ready.badge := by
  simp [fresh]

theorem badges_readyOf (sources : List Source) :
    (sources.map readyOf).map Ready.badge = sources.map Source.badge := by
  rw [map_map]
  rfl

section

variable (h : Holds registry sources waiting)
include h

theorem Holds.nodup_fresh (badge : UInt64) :
    ((waiting ++ (fresh badge waiting sources).map readyOf).map Ready.badge).Nodup := by
  rw [map_append, badges_readyOf]
  refine nodup_append.mpr ⟨h.distinct, ?_, ?_⟩
  · exact pairwise_map.mpr ((h.ascending.filter _).imp ne_of_before)
  · rintro held hheld other hother rfl
    obtain ⟨source, hsource, rfl⟩ := mem_map.mp hother
    exact (mem_fresh.mp hsource).2.2 hheld

theorem Holds.known_fresh (badge : UInt64) {entry : Ready}
    (hentry : entry ∈ waiting ++ (fresh badge waiting sources).map readyOf) :
    entry.badge ∈ sources.map Source.badge := by
  rcases mem_append.mp hentry with hentry | hentry
  · exact h.known entry hentry
  · obtain ⟨source, hsource, rfl⟩ := mem_map.mp hentry
    exact mem_map.mpr ⟨source, (mem_fresh.mp hsource).1, rfl⟩

theorem Holds.fresh_fits (badge : UInt64) :
    (waiting ++ (fresh badge waiting sources).map readyOf).length ≤ maxReady := by
  have hsubset : (waiting ++ (fresh badge waiting sources).map readyOf).map Ready.badge ⊆
      sources.map Source.badge := by
    intro held hheld
    obtain ⟨entry, hentry, rfl⟩ := mem_map.mp hheld
    exact h.known_fresh badge hentry
  have hlength := (subperm_of_subset (h.nodup_fresh badge) hsubset).length_le
  rw [length_map, length_map] at hlength
  exact le_trans hlength h.registered.fits

end

/-- The pass over the registered sources after `done` of them. -/
structure Queued (badge : UInt64) (sources : List Source) (waiting : List Ready) (done : Nat)
    (state : Queueing) : Prop where
  ready : Packed state.ready
    (waiting ++ (fresh badge waiting (sources.take done)).map readyOf)
  readyLen : state.readyLen =
    (waiting ++ (fresh badge waiting (sources.take done)).map readyOf).length
  queued : state.queued = (fresh badge waiting (sources.take done)).length

theorem Holds.any_waiting (h : Holds registry sources waiting) {done : Nat}
    (hdone : done < sources.length) :
    (((waiting ++ (fresh badge waiting (sources.take done)).map readyOf).map some).any
        fun slot => slot.any fun entry => entry.badge == sources[done].badge) = true ↔
      sources[done].badge ∈ waiting.map Ready.badge := by
  simp only [any_map, any_eq_true, mem_append, mem_map, Function.comp_apply,
    Option.any_some, beq_iff_eq]
  constructor
  · rintro ⟨entry, hentry | ⟨source, hsource, rfl⟩, hbadge⟩
    · exact ⟨entry, hentry, hbadge⟩
    obtain ⟨i, hi, hget⟩ := mem_iff_getElem.mp (mem_fresh.mp hsource).1
    rw [length_take] at hi
    have hlt := pairwise_iff_getElem.mp h.ascending i done (by omega) hdone (by omega)
    rw [← getElem_take (h := by simpa using hi), hget] at hlt
    exact absurd hbadge (ne_of_before hlt)
  · rintro ⟨entry, hentry, hbadge⟩
    exact ⟨entry, .inl hentry, hbadge⟩

theorem Queued.step {done : Nat} {state : Queueing}
    (hstate : Queued badge sources waiting done state) (h : Holds registry sources waiting)
    (hdone : done < sources.length) :
    ∃ state', queueStep registry.registered badge state done = .ok state' ∧
      Queued badge sources waiting (done + 1) state' := by
  have hslot := h.registered.get hdone
  have hleading := hstate.ready.leading
  rw [← hstate.readyLen] at hleading
  have hstep : queueStep registry.registered badge state done =
      if badge &&& sources[done].badge == 0 then .ok state
      else if ((waiting ++ (fresh badge waiting (sources.take done)).map readyOf).map some).any
          fun slot => slot.any fun entry => entry.badge == sources[done].badge then .ok state
      else Outcome.unwrap (store state.ready state.readyLen (some (readyOf sources[done]))) >>=
        fun ready => .ok ⟨ready, state.readyLen + 1, state.queued + 1⟩ := by
    unfold queueStep
    rw [hslot, hleading]
    rfl
  have hfresh : fresh badge waiting (sources.take (done + 1)) =
      fresh badge waiting (sources.take done) ++ fresh badge waiting [sources[done]] := by
    unfold fresh
    rw [← filter_append, take_append_getElem hdone]
  rw [hstep]
  by_cases hadded : badge &&& sources[done].badge ≠ 0 ∧
      sources[done].badge ∉ waiting.map Ready.badge
  · have hsingle : fresh badge waiting [sources[done]] = [sources[done]] := by
      rw [fresh, filter_eq_self]
      intro source hsource
      obtain rfl := mem_singleton.mp hsource
      simpa using hadded
    rw [hsingle] at hfresh
    -- the bound of the array follows from what the whole pass can add
    have hroom : (waiting ++ (fresh badge waiting (sources.take done)).map readyOf).length <
        maxReady := by
      have hfits := h.fresh_fits badge
      have hsplit : fresh badge waiting sources = fresh badge waiting (sources.take (done + 1)) ++
          fresh badge waiting (sources.drop (done + 1)) := by
        unfold fresh
        rw [← filter_append, take_append_drop]
      rw [hsplit, hfresh] at hfits
      simp only [length_append, length_map, length_singleton] at hfits ⊢
      omega
    obtain ⟨stored, hstored, hpacked⟩ := hstate.ready.append (readyOf sources[done]) hroom
    rw [← hstate.readyLen] at hstored
    rw [if_neg (by simpa using hadded.1), if_neg (by rw [h.any_waiting hdone]; exact hadded.2),
      hstored]
    refine ⟨_, rfl, ?_, ?_, ?_⟩
    · rw [hfresh, map_append, ← append_assoc]
      exact hpacked
    · rw [hfresh, map_append, ← append_assoc, length_append, hstate.readyLen]
      rfl
    · rw [hfresh, length_append, hstate.queued]
      rfl
  · have hsame : fresh badge waiting [sources[done]] = [] := by
      rw [fresh, filter_eq_nil_iff]
      intro source hsource
      obtain rfl := mem_singleton.mp hsource
      simpa using hadded
    rw [hsame, append_nil] at hfresh
    refine ⟨state, ?_, ?_, ?_, ?_⟩
    · by_cases hcarried : badge &&& sources[done].badge = 0
      · rw [if_pos (by simpa using hcarried)]
      · rw [if_neg (by simpa using hcarried), if_pos]
        rw [h.any_waiting hdone]
        exact Classical.not_not.mp fun hnot => hadded ⟨hcarried, hnot⟩
    all_goals rw [hfresh]
    · exact hstate.ready
    · exact hstate.readyLen
    · exact hstate.queued

section

variable (h : Holds registry sources waiting)
include h

theorem Holds.queued (badge : UInt64) :
    ∃ state, (range sources.length).foldlM (queueStep registry.registered badge)
        ⟨registry.ready, registry.readyLen, 0⟩ = .ok state ∧
      Queued badge sources waiting sources.length state := by
  apply loop_invariant (Queued badge sources waiting)
  · refine ⟨?_, ?_, rfl⟩
    · simpa [fresh] using h.ready
    · simpa [fresh] using h.readyLen
  · intro done state hdone hstate
    exact hstate.step h hdone

theorem queue_ensures (badge : UInt64) : Ensures (queue badge) registry fun outcome registry' =>
      outcome = .ok (fresh badge waiting sources).length ∧
        Holds registry' sources (waiting ++ (fresh badge waiting sources).map readyOf) := by
  obtain ⟨state, hpass, hready, hreadyLen, hqueued⟩ := h.queued badge
  rw [take_length] at hready hreadyLen hqueued
  rw [← h.registeredLen] at hpass
  refine ensures_read (ensures_bind_ok (by rw [hpass]; rfl) (ensures_modify ?_))
  refine ⟨congrArg _ hqueued, h.registered, h.registeredLen, h.ascending, h.oneBit, h.mask,
    hready, hreadyLen, ?_, h.nodup_fresh badge⟩
  intro entry hentry
  exact h.known_fresh badge hentry

theorem nextReady_ensures : Ensures nextReady registry fun outcome registry' =>
      outcome = .ok waiting.head? ∧ Holds registry' sources waiting.tail := by
  apply ensures_read
  rcases waiting with _ | ⟨entry, waiting⟩
  · rw [if_pos (by simp [h.readyLen])]
    exact ⟨rfl, h⟩
  obtain ⟨shifted, stored, hshift, hstore, hpacked⟩ :=
    @Packed.remove _ _ _ _ h.ready 0 (Nat.succ_pos _)
  rw [← h.readyLen] at hshift hstore
  rw [if_neg (by simp [h.readyLen])]
  apply ensures_unwrap (h.ready.get (Nat.succ_pos _))
  refine ensures_unwrap hshift (ensures_unwrap hstore (ensures_modify ?_))
  refine ⟨rfl, h.registered, h.registeredLen, h.ascending, h.oneBit, h.mask, hpacked, ?_, ?_, ?_⟩
  · rw [h.readyLen]
    rfl
  · intro other hother
    exact h.known other (mem_cons_of_mem entry hother)
  · exact (nodup_cons.mp h.distinct).2

theorem dispatchLoop_ensures (budget : Nat) :
    Ensures (dispatchLoop budget) registry fun outcome registry' =>
      outcome = .ok (waiting.take budget) ∧ Holds registry' sources (waiting.drop budget) := by
  induction budget generalizing registry waiting with
  | zero => exact ⟨rfl, h⟩
  | succ budget ih =>
    apply ensures_bind (nextReady_ensures h)
    · rintro next registry' ⟨hnext, hrest⟩
      obtain rfl : next = waiting.head? := by simpa using hnext
      rcases waiting with _ | ⟨entry, waiting⟩
      · exact ⟨rfl, hrest⟩
      apply ensures_bind (ih hrest)
      · rintro later registry'' ⟨hlater, hleft⟩
        obtain rfl : later = _ := by simpa using hlater
        exact ⟨rfl, hleft⟩
      · rintro fault registry'' ⟨hfault, -⟩
        cases hfault
    · rintro fault registry' ⟨hfault, -⟩
      cases hfault

theorem dispatchBounded_ensures (budget : Nat) :
    Ensures (dispatchBounded budget) registry fun outcome registry' =>
      (maxCallbacksPerWake < budget ∧ outcome = .error (.returned .callbackLimit) ∧
          registry' = registry) ∨
        (outcome = .ok (waiting.take budget) ∧ Holds registry' sources (waiting.drop budget)) := by
  refine ensures_check (fun _ => ?_) fun hlimit => .inl ⟨of_decide_eq_true hlimit, rfl, rfl⟩
  exact ensures_weaken (dispatchLoop_ensures h budget) fun _ _ hpost => .inr hpost

end

end Queue

section Runs

variable {registry : Registry} {sources : List Source} {waiting : List Ready}

section

variable (h : Holds registry sources waiting)
include h

theorem Holds.signalled (badge : UInt64) : registry.signalled badge =
      (sources.map Source.badge).filter fun held => badge &&& held != 0 := by
  have htake : registry.registered.toList.take registry.registeredLen = sources.map some := by
    have hlookup := h.lookup
    unfold leading at hlookup
    rw [if_pos (by rw [h.registeredLen]; exact h.registered.fits)] at hlookup
    exact Option.some.inj hlookup
  unfold Registry.signalled
  rw [htake]
  simp

theorem Holds.readyBadges : registry.readyBadges = waiting.map Ready.badge := by
  have hleading := h.ready.leading
  unfold leading at hleading
  rw [if_pos h.ready.fits, ← h.readyLen] at hleading
  unfold Registry.readyBadges
  rw [Option.some.inj hleading]
  simp

theorem Holds.replays_queue (badge : UInt64) : Replays (waiting.map Ready.badge)
      [.queued ((sources.map Source.badge).filter fun held => badge &&& held != 0)
        ((fresh badge waiting sources).map Source.badge)]
      ((waiting ++ (fresh badge waiting sources).map readyOf).map Ready.badge) := by
  refine ⟨?_, ?_, ?_, ?_⟩
  · exact pairwise_map.mpr (h.ascending.filter _)
  · intro key hkey
    obtain ⟨source, hsource, rfl⟩ := mem_map.mp hkey
    exact (mem_fresh.mp hsource).2.2
  · intro key hkey
    obtain ⟨hkey, hcarried⟩ := mem_filter.mp hkey
    obtain ⟨source, hsource, rfl⟩ := mem_map.mp hkey
    by_cases hwaiting : source.badge ∈ waiting.map Ready.badge
    · exact mem_append_left _ hwaiting
    · refine mem_append_right _ (mem_map.mpr ⟨source, mem_fresh.mpr ?_, rfl⟩)
      exact ⟨hsource, by simpa using hcarried, hwaiting⟩
  · change _ = _
    rw [map_append, badges_readyOf]

end

/-- What one call does: it refuses and changes nothing, or it moves the ready queue by
the events it logs. -/
def Performed (registry : Registry) (waiting : List Ready)
    (outcome : Outcome RegistryError (List (Event UInt64))) (registry' : Registry) : Prop :=
  (∃ error, outcome = .error (.returned error) ∧ registry' = registry) ∨
    ∃ events sources' waiting', outcome = .ok events ∧ Holds registry' sources' waiting' ∧
      Replays (waiting.map Ready.badge) events (waiting'.map Ready.badge)

theorem performed_register {call : Call Registry RegistryError Source}
    (hcall : Ensures call registry fun outcome registry' =>
      (∃ error, outcome = .error (.returned error) ∧ registry' = registry) ∨
        ∃ source sources', outcome = .ok source ∧ Holds registry' sources' waiting) :
    Ensures (call >>= fun _ => pure []) registry (Performed registry waiting) := by
  apply ensures_bind hcall
  · rintro source registry' (⟨error, herror, -⟩ | ⟨_, sources', -, hholds⟩)
    · cases herror
    · exact .inr ⟨[], sources', waiting, rfl, hholds, rfl⟩
  rintro fault registry' (⟨error, herror, hsame⟩ | ⟨_, _, hok, -⟩)
  · obtain rfl : fault = .returned error := by simpa using herror
    exact .inl ⟨error, rfl, hsame⟩
  · cases hok

theorem perform_ensures (h : Holds registry sources waiting) (operation : Operation) :
    Ensures (perform operation) registry (Performed registry waiting) := by
  cases operation with
  | register badge => exact performed_register (register_ensures h badge)
  | registerSlot kind slot => exact performed_register (registerFound_ensures h _)
  | registerTimer => exact performed_register (registerFound_ensures h _)
  | registerDevice => exact performed_register (registerFound_ensures h _)
  | unregister badge =>
    apply ensures_bind (unregister_ensures h badge)
    · rintro removed registry' (⟨hremoved, rfl⟩ | ⟨hremoved, sources', hholds⟩)
      · obtain rfl : removed = false := by simpa using hremoved
        exact .inr ⟨[], sources, waiting, rfl, h, rfl⟩
      obtain rfl : removed = true := by simpa using hremoved
      refine .inr ⟨_, sources', _, rfl, hholds, ?_⟩
      change filter _ _ = _
      rw [filter_map]
      congr 2
      funext entry
      rw [Function.comp_apply, decide_not]
      rfl
    · rintro fault registry' (⟨hfault, -⟩ | ⟨hfault, -⟩) <;> cases hfault
  | queue badge =>
    refine ensures_read (ensures_bind (queue_ensures h badge) ?_ ?_)
    · rintro - registry' ⟨-, hholds⟩
      refine ensures_read (.inr ⟨_, sources, _, rfl, hholds, ?_⟩)
      have hadded : registry'.readyBadges.drop registry.readyLen =
          (fresh badge waiting sources).map Source.badge := by
        rw [hholds.readyBadges, map_append, badges_readyOf, h.readyLen,
          ← length_map Ready.badge, drop_left]
      rw [hadded, h.signalled badge]
      exact h.replays_queue badge
    · rintro fault registry' ⟨hfault, -⟩
      cases hfault
  | nextReady =>
    apply ensures_bind (nextReady_ensures h)
    · rintro next registry' ⟨hnext, hholds⟩
      obtain rfl : next = waiting.head? := by simpa using hnext
      refine .inr ⟨_, sources, _, rfl, hholds, ?_⟩
      have hreplays := replays_take (waiting.map Ready.badge) 1
      rcases waiting with _ | ⟨entry, waiting⟩
      · exact hreplays
      · exact hreplays
    · rintro fault registry' ⟨hfault, -⟩
      cases hfault
  | dispatchBounded budget =>
    apply ensures_bind (dispatchBounded_ensures h budget)
    · rintro entries registry' (⟨-, hlimit, -⟩ | ⟨hentries, hholds⟩)
      · cases hlimit
      obtain rfl : entries = waiting.take budget := by simpa using hentries
      refine .inr ⟨_, sources, _, rfl, hholds, ?_⟩
      have hreplays := replays_take (waiting.map Ready.badge) budget
      rw [← map_take, ← map_drop, map_map] at hreplays
      exact hreplays
    · rintro fault registry' (⟨-, hlimit, hsame⟩ | ⟨hentries, -⟩)
      · obtain rfl : fault = .returned .callbackLimit := by simpa using hlimit
        exact .inl ⟨_, rfl, hsame⟩
      · cases hentries

theorem perform_drains (h : Holds registry sources waiting) :
    Ensures (perform (.dispatchBounded maxCallbacksPerWake)) registry fun outcome _ =>
      outcome = .ok (registry.readyBadges.map .dispatched) := by
  have hall : waiting.take maxCallbacksPerWake = waiting := take_of_length_le h.ready.fits
  apply ensures_bind (dispatchBounded_ensures h maxCallbacksPerWake)
  · rintro entries registry' (⟨-, hlimit, -⟩ | ⟨hentries, -⟩)
    · cases hlimit
    · obtain rfl : entries = waiting.take maxCallbacksPerWake := by simpa using hentries
      rw [hall, h.readyBadges, map_map]
      rfl
  · rintro fault registry' (⟨hlimit, -⟩ | ⟨hentries, -⟩)
    · exact absurd hlimit (lt_irrefl _)
    · cases hentries

/-- The registry is well formed and its log replays to the ready queue it has now. -/
def Replayed (machine : Machine) : Prop :=
  ∃ sources waiting, Holds machine.registry sources waiting ∧
    Replays [] machine.log (waiting.map Ready.badge)

theorem replayed_step (machine : Machine) (operation : Operation) (h : Replayed machine) :
    Replayed (step machine operation) := by
  obtain ⟨sources, waiting, hholds, hlog⟩ := h
  have hperformed := perform_ensures hholds operation
  unfold Ensures at hperformed
  unfold step
  rcases hstep : perform operation machine.registry with ⟨fault | events, registry'⟩
  all_goals
    rw [hstep] at hperformed
  · rcases hperformed with ⟨error, -, hsame⟩ | ⟨_, _, _, hok, -⟩
    · obtain rfl := hsame
      exact ⟨sources, waiting, hholds, hlog⟩
    · cases hok
  rcases hperformed with ⟨error, herror, -⟩ | ⟨_, sources', waiting', hok, hholds', hreplays⟩
  · cases herror
  · obtain rfl : events = _ := by simpa using hok
    exact ⟨sources', waiting', hholds', replays_append.mpr ⟨_, hlog, hreplays⟩⟩

end Runs

end SlimeOs.WaitSetReadiness
