import SlimeOs.SharedBufferCalls

/-!
Mapping and sealing through an adapter that may fail at any call. Every page the
adapter has mapped stays accounted for, by a mapping or by an orphan, also where
a mapping fails half-way and its rollback fails in turn.
-/

namespace SlimeOs.SharedBuffers

open Except FallibleCall List Option SlotTable FallibleCall.Call MappingRecord

def Clean (attempts : List (AdapterAction × List Orphan)) : Prop :=
  ∀ action live, (action, live) ∈ attempts → ∀ frame, action.retires frame = true →
    ∀ held ∈ live, held.frame ≠ frame

structure Tidy (P : Orphan → Prop) (adapter : Adapter) : Prop where
  live : ∀ held ∈ adapter.live, P held
  clean : Clean adapter.attempts

theorem Tidy.weaken {P Q : Orphan → Prop} {adapter : Adapter} (h : Tidy P adapter)
    (hweaker : ∀ held, P held → Q held) : Tidy Q adapter :=
  ⟨fun held hheld => hweaker held (h.live held hheld), h.clean⟩

def AdapterAction.Spares (held : Orphan) : AdapterAction → Prop
  | .unmap frame vspace vaddr => held ≠ ⟨frame, vspace, vaddr⟩
  | .revoke _ => True
  | .releaseFrame _ => True

def Faulty (answers : Nat → Option AdapterError) : Prop := ∃ n error, answers n = some error

/-- What an adapter call answers: it failed and nothing changed, or it succeeded. -/
def Answered (answers : Nat → Option AdapterError) (table : SharedBufferTable)
    (P Q : Orphan → Prop) (outcome : Outcome SharedBufferError (Option AdapterError))
    (world : World) : Prop :=
  world.table = table ∧
    ((∃ error, Faulty answers ∧ outcome = .ok (some error) ∧ Tidy P world.adapter) ∨
      outcome = .ok none ∧ Tidy Q world.adapter)

section Adapter

variable {answers : Nat → Option AdapterError} {world : World} {P : Orphan → Prop}

theorem mapFrame_ensures (h : Tidy P world.adapter) (frame : FrameCap) (vspace : VSpaceCap)
    (vaddr : Nat) (rights : MappingRights) :
    Ensures (mapFrame answers frame vspace vaddr rights) world
      (Answered answers world.table P fun held => P held ∨ held = ⟨frame, vspace, vaddr⟩) := by
  refine ⟨rfl, ?_⟩
  unfold mapFrame adapterCall
  rcases hanswer : answers world.adapter.clock with _ | error
  · refine .inr ⟨rfl, fun held hheld => ?_, h.clean⟩
    rcases mem_cons.mp hheld with rfl | hheld
    · exact .inr rfl
    · exact .inl (h.live held hheld)
  · exact .inl ⟨error, ⟨_, error, hanswer⟩, rfl, h.live, h.clean⟩

theorem perform_ensures (h : Tidy P world.adapter) (action : AdapterAction)
    (hsafe : ∀ frame, action.retires frame = true → ∀ held, P held → held.frame ≠ frame) :
    Ensures (perform answers action) world
      (Answered answers world.table P fun held => P held ∧ action.Spares held) := by
  have hclean : Clean ((action, world.adapter.live) :: world.adapter.attempts) := by
    intro attempted live hmem frame hretires held hheld
    rcases mem_cons.mp hmem with heq | hmem
    · obtain ⟨rfl, rfl⟩ := Prod.mk.inj heq
      exact hsafe frame hretires held (h.live held hheld)
    · exact h.clean attempted live hmem frame hretires held hheld
  refine ensures_modify ⟨rfl, ?_⟩
  unfold adapterCall
  rcases hanswer : answers world.adapter.clock with _ | error
  · refine .inr ⟨rfl, fun held hheld => ?_, hclean⟩
    cases action with
    | unmap frame vspace vaddr =>
      obtain ⟨hheld, hne⟩ := mem_filter.mp hheld
      exact ⟨h.live held hheld, by simpa [AdapterAction.Spares] using hne⟩
    | revoke frame => exact ⟨h.live held hheld, trivial⟩
    | releaseFrame frame => exact ⟨h.live held hheld, trivial⟩
  · exact .inl ⟨error, ⟨_, error, hanswer⟩, rfl, h.live, hclean⟩

theorem unmap_ensures (h : Tidy P world.adapter) (frame : FrameCap) (vspace : VSpaceCap)
    (vaddr : Nat) :
    Ensures (perform answers (.unmap frame vspace vaddr)) world
      (Answered answers world.table P fun held => P held ∧ held ≠ ⟨frame, vspace, vaddr⟩) :=
  perform_ensures h _ fun _ hretires => absurd hretires nofun

end Adapter

/-- An operation failed: it says why, and only orphans may have changed. -/
def Failed (table : SharedBufferTable) (fault : Fault SharedBufferError)
    (table' : SharedBufferTable) : Prop :=
  (∃ error, fault = .returned error ∧ Reported error) ∧
    ∃ orphans, table' = { table with orphans := orphans } ∧ Retained table'

/-- What an operation does: it fails, or makes one of the changes; every mapped page stays
covered either way. -/
def Effect {α : Type} (sealing : Option BufferId) (table : SharedBufferTable)
    (outcome : Outcome SharedBufferError α) (world : World) : Prop :=
  Tidy (Covers world.table) world.adapter ∧
    Call.Leads (Failed table) (fun _ => Change sealing table) outcome world.table

/-- The invariant of the whole: a sound table that covers what is mapped. -/
structure Safe (world : World) : Prop where
  sound : Sound world.table
  tidy : Tidy (Covers world.table) world.adapter

variable {error : SharedBufferError} {table : SharedBufferTable} {α : Type} {world : World}
  {sealing : Option BufferId} {anchors : FrameAnchors} {vspace : VSpaceCap} {frame : FrameCap}
  {page index : Nat}

theorem failed_of_refused (h : Sound table) (herror : Reported error) :
    Failed table (.returned error) table := ⟨⟨error, rfl, herror⟩, table.orphans, rfl, h.retained⟩

theorem Safe.refused (h : Safe world) (herror : Reported error) :
    Effect sealing world.table (.error (.returned error) : Outcome SharedBufferError α) world :=
  ⟨h.tidy, failed_of_refused h.sound herror⟩

theorem Safe.effect {world' : World} {outcome : Outcome SharedBufferError α} (h : Safe world)
    (heffect : Effect sealing world.table outcome world') : Safe world' := by
  obtain ⟨htidy, hleads⟩ := heffect
  refine ⟨?_, htidy⟩
  cases outcome with
  | error fault =>
    obtain ⟨-, orphans, heq, hretained⟩ := hleads
    rw [heq] at hretained ⊢
    exact h.sound.change (@Change.orphans sealing world.table orphans hretained)
  | ok answer => exact h.sound.change hleads

theorem ensures_onTable {call : TableCall α}
    {post : Outcome SharedBufferError α → SharedBufferTable → Prop}
    (h : Ensures call world.table post) :
    Ensures (onTable call) world fun outcome world' =>
      ∃ table', world' = { world with table := table' } ∧ post outcome table' := ⟨_, rfl, h⟩

theorem ensures_write {f : SharedBufferTable → SharedBufferTable} {rest : Unit → BufferCall α}
    {post : Outcome SharedBufferError α → World → Prop}
    (h : Ensures (rest ()) { world with table := f world.table } post) :
    Ensures (onTable (Call.modify f) >>= rest) world post := h

theorem onTable_effect {call : TableCall α} (h : Safe world) (hcall : Ensures call world.table
      (Call.Leads (Refused world.table) fun _ => Grown world.table)) :
    Ensures (onTable call) world (Effect none world.table) := by
  apply ensures_weaken (ensures_onTable hcall)
  rintro outcome _ ⟨table', rfl, hpost⟩
  cases outcome with
  | error fault =>
    obtain ⟨⟨error, rfl, herror⟩, rfl⟩ := hpost
    exact h.refused herror
  | ok answer => exact ⟨h.tidy.weaken hpost.2, hpost.1⟩

theorem discard_effect {call : BufferCall α} (hcall : Ensures call world (Effect sealing table)) :
    Ensures (discard call) world (Effect sealing table) := by
  apply ensures_bind hcall
  · exact fun answer world' h => h
  · exact fun fault world' h => h

section Mapping

variable {answers : Nat → Option AdapterError} {table : SharedBufferTable} {plan : MappingPlan}
  {rights : MappingRights} {loan : Option LoanId} {holder : HolderId} {offsetPages : Nat}
  {region : Region}

theorem get_of_lt {anchors : FrameAnchors} {index : Nat} (h : index < anchors.len) :
    ∃ frame, anchors.get index = some frame := ⟨_, getElem?_eq_getElem h⟩

theorem mem_of_get (h : anchors.get index = some frame) : frame ∈ anchors.caps := mem_of_getElem? h

theorem IsPage.eq {mapping : MappingRecord} {held : Orphan} (h : IsPage anchors mapping page held)
    (hframe : anchors.get (mapping.offsetPages + page) = some frame) :
    held = ⟨frame, mapping.vspace, mapping.base + page * pageSize⟩ := by
  obtain ⟨hframe', hvspace, hvaddr⟩ := h
  cases held
  rw [hframe] at hframe'
  simp only at hvspace hvaddr hframe'
  rw [← some.inj hframe', hvspace, hvaddr]

theorem recordOrphan_ensures (orphan : Orphan) (hroom : table.orphanCount < maxOrphans) :
    Ensures (recordOrphan orphan) table fun outcome table' => outcome = .ok () ∧
      ∃ orphans, table' = { table with orphans := orphans } ∧ (∃ i, Holds orphans i orphan) ∧
        (∀ i other, Holds table.orphans i other → Holds orphans i other) ∧
        (∀ i other, Holds orphans i other → Holds table.orphans i other ∨ other = orphan) ∧
        (entries orphans).length ≤ table.orphanCount + 1 := by
  apply ensures_read
  split
  next hknown =>
    obtain ⟨i, hi⟩ := mem_entries.mp (contains_iff_mem.mp hknown)
    exact ⟨rfl, table.orphans, rfl, ⟨i, hi⟩, fun _ _ h => h, fun _ _ h => .inl h, Nat.le_succ _⟩
  obtain ⟨slot, hslot⟩ := exists_freeSlot hroom
  have hfree := freeSlot_eq_some hslot
  refine ensures_present hslot ⟨rfl, _, rfl, ⟨slot, ?_⟩, ?_, ?_, ?_⟩
  · exact holds_set.mpr (.inl ⟨rfl, (Vector.getElem_of_getElem? hfree).1, rfl⟩)
  · exact fun i other hother => holds_put hfree hother
  · exact forall_holds_put (.inr rfl) fun i other hother => .inl hother
  · rw [length_entries, total_put _ hfree, ← length_entries]
    exact le_refl _

/-- The orphans a rollback has left behind so far, after some of the pages. -/
structure RolledBack (table : SharedBufferTable) (plan : MappingPlan) (pages left : Nat)
    (state : Rollback) (world : World) : Prop where
  recorded : state.unrecorded = 0
  table_eq : ∃ orphans, world.table = { table with orphans := orphans }
  kept : ∀ i orphan, Holds table.orphans i orphan → Holds world.table.orphans i orphan
  anchored : ∀ i orphan, Holds world.table.orphans i orphan →
    Holds table.orphans i orphan ∨ orphan.frame ∈ plan.anchors.caps
  count : world.table.orphanCount + left ≤ table.orphanCount + pages
  tidy : Tidy (fun held => Covers world.table held ∨
    ∃ page, page < left ∧ IsPage plan.anchors plan.record page held) world.adapter

theorem rollbackPage_ensures {pages left : Nat} {state : Rollback}
    (hrange : plan.record.offsetPages + pages ≤ plan.anchors.len)
    (hbudget : table.orphanCount + pages ≤ maxOrphans) (hleft : left < pages)
    (h : RolledBack table plan pages (left + 1) state world) :
    Ensures (rollbackPage answers plan state left) world
      (Call.Leads (fun _ _ => False) (RolledBack table plan pages left)) := by
  obtain ⟨frame, hframe⟩ := @get_of_lt plan.anchors (plan.record.offsetPages + left) (by omega)
  apply ensures_present hframe
  apply ensures_bind (unmap_ensures h.tidy _ _ _)
  · rintro answer ⟨-, adapter⟩ ⟨rfl, ⟨error, -, hanswer, htidy⟩ | ⟨hanswer, htidy⟩⟩
    · -- The page stays mapped, so it becomes an orphan.
      obtain rfl := ok.inj hanswer
      have hcount := h.count
      refine ensures_attempt (ensures_onTable (recordOrphan_ensures _ ?_)) ?_ ?_ ?_ ?_
      · change world.table.orphanCount < maxOrphans
        omega
      · rintro _ _ ⟨_, rfl, -, orphans, rfl, ⟨i, hi⟩, hkept, hnew, hadded⟩
        obtain ⟨before, hbefore⟩ := h.table_eq
        refine ⟨h.recorded, ⟨orphans, ?_⟩, ?_, ?_, ?_, ?_⟩
        · change { world.table with orphans := orphans } = _
          rw [hbefore]
        · exact fun j orphan horphan => hkept j orphan (h.kept j orphan horphan)
        · intro j orphan horphan
          rcases hnew j orphan horphan with horphan | rfl
          · exact h.anchored j orphan horphan
          · exact .inr (mem_of_get hframe)
        · change (entries orphans).length + left ≤ _
          have hadded : (entries orphans).length ≤ world.table.orphanCount + 1 := hadded
          omega
        refine htidy.weaken fun held hheld => ?_
        rcases hheld with hcovers | ⟨page, hpage, hheld⟩
        · exact .inl (hcovers.mono (fun i mapping hmapping => ⟨mapping.rights, hmapping⟩)
            (fun j region hregion => ⟨region, hregion, rfl, rfl⟩) hkept)
        rcases Nat.lt_succ_iff_lt_or_eq.mp hpage with hlt | rfl
        · exact .inr ⟨page, hlt, hheld⟩
        · rw [hheld.eq hframe]
          exact .inl (.orphan i hi)
      · rintro error' after ⟨_, -, hfault, -⟩
        cases hfault
      · rintro after ⟨_, -, hfault, -⟩
        cases hfault
      · rintro after ⟨_, -, hfault, -⟩
        cases hfault
    · obtain rfl := ok.inj hanswer
      have hcount := h.count
      refine ⟨h.recorded, h.table_eq, h.kept, h.anchored, ?_, htidy.weaken ?_⟩
      · change world.table.orphanCount + left ≤ _
        omega
      rintro held ⟨hcovers | ⟨page, hpage, hheld⟩, hne⟩
      · exact .inl hcovers
      · rcases Nat.lt_succ_iff_lt_or_eq.mp hpage with hlt | rfl
        · exact .inr ⟨page, hlt, hheld⟩
        · exact absurd (hheld.eq hframe) hne
  · rintro fault - ⟨-, ⟨error, -, hfault, -⟩ | ⟨hfault, -⟩⟩
    · cases hfault
    · cases hfault

/-- After a failed map every page is either gone or an orphan. -/
theorem undoPages_ensures (pages : Nat) {world : World} {regionSlot : Nat} {region : Region}
    (h : Sound world.table) (hregion : Holds world.table.regions regionSlot region)
    (hanchors : plan.anchors = region.anchors)
    (hrange : plan.record.offsetPages + pages ≤ plan.anchors.len)
    (hbudget : world.table.orphanCount + total pageCount world.table.mappings +
      pages ≤ maxMappingPages)
    (htidy : Tidy (fun held => Covers world.table held ∨
      ∃ page, page < pages ∧ IsPage plan.anchors plan.record page held) world.adapter)
    (cause : AdapterError) :
    Ensures (undoPages answers plan pages cause) world
      (Call.Leads (fun fault => Effect (α := Unit) none world.table (.error fault)) fun _ _ =>
        False) := by
  have hroom : world.table.orphanCount + pages ≤ maxOrphans := by
    unfold maxOrphans
    omega
  refine ensures_bind (ensures_fold (fun _ _ => False)
    (fun i state world' => RolledBack world.table plan pages (pages - i) state world')
    (range pages).reverse ?_ ?_) ?_ ?_
  · exact ⟨rfl, ⟨world.table.orphans, rfl⟩, fun _ _ horphan => horphan,
      fun _ _ horphan => .inl horphan, Nat.le_refl _, htidy⟩
  · intro i page state world' hpage hstate
    obtain ⟨hi, rfl⟩ : i < pages ∧ page = pages - (i + 1) := by
      rw [getElem?_eq_some_iff] at hpage
      obtain ⟨hi, hget⟩ := hpage
      rw [length_reverse, length_range] at hi
      rw [getElem_reverse, getElem_range, length_range] at hget
      exact ⟨hi, by omega⟩
    apply rollbackPage_ensures hrange hroom (by omega)
    rw [show pages - (i + 1) + 1 = pages - i by omega]
    exact hstate
  · intro state world' hstate
    have hstate : RolledBack world.table plan pages 0 state world' := by
      have hend := hstate
      simp only [Call.Leads, length_reverse, length_range, Nat.sub_self] at hend
      exact hend
    obtain ⟨orphans, heq⟩ := hstate.table_eq
    have hfailed : ∀ error, Reported error → Effect none world.table
        (.error (.returned error) : Outcome SharedBufferError Unit) world' := by
      intro error herror
      refine ⟨hstate.tidy.weaken ?_, ⟨error, rfl, herror⟩, orphans, heq, ?_, ?_⟩
      · rintro held (hcovers | ⟨page, hpage, -⟩)
        · exact hcovers
        · exact absurd hpage (Nat.not_lt_zero page)
      · have hcount := hstate.count
        have hmappings : world'.table.mappings = world.table.mappings := by rw [heq]
        rw [hmappings]
        omega
      intro i orphan horphan
      rw [heq]
      rcases hstate.anchored i orphan horphan with horphan | hframe
      · exact h.retained.anchored i orphan horphan
      · exact ⟨regionSlot, region, hregion, hanchors ▸ hframe⟩
    split
    · exact hfailed _ hstate.recorded
    · exact hfailed _ trivial
  · exact fun fault world' hfault => hfault.elim

structure Admitted (table : SharedBufferTable) (region : Region) (plan : MappingPlan) : Prop where
  free : table.mappings[plan.slot]? = some none
  live : ∃ regionSlot, Holds table.regions regionSlot region
  buffer : region.id = plan.record.buffer
  anchors : plan.anchors = region.anchors
  range : plan.record.offsetPages + plan.record.pageCount ≤ region.anchors.len
  address : plan.record.base + plan.record.pageCount * pageSize ≤ userAddressCeiling
  budget : table.orphanCount + total MappingRecord.pageCount table.mappings +
    plan.record.pageCount ≤ maxMappingPages
  authority : Authority table region plan.record
  chargeable : table.preflightChargeSlot plan.record.holder = .ok ()

theorem mapPage_ensures {region : Region} {page : Nat} {world : World} (h : Sound world.table)
    (hplan : Admitted world.table region plan) (hpage : page < plan.record.pageCount)
    (htidy : Tidy (fun held => Covers world.table held ∨
      ∃ earlier, earlier < page ∧ IsPage plan.anchors plan.record earlier held) world.adapter) :
    Ensures (mapPage answers plan () page) world
      (Call.Leads (fun fault => Effect (α := Unit) none world.table (.error fault)) fun _ world' =>
        world'.table = world.table ∧ Tidy (fun held => Covers world.table held ∨
          ∃ earlier, earlier < page + 1 ∧ IsPage plan.anchors plan.record earlier held)
          world'.adapter) := by
  obtain ⟨regionSlot, hregion⟩ := hplan.live
  have hrange := hplan.range
  have hbudget := hplan.budget
  rw [← hplan.anchors] at hrange
  obtain ⟨frame, hframe⟩ := @get_of_lt plan.anchors (plan.record.offsetPages + page) (by omega)
  have haddress : addWithin 64 plan.record.base (page * pageSize) =
      some (plan.record.base + page * pageSize) := by
    unfold addWithin
    rw [if_pos]
    have hlimit := hplan.address
    have hlt := mul_lt_mul_of_pos_right hpage (show 0 < pageSize by decide)
    unfold userAddressCeiling at hlimit
    omega
  refine ensures_present hframe (ensures_present haddress ?_)
  apply ensures_bind (mapFrame_ensures htidy _ _ _ _)
  · rintro answer ⟨-, adapter⟩ ⟨rfl, ⟨error, -, hanswer, htidy'⟩ | ⟨hanswer, htidy'⟩⟩
    · obtain rfl := ok.inj hanswer
      have hundone := @undoPages_ensures answers plan page ⟨world.table, adapter⟩ regionSlot region
        h hregion hplan.anchors (by omega) (by dsimp only; omega) htidy' error
      apply ensures_weaken hundone
      intro outcome after heffect
      cases outcome with
      | error fault => exact heffect
      | ok answer => exact heffect.elim
    · obtain rfl := ok.inj hanswer
      refine ⟨rfl, htidy'.weaken ?_⟩
      rintro held ((hcovers | ⟨earlier, hearlier, hheld⟩) | rfl)
      · exact .inl hcovers
      · exact .inr ⟨earlier, by omega, hheld⟩
      · exact .inr ⟨page, Nat.lt_succ_self page, hframe, rfl, rfl⟩
  · rintro fault world' ⟨-, ⟨error, -, hfault, -⟩ | ⟨hfault, -⟩⟩
    · cases hfault
    · cases hfault

theorem executeMapping_ensures {region : Region} {world : World} (h : Safe world)
    (hplan : Admitted world.table region plan) :
    Ensures (executeMapping answers plan) world (Effect none world.table) := by
  obtain ⟨regionSlot, hregion⟩ := hplan.live
  refine ensures_bind (ensures_fold
    (fun fault => Effect (α := Unit) none world.table (.error fault))
    (fun i _ world' => world'.table = world.table ∧ Tidy (fun held => Covers world.table held ∨
      ∃ page, page < i ∧ IsPage plan.anchors plan.record page held) world'.adapter)
    (range plan.record.pageCount) ⟨rfl, h.tidy.weaken fun held => .inl⟩ ?_) ?_ ?_
  · rintro i page _ ⟨table', adapter⟩ hpage ⟨rfl, htidy⟩
    obtain ⟨hi, rfl⟩ : i < plan.record.pageCount ∧ i = page := by
      simpa [getElem?_eq_some_iff] using hpage
    exact @mapPage_ensures answers plan region i ⟨world.table, adapter⟩ h.sound hplan hi htidy
  · rintro _ ⟨table', adapter⟩ ⟨rfl, htidy⟩
    refine ensures_write (ensures_weaken (ensures_onTable (charge_ensures
      h.sound.balanced.records rfl hplan.chargeable nofun (owes_put_mapping hplan.free))) ?_)
    rintro _ _ ⟨_, rfl, rfl, charges, rfl, hrecords⟩
    refine ⟨htidy.weaken ?_, ?_⟩
    · have hnew : Holds (world.table.mappings.setIfInBounds plan.slot (some plan.record))
          plan.slot plan.record :=
        holds_set.mpr (.inl ⟨rfl, (Vector.getElem_of_getElem? hplan.free).1, rfl⟩)
      rw [length_range, hplan.anchors]
      rintro held (hcovers | ⟨page, hpage, hheld⟩)
      · exact hcovers.mono (fun i mapping hmapping =>
          ⟨mapping.rights, holds_put hplan.free hmapping⟩)
          (fun j region hregion => ⟨region, hregion, rfl, rfl⟩) fun _ _ horphan => horphan
      · exact .mapping plan.slot regionSlot plan.record region page hnew hregion hplan.buffer
          hpage hheld
    · exact Change.mapped plan.slot regionSlot plan.record region charges hplan.free hregion
        hplan.buffer hplan.range hplan.address hplan.budget hplan.authority
        ⟨hrecords, h.sound.balanced.pages⟩
  · exact fun fault world' hfault => hfault

theorem checked_preflightMapping {base pageCount : Nat} :
    Checked (table.preflightMapping holder region vspace base offsetPages pageCount rights loan) :=
  checked_bind (checked_rejectIf trivial) fun _ _ =>
    checked_bind (checked_okOr trivial) fun _ _ =>
    checked_bind (checked_okOr trivial) fun _ _ =>
    checked_bind (checked_rejectIf trivial) fun _ _ =>
    checked_bind checked_preflightChargeSlot fun _ _ =>
    checked_bind (checked_rejectIf trivial) fun _ _ =>
    checked_bind (checked_rejectIf trivial) fun _ _ => checked_pure _

theorem foldlM_addWithin {mappings : List MappingRecord} {start sum : Nat}
    (h : mappings.foldlM (fun total mapping => addWithin 64 total mapping.pageCount) start =
      some sum) : sum = start + (mappings.map pageCount).sum := by
  induction mappings generalizing start with
  | nil => exact (some.inj h).symm
  | cons mapping mappings ih =>
    obtain ⟨next, hnext, hrest⟩ := bind_eq_some_iff.mp h
    rw [ih hrest, addWithin_eq_some hnext, map_cons, sum_cons]
    omega

theorem preflightMapping_ok {base pageCount : Nat}
    (h : table.preflightMapping holder region vspace base offsetPages pageCount rights loan =
      .ok plan) :
    table.mappings[plan.slot]? = some none ∧ plan.anchors = region.anchors ∧
      plan.record =
        ⟨holder, region.id, region.epoch, vspace, base, offsetPages, pageCount, rights, loan⟩ ∧
      table.orphanCount + total MappingRecord.pageCount table.mappings + pageCount ≤
        maxMappingPages ∧
      table.preflightChargeSlot holder = .ok () := by
  unfold SharedBufferTable.preflightMapping at h
  simp only [Outcome.bind_eq_ok_iff, Outcome.rejectIf_eq_ok_iff, Outcome.okOr_eq_ok_iff,
    Outcome.pure_eq_ok_iff] at h
  obtain ⟨-, -, slot, hslot, sum, hsum, -, hfits, ⟨⟩, hcharge, -, -, -, -, rfl⟩ := h
  have hadmitted := foldlM_addWithin hsum
  rw [← total_eq_sum_entries] at hadmitted
  refine ⟨freeSlot_eq_some hslot, rfl, rfl, ?_, hcharge⟩
  rcases hadd : addWithin 64 sum pageCount with _ | whole
  · rw [hadd] at hfits
    cases hfits
  rw [hadd] at hfits
  have hle : whole ≤ maxMappingPages := by simpa using hfits
  have hwhole := addWithin_eq_some hadd
  omega

theorem map_ensures (h : Safe world) (holder : HolderId) (handle : BufferHandle)
    (vspace : VSpaceCap) (base offset length : Nat) (rights : MappingRights) :
    Ensures (map answers holder handle vspace base offset length rights) world
      (Effect none world.table) := by
  refine ensures_read (ensures_checked checked_authorize (fun region hregion => ?_)
    fun error => h.refused)
  refine ensures_checked checked_validateMappingRange (fun range hrange => ?_)
    fun error => h.refused
  refine ensures_rejectIf trivial (fun hwrite => ?_) fun error => h.refused
  refine ensures_checked checked_preflightMapping (fun plan hplan => ?_) fun error => h.refused
  obtain ⟨i, hregion, -, howner⟩ := authorize_ok hregion
  obtain ⟨-, hfits, haddress⟩ := validateMappingRange_ok hrange
  obtain ⟨hfree, hanchors, hrecord, hbudget, hcharge⟩ := preflightMapping_ok hplan
  refine @executeMapping_ensures answers plan region world h
    ⟨hfree, ⟨i, hregion⟩, ?_, hanchors, ?_, ?_, ?_, ?_, ?_⟩ <;> rw [hrecord]
  · exact hfits
  · exact haddress
  · exact hbudget
  · refine .own rfl howner fun hrights => ?_
    obtain rfl := hrights
    exact (Bool.or_eq_false_iff.mp (show (!region.createdWritable || region.sealed) = false from
      hwrite)).2
  · exact hcharge

theorem mapLoan_ensures (h : Safe world) (receiver : HolderId)
    (handle : LoanHandle) (vspace : VSpaceCap) (base relativeOffset length : Nat) :
    Ensures (mapLoan answers receiver handle vspace base relativeOffset length) world
      (Effect none world.table) := by
  refine ensures_read (ensures_checked checked_authorizeLoan (fun loan hloan => ?_)
    fun error => h.refused)
  refine ensures_checked checked_validatePageRange (fun relative hrelative => ?_)
    fun error => h.refused
  refine ensures_okOr trivial (fun offsetPages hoffset => ?_) fun error => h.refused
  refine ensures_checked checked_liveRegionAny (fun region hregion => ?_) fun error => h.refused
  refine ensures_rejectIf trivial (fun _ => ?_) fun error => h.refused
  refine ensures_checked checked_validateMappingRange (fun range hrange => ?_)
    fun error => h.refused
  refine ensures_checked checked_preflightMapping (fun plan hplan => ?_) fun error => h.refused
  obtain ⟨k, hloan, -, hreceiver⟩ := authorizeLoan_ok hloan
  obtain ⟨i, hregion, hbuffer⟩ := liveRegionAny_ok hregion
  obtain ⟨hstart, hfits, haddress⟩ := validateMappingRange_ok hrange
  obtain ⟨hfree, hanchors, hrecord, hbudget, hcharge⟩ := preflightMapping_ok hplan
  have hoffset := Nat.eq_of_mul_eq_mul_right (show 0 < pageSize by decide) hstart
  refine @executeMapping_ensures answers plan region world h
    ⟨hfree, ⟨i, hregion⟩, ?_, hanchors, ?_, ?_, ?_, ?_, ?_⟩ <;> rw [hrecord]
  · rw [← hoffset]
    exact hfits
  · exact haddress
  · exact hbudget
  · refine .lent k loan hloan rfl hbuffer.symm hreceiver fun hrights => ?_
    by_contra hwritable
    rw [if_neg hwritable] at hrights
    cases hrights
  · exact hcharge

end Mapping

section Seal

variable {answers : Nat → Option AdapterError} {table : SharedBufferTable} {region : Region}
  {mapping : MappingRecord} {world : World} {α : Type}
  {post : Outcome SharedBufferError α → World → Prop} {call : BufferCall Unit} {id : BufferId}

/-- The table has not changed and covers what is mapped. -/
def Steady (table : SharedBufferTable) (world : World) : Prop :=
  world.table = table ∧ Tidy (Covers table) world.adapter

def Steadily (table : SharedBufferTable) : Outcome SharedBufferError α → World → Prop :=
  Call.Leads (fun fault world => (∃ error, fault = .returned error ∧ Reported error) ∧
    Steady table world) fun _ => Steady table

def PagesCovered (table : SharedBufferTable) (region : Region) (mapping : MappingRecord) : Prop :=
  ∀ page frame, page < mapping.pageCount →
    region.anchors.get (mapping.offsetPages + page) = some frame →
    Covers table ⟨frame, mapping.vspace, mapping.base + page * pageSize⟩

theorem mapFrame_steady (h : Steady table world)
    {vaddr : Nat} (rights : MappingRights) (hcovers : Covers table ⟨frame, vspace, vaddr⟩) :
    Ensures (mapFrame answers frame vspace vaddr rights) world fun outcome world' =>
      (∃ answer, outcome = .ok answer) ∧ Steady table world' := by
  apply ensures_weaken (mapFrame_ensures h.2 _ _ _ _)
  rintro outcome world' ⟨htable, ⟨-, -, rfl, htidy⟩ | ⟨rfl, htidy⟩⟩
  · exact ⟨⟨_, rfl⟩, htable.trans h.1, htidy⟩
  refine ⟨⟨_, rfl⟩, htable.trans h.1, htidy.weaken ?_⟩
  rintro held (hheld | rfl)
  · exact hheld
  · exact hcovers

theorem unmap_steady (h : Steady table world) (frame : FrameCap) (vspace : VSpaceCap)
    (vaddr : Nat) :
    Ensures (perform answers (.unmap frame vspace vaddr)) world fun outcome world' =>
      (∃ answer, outcome = .ok answer) ∧ Steady table world' := by
  apply ensures_weaken (unmap_ensures h.2 _ _ _)
  rintro outcome world' ⟨htable, ⟨-, -, rfl, htidy⟩ | ⟨rfl, htidy⟩⟩
  · exact ⟨⟨_, rfl⟩, htable.trans h.1, htidy⟩
  · exact ⟨⟨_, rfl⟩, htable.trans h.1, htidy.weaken fun held hheld => hheld.1⟩

theorem ensures_answer {call : BufferCall (Option AdapterError)}
    {rest : Option AdapterError → BufferCall α} (hcall : Ensures call world fun outcome world' =>
      (∃ answer, outcome = .ok answer) ∧ Steady table world')
    (hrest : ∀ answer world', Steady table world' → Ensures (rest answer) world' post) :
    Ensures (call >>= rest) world post := by
  apply ensures_bind hcall
  · rintro answer world' ⟨-, hsteady⟩
    exact hrest answer world' hsteady
  · rintro fault world' ⟨⟨answer, hfault⟩, -⟩
    cases hfault

theorem ensures_frameAt {rest : FrameCap → BufferCall α}
    (h : Steady table world) (hrest : ∀ frame, anchors.get index = some frame →
      Ensures (rest frame) world (Steadily table)) :
    Ensures (frameAt anchors index >>= rest) world (Steadily table) :=
  ensures_okOr trivial hrest fun error herror => ⟨⟨error, rfl, herror⟩, h⟩

theorem pages_steady {body : Unit → Nat → BufferCall Unit} {count : Nat} (h : Steady table world)
    (hbody : ∀ page world', page < count → Steady table world' →
      Ensures (body () page) world' (Steadily table)) :
    Ensures ((range count).foldlM body ()) world (Steadily table) := by
  apply ensures_fold _ (fun _ _ => Steady table) (range count) h
  rintro i page _ world' hpage hsteady
  refine hbody page world' ?_ hsteady
  obtain ⟨hi, rfl⟩ : i < count ∧ i = page := by
    simpa [getElem?_eq_some_iff] using hpage
  exact hi

theorem report_steady (hcall : Ensures call world (Steadily table)) (herror : Reported error) :
    Ensures (call >>= fun _ => Call.lift (.error (.returned error)) : BufferCall Unit) world
      (Steadily table) := by
  apply ensures_bind hcall
  · exact fun _ world' hsteady => ⟨⟨error, rfl, herror⟩, hsteady⟩
  · exact fun fault world' hfault => hfault

section

variable (h : Steady table world)
include h

theorem mapBack_steady (hpages : PagesCovered table region mapping)
    (rights : MappingRights) (cause : AdapterError) (hpage : page < mapping.pageCount) :
    Ensures (mapBack answers region.anchors mapping rights cause () page) world
      (Steadily table) := by
  refine ensures_frameAt h fun frame hframe => ?_
  apply ensures_answer (mapFrame_steady h rights (hpages page frame hpage hframe))
  rintro (_ | -) world' hsteady
  · exact hsteady
  · exact ⟨⟨_, rfl, trivial⟩, hsteady⟩

theorem unmapBack_steady (cause : AdapterError) (page : Nat) :
    Ensures (unmapBack answers region.anchors mapping cause () page) world (Steadily table) := by
  refine ensures_frameAt h fun frame hframe => ?_
  apply ensures_answer (unmap_steady h _ _ _)
  rintro (_ | -) world' hsteady
  · exact hsteady
  · exact ⟨⟨_, rfl, trivial⟩, hsteady⟩

theorem remapUnmap_steady (hpages : PagesCovered table region mapping)
    (rights : MappingRights) (hpage : page < mapping.pageCount) :
    Ensures (remapUnmap answers region.anchors mapping rights () page) world (Steadily table) := by
  refine ensures_frameAt h fun frame hframe => ?_
  apply ensures_answer (unmap_steady h _ _ _)
  rintro (_ | cause) world' hsteady
  · exact hsteady
  · refine report_steady (pages_steady hsteady fun back world'' hback hsteady' => ?_) trivial
    exact mapBack_steady hsteady' hpages rights cause (by omega)

theorem remapMap_steady (hpages : PagesCovered table region mapping)
    (target rights : MappingRights) (hpage : page < mapping.pageCount) :
    Ensures (remapMap answers region.anchors mapping target rights () page) world
      (Steadily table) := by
  refine ensures_frameAt h fun frame hframe => ?_
  apply ensures_answer (mapFrame_steady h target (hpages page frame hpage hframe))
  rintro (_ | cause) world' hsteady
  · exact hsteady
  refine ensures_bind (pages_steady hsteady fun back world'' hback hsteady' =>
    unmapBack_steady hsteady' cause back) ?_ fun fault world'' hfault => hfault
  intro _ world'' hsteady'
  refine report_steady (pages_steady hsteady' fun back after hback hsteady'' => ?_) trivial
  exact mapBack_steady hsteady'' hpages rights cause hback

/-- While a mapping is remapped any of its pages may be unmapped; the record covers them all. -/
theorem remapMapping_steady (hpages : PagesCovered table region mapping)
    (target rights : MappingRights) :
    Ensures (remapMapping answers region mapping target rights) world (Steadily table) := by
  refine ensures_bind (pages_steady h fun page world' hpage hsteady =>
    remapUnmap_steady hsteady hpages rights hpage) ?_ fun fault world' hfault => hfault
  intro _ world' hsteady
  exact pages_steady hsteady fun page world'' hpage hsteady' =>
    remapMap_steady hsteady' hpages target rights hpage

end

theorem ensures_try {rest : Except SharedBufferError Unit → BufferCall α}
    (hcall : Ensures call world (Steadily table)) (hrest : ∀ result world', Steady table world' →
      (∀ error, result = .error error → Reported error) → Ensures (rest result) world' post) :
    Ensures (Call.attempt call >>= rest) world post := by
  apply ensures_attempt hcall
  · exact fun _ world' hsteady => hrest (.ok ()) world' hsteady fun _ herror => absurd herror nofun
  · rintro error world' ⟨⟨_, heq, hreported⟩, hsteady⟩
    obtain rfl := Fault.returned.inj heq
    refine hrest (.error error) world' hsteady fun _ herror => ?_
    rw [← Except.error.inj herror]
    exact hreported
  · rintro world' ⟨⟨_, heq, -⟩, -⟩
    cases heq
  · rintro world' ⟨⟨_, heq, -⟩, -⟩
    cases heq

theorem rollbackSeal_steady (h : Steady table world) (slots : List Nat)
    (hpages : ∀ slot ∈ slots, ∀ mapping, Holds table.mappings slot mapping →
      PagesCovered table region mapping) :
    Ensures (rollbackSeal answers region slots) world fun outcome world' =>
      (∃ answer, outcome = .ok answer) ∧ Steady table world' := by
  induction slots generalizing world with
  | nil => exact ⟨⟨none, rfl⟩, h⟩
  | cons slot slots ih =>
    apply ensures_read
    rw [h.1]
    split
    · exact ⟨⟨_, rfl⟩, h⟩
    rename_i mapping hmapping
    apply ensures_try (remapMapping_steady h
      (hpages slot (by simp) mapping (holds_of_join hmapping)) _ _)
    rintro (- | _) world' hsteady -
    · exact ⟨⟨_, rfl⟩, hsteady⟩
    · exact ih hsteady fun other hother => hpages other (by simp [hother])

theorem sealMappings_steady (h : Steady table world) (slots converted : List Nat)
    (hpages : ∀ slot, slot ∈ slots ∨ slot ∈ converted → ∀ mapping,
      Holds table.mappings slot mapping → PagesCovered table region mapping) :
    Ensures (sealMappings answers region converted slots) world (Steadily table) := by
  induction slots generalizing world converted with
  | nil => exact h
  | cons slot slots ih =>
    apply ensures_read
    rw [h.1]
    refine ensures_okOr trivial (fun mapping hmapping => ?_) fun error herror =>
      ⟨⟨error, rfl, herror⟩, h⟩
    apply ensures_try (remapMapping_steady h
      (hpages slot (by simp) mapping (holds_of_join hmapping)) _ _)
    rintro (cause | _) world' hsteady hreported
    · apply ensures_answer (rollbackSeal_steady hsteady converted fun other hother =>
        hpages other (.inr hother))
      rintro (_ | -) world'' hsteady'
      · exact ⟨⟨cause, rfl, hreported cause rfl⟩, hsteady'⟩
      · exact ⟨⟨_, rfl, trivial⟩, hsteady'⟩
    · refine ih hsteady (slot :: converted) fun other hother => hpages other ?_
      rcases hother with hother | hother
      · exact .inl (by simp [hother])
      · rcases mem_cons.mp hother with rfl | hother
        · exact .inl (by simp)
        · exact .inr hother

theorem mem_writableSlots {slot : Nat} :
    slot ∈ table.writableSlots id ↔ ∃ mapping, Holds table.mappings slot mapping ∧
      mapping.buffer = id ∧ mapping.rights = .readWrite := by
  unfold SharedBufferTable.writableSlots
  rw [mem_filter, mem_range, Option.any_eq_true]
  constructor
  · rintro ⟨-, mapping, hmapping, hwritable⟩
    obtain ⟨hbuffer, hrights⟩ := Bool.and_eq_true_iff.mp hwritable
    exact ⟨mapping, holds_of_join hmapping, by simpa using hbuffer, by simpa using hrights⟩
  · rintro ⟨mapping, hmapping, hbuffer, hrights⟩
    exact ⟨hmapping.lt, mapping, hmapping.join, by simp [hbuffer, hrights]⟩

theorem narrow_of_buffer (h : mapping.buffer = id) :
    narrow id mapping = { mapping with rights := .readOnly } := if_pos h

theorem narrow_eq_self
    (h : ¬ (mapping.buffer = id ∧ mapping.rights = .readWrite)) : narrow id mapping = mapping := by
  unfold narrow
  split
  next hbuffer =>
    cases hrights : mapping.rights with
    | readOnly => rw [← hrights]
    | readWrite => exact absurd ⟨hbuffer, hrights⟩ h
  · rfl

theorem narrowMappings_ensures (id : BufferId) :
    Ensures ((table.writableSlots id).foldlM narrowMapping ()) table fun outcome table' =>
      outcome = .ok () ∧
        table' = { table with mappings := table.mappings.map (Option.map (narrow id)) } := by
  -- The slots visited so far are narrowed, the others are untouched.
  refine ensures_weaken (ensures_fold (fun _ _ => False)
    (fun k _ table' => ∃ mappings, table' = { table with mappings := mappings } ∧
      ∀ i : Nat, mappings[i]? = if i ∈ (table.writableSlots id).take k
        then table.mappings[i]?.map (Option.map (narrow id)) else table.mappings[i]?)
    (table.writableSlots id) ⟨table.mappings, rfl, by simp⟩ ?_) ?_
  rotate_left
  · rintro (fault | _) table' hend
    · exact hend.elim
    obtain ⟨mappings, rfl, hmappings⟩ := hend
    refine ⟨rfl, ?_⟩
    suffices heq : mappings = table.mappings.map (Option.map (narrow id)) by rw [heq]
    refine Vector.ext fun i hi => some.inj ?_
    rw [← Vector.getElem?_eq_getElem hi, ← Vector.getElem?_eq_getElem hi, hmappings,
      take_length, Vector.getElem?_map]
    split
    · rfl
    rename_i hslot
    rcases hget : table.mappings[i]? with _ | _ | mapping
    · rfl
    · rfl
    · rw [map_some, map_some, narrow_eq_self]
      rintro ⟨hbuffer, hrights⟩
      exact hslot (mem_writableSlots.mpr ⟨mapping, hget, hbuffer, hrights⟩)
  · rintro k slot _ _ hslot ⟨mappings, rfl, hmappings⟩
    obtain ⟨mapping, hmapping, hbuffer, -⟩ := mem_writableSlots.mp (mem_of_getElem? hslot)
    obtain ⟨held, hheld, hnarrow⟩ : ∃ held, mappings[slot]?.join = some held ∧
        ({ held with rights := .readOnly } : MappingRecord) = narrow id mapping := by
      rw [hmappings]
      split
      · rw [show table.mappings[slot]? = some (some mapping) from hmapping]
        exact ⟨_, rfl, by rw [narrow_of_buffer hbuffer]⟩
      · exact ⟨mapping, hmapping.join, (narrow_of_buffer hbuffer).symm⟩
    refine ensures_read (ensures_present hheld ⟨_, rfl, fun i => ?_⟩)
    have hk : (table.writableSlots id).take (k + 1) =
        (table.writableSlots id).take k ++ [slot] := by
      rw [take_add_one, hslot]
      rfl
    rw [hk, hnarrow, Vector.getElem?_setIfInBounds]
    by_cases hi : slot = i
    · subst hi
      rw [if_pos rfl, if_pos hmapping.lt, if_pos (by simp),
        show table.mappings[slot]? = some (some mapping) from hmapping]
      rfl
    · rw [if_neg hi, hmappings]
      simp [show ¬ i = slot from fun heq => hi heq.symm]

theorem sealBuffer_ensures (h : Safe world) (owner : HolderId) (handle : BufferHandle) :
    Ensures (sealBuffer answers owner handle) world (Effect (some handle.id) world.table) := by
  refine ensures_read (ensures_checked checked_authorize (fun region hregion => ?_)
    fun error => h.refused)
  refine ensures_checked (checked_okOr trivial) (fun slot hslot => ?_) fun error => h.refused
  obtain ⟨i, hregion, hid, -⟩ := authorize_ok hregion
  obtain ⟨found, hfound, hfoundId⟩ := liveRegionSlot_ok hslot
  obtain rfl := h.sound.regionIds _ _ _ _ hfound hregion (hfoundId.trans hid.symm)
  obtain rfl := hfound.unique hregion
  split
  · exact ⟨h.tidy, Change.quotas world.table.quotas⟩
  have hpages : ∀ slot ∈ world.table.writableSlots handle.id, ∀ mapping,
      Holds world.table.mappings slot mapping → PagesCovered world.table found mapping := by
    intro slot hslot mapping hmapping page frame hpage hframe
    obtain ⟨writable, hwritable, hbuffer, -⟩ := mem_writableSlots.mp hslot
    rw [hwritable.unique hmapping] at hbuffer
    exact .mapping slot _ mapping found page hmapping hfound (hid.trans hbuffer.symm) hpage
      ⟨hframe, rfl, rfl⟩
  refine ensures_bind (sealMappings_steady ⟨rfl, h.tidy⟩ _ [] ?_) ?_ ?_
  · rintro slot (hslot | hslot)
    · exact hpages slot hslot
    · exact absurd hslot not_mem_nil
  · rintro _ ⟨table', adapter⟩ ⟨rfl, htidy⟩
    refine ensures_bind (ensures_onTable (narrowMappings_ensures handle.id)) ?_ ?_
    · rintro _ _ ⟨_, rfl, -, rfl⟩
      refine ensures_read (ensures_present hfound.join ?_)
      refine ⟨htidy.weaken fun held hheld => hheld.mono ?_ ?_ fun _ _ horphan => horphan, ?_⟩
      · intro k mapping hmapping
        obtain ⟨rights, hrights⟩ := narrow_eq handle.id mapping
        exact ⟨rights, holds_map.mpr ⟨mapping, hmapping, hrights⟩⟩
      · exact exists_holds_put hfound ⟨rfl, rfl⟩ fun _ => ⟨rfl, rfl⟩
      · rw [← hid]
        exact Change.narrowed slot found hfound rfl
    · rintro fault _ ⟨_, -, hfault, -⟩
      cases hfault
  · rintro fault ⟨table', adapter⟩ ⟨⟨error, rfl, herror⟩, rfl, htidy⟩
    exact ⟨htidy, failed_of_refused h.sound herror⟩

end Seal

end SlimeOs.SharedBuffers
