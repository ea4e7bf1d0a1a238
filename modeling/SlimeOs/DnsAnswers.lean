import Mathlib.Data.List.Nodup
import Mathlib.Data.Nat.Bitwise
import SlimeOs.DnsNames

/-!
The records of a response and the alias chain through them, said of the records and not of how
they are read. Walking the records finds exactly those of the packet, and the passes over the
records kept follow exactly the chain of the name.
-/

namespace SlimeOs.Dns

open ByteLayout ByteRange FallibleCall FallibleCall.Outcome List Option

inductive RecordData where
  | address (address : Address)
  | target (name : Name)
  | other
deriving DecidableEq

structure ResourceRecord where
  owner : Name
  data : RecordData
  ttl : UInt32
deriving DecidableEq

inductive DataAt (packet : List UInt8) : UInt16 → UInt16 → Nat → Nat → RecordData → Prop
  | address {data : Nat} :
      DataAt packet typeA classIn data (data + 4) (.address (field packet data 4))
  | target {data stop : Nat} {name : Name} (hname : NameIn packet data name stop)
      (hne : name.bytes ≠ []) : DataAt packet typeCname classIn data stop (.target name)
  | other {kind dataClass : UInt16} {data stop : Nat} (haddress : kind ≠ typeA)
      (htarget : kind ≠ typeCname) : DataAt packet kind dataClass data stop .other

/-- A time to live with its high bit set counts as zero. -/
def effectiveTtl (ttl : UInt32) : UInt32 := if ttl.toNat < 2 ^ 31 then ttl else 0

def RecordAt (packet : List UInt8) (start : Nat) (record : ResourceRecord) (next : Nat) : Prop :=
  ∃ (cursor : Nat) (kind dataClass : UInt16) (ttl : UInt32) (len : UInt16),
    NameIn packet start record.owner cursor ∧ word? packet cursor = some kind ∧
    word? packet (cursor + 2) = some dataClass ∧ long? packet (cursor + 4) = some ttl ∧
    word? packet (cursor + 8) = some len ∧ cursor + 10 + len.toNat = next ∧
    next ≤ packet.length ∧ record.ttl = effectiveTtl ttl ∧
    DataAt packet kind dataClass (cursor + 10) next record.data

inductive RecordsAt (packet : List UInt8) (start : Nat) : List ResourceRecord → Nat → Prop
  | nil : RecordsAt packet start [] start
  | snoc {records : List ResourceRecord} {record : ResourceRecord} {middle next : Nat}
      (hrecords : RecordsAt packet start records middle)
      (hrecord : RecordAt packet middle record next) :
      RecordsAt packet start (records ++ [record]) next

structure Reads (packet : List UInt8) (record : Record) (resource : ResourceRecord) : Prop where
  owner : ∃ next, NameIn packet record.owner resource.owner next
  ttl : record.ttl = resource.ttl
  data : ∃ dataClass stop, DataAt packet record.kind dataClass record.data stop resource.data ∧
    stop ≤ packet.length

theorem effectiveTtl_eq (ttl : UInt32) :
    (if ttl &&& 0x80000000 == 0 then ttl else 0) = effectiveTtl ttl := by
  have hbit : ttl &&& 0x80000000 = 0 ↔ ttl.toNat < 2 ^ 31 := by
    rw [← UInt32.toNat_inj]
    change ttl.toNat &&& 2 ^ 31 = 0 ↔ _
    have hlt := ttl.toNat_lt
    rw [Nat.and_two_pow, Nat.testBit_eq_decide_div_mod_eq]
    simp
    omega
  unfold effectiveTtl
  simp [hbit]

variable {packet : List UInt8} {start next answers : Nat} {record : Record}
  {resource : ResourceRecord} {records : List Record} {resources : List ResourceRecord}
  {addresses : List Address} {address : Address} {name : Name} {targets : List Name}

theorem checkAlias_ok_iff {cursor stop : Nat} : checkAlias packet cursor stop = .ok () ↔
      ∃ name : Name, NameIn packet cursor name stop ∧ name.bytes ≠ [] := by
  unfold checkAlias
  rw [bind_eq_ok_iff]
  constructor
  · rintro ⟨⟨name, nameEnd⟩, hread, hcheck⟩
    simp only [rejectIf_eq_ok_iff, Bool.or_eq_false_iff, isEmpty_eq_false_iff,
      bne_eq_false_iff_eq] at hcheck
    obtain ⟨hne, rfl⟩ := hcheck
    exact ⟨name, readName_ok_iff.mp hread, hne⟩
  · rintro ⟨name, hname, hne⟩
    refine ⟨(name, stop), readName_ok_iff.mpr hname, ?_⟩
    simp [hne]

theorem checkData_ok_iff {kind dataClass : UInt16} {len data : Nat} :
    checkData packet kind dataClass len data = .ok () ↔
      ∃ resource, DataAt packet kind dataClass data (data + len) resource := by
  unfold checkData
  constructor
  · intro h
    split at h
    next hkind =>
      obtain ⟨_, hclass, h⟩ := bind_eq_ok_iff.mp h
      obtain ⟨_, hlen, h⟩ := bind_eq_ok_iff.mp h
      obtain rfl : dataClass = classIn := by simpa using hclass
      split at h
      next hcname =>
        obtain rfl : kind = typeCname := by simpa using hcname
        obtain ⟨name, hname, hne⟩ := checkAlias_ok_iff.mp h
        exact ⟨.target name, .target hname hne⟩
      rename_i hcname
      obtain rfl : kind = typeA := by
        rw [Bool.or_eq_true] at hkind
        rcases hkind with hkind | hkind
        · simpa using hkind
        · exact absurd hkind hcname
      obtain rfl : len = 4 := by simpa using hlen
      exact ⟨_, .address⟩
    next hkind =>
      simp only [Bool.or_eq_true, beq_iff_eq, not_or] at hkind
      exact ⟨.other, .other hkind.1 hkind.2⟩
  · rintro ⟨resource, hdata⟩
    generalize hstop : data + len = stop at hdata
    cases hdata with
    | address =>
      obtain rfl : len = 4 := by omega
      rfl
    | target hname hne =>
      exact checkAlias_ok_iff.mpr ⟨_, hname, hne⟩
    | other haddress htarget => simp [haddress, htarget, pure, Except.pure]

theorem readRecord_ok (h : readRecord packet start = .ok (record, next)) :
    ∃ resource, RecordAt packet start resource next ∧ Reads packet record resource := by
  obtain ⟨⟨owner, cursor⟩, howner, h⟩ := bind_eq_ok_iff.mp h
  obtain ⟨kind, hkind, h⟩ := bind_eq_ok_iff.mp h
  obtain ⟨dataClass, hclass, h⟩ := bind_eq_ok_iff.mp h
  obtain ⟨ttl, httl, h⟩ := bind_eq_ok_iff.mp h
  obtain ⟨len, hlen, h⟩ := bind_eq_ok_iff.mp h
  obtain ⟨_, hfit, h⟩ := bind_eq_ok_iff.mp h
  obtain ⟨_, hcheck, h⟩ := bind_eq_ok_iff.mp h
  rw [rejectIf_eq_ok_iff, decide_eq_false_iff_not, not_lt] at hfit
  obtain ⟨data, hdata⟩ := checkData_ok_iff.mp hcheck
  rw [effectiveTtl_eq] at h
  obtain ⟨rfl, rfl⟩ := h
  have hname := readName_ok_iff.mp howner
  refine ⟨⟨owner, data, effectiveTtl ttl⟩, ?_, ⟨⟨cursor, hname⟩, rfl, dataClass, _, hdata, hfit⟩⟩
  exact ⟨cursor, kind, dataClass, ttl, len, hname, okOr_eq_ok_iff.mp hkind,
    okOr_eq_ok_iff.mp hclass, okOr_eq_ok_iff.mp httl,
    okOr_eq_ok_iff.mp hlen, rfl, hfit, rfl, hdata⟩

theorem RecordAt.read (h : RecordAt packet start resource next) :
    ∃ record, readRecord packet start = .ok (record, next) ∧ Reads packet record resource := by
  obtain ⟨cursor, kind, dataClass, ttl, len, hname, hkind, hclass, httl, hlen, rfl, hfit, hrecord,
    hdata⟩ := h
  have hread := readName_ok_iff.mpr hname
  have hcheck := checkData_ok_iff.mpr ⟨_, hdata⟩
  have hinside : rejectIf (decide (packet.length < cursor + 10 + len.toNat))
      Error.malformed = .ok () := by
    rw [rejectIf_eq_ok_iff, decide_eq_false_iff_not]
    omega
  refine ⟨⟨start, kind, cursor + 10, effectiveTtl ttl⟩, ?_,
    ⟨⟨cursor, hname⟩, hrecord.symm, dataClass, _, hdata, hfit⟩⟩
  unfold readRecord word long
  simp only [hread, hkind, hclass, httl, hlen, okOr, bind, Except.bind, hinside, hcheck,
    effectiveTtl_eq]
  rfl

theorem forall₂_keep {α β : Type} {R : α → β → Prop} {kept : List α} {xs : List β} {a : α} {x : β}
    (hkept : List.Forall₂ R kept (xs.take answers)) (hx : R a x) :
    List.Forall₂ R (if xs.length < answers then kept ++ [a] else kept)
      ((xs ++ [x]).take answers) := by
  rw [take_append]
  split
  next hlt =>
    rw [take_of_length_le (by omega)] at hkept ⊢
    rw [take_of_length_le (by simp; omega)]
    exact rel_append hkept (.cons hx .nil)
  next hge =>
    rw [Nat.sub_eq_zero_of_le (by omega), take_zero, append_nil]
    exact hkept

theorem walkRecords_ok {total : Nat}
    (h : (List.range total).foldlM (walkRecord packet answers) ([], start) = .ok (records, next)) :
    ∃ resources, RecordsAt packet start resources next ∧ resources.length = total ∧
      List.Forall₂ (Reads packet) records (resources.take answers) := by
  induction total generalizing records next with
  | zero =>
    obtain ⟨rfl, rfl⟩ : [] = records ∧ start = next := by
      simpa [pure, Except.pure] using h
    exact ⟨[], .nil, rfl, by simp⟩
  | succ total ih =>
    rw [range_succ, foldlM_append] at h
    obtain ⟨⟨kept, middle⟩, hwalked, h⟩ := bind_eq_ok_iff.mp h
    obtain ⟨resources, hresources, hlength, hkept⟩ := ih hwalked
    simp only [foldlM_cons, foldlM_nil, bind_pure] at h
    obtain ⟨⟨record, stop⟩, hread, h⟩ := bind_eq_ok_iff.mp h
    obtain ⟨resource, hresource, hreads⟩ := readRecord_ok hread
    rw [pure_eq_ok_iff, Prod.mk.injEq] at h
    obtain ⟨hrecords, rfl⟩ := h
    refine ⟨resources ++ [resource], .snoc hresources hresource, by simp [hlength], ?_⟩
    rw [← hrecords, ← hlength]
    exact forall₂_keep hkept hreads

theorem RecordsAt.walk (h : RecordsAt packet start resources next) (answers : Nat) :
    ∃ records, (List.range resources.length).foldlM (walkRecord packet answers) ([], start) =
        .ok (records, next) ∧
      List.Forall₂ (Reads packet) records (resources.take answers) := by
  induction h with
  | nil => exact ⟨[], rfl, by simp⟩
  | @snoc resources resource middle next hresources hresource ih =>
    obtain ⟨kept, hwalked, hkept⟩ := ih
    obtain ⟨record, hread, hreads⟩ := hresource.read
    refine ⟨if resources.length < answers then kept ++ [record] else kept, ?_, ?_⟩
    · rw [length_append, length_singleton, range_succ, foldlM_append, hwalked]
      simp only [bind, Except.bind, foldlM_cons, foldlM_nil]
      unfold walkRecord
      simp only [hread, bind, Except.bind]
      rfl
    · exact forall₂_keep hkept hreads

section Chain

variable (records : List ResourceRecord)

def targetsOf (name : Name) : List Name :=
  records.filterMap fun record =>
    match record.data with
    | .target target => if record.owner = name then some target else none
    | _ => none

def addressesOf (name : Name) : List Address :=
  records.filterMap fun record =>
    match record.data with
    | .address address => if record.owner = name then some address else none
    | _ => none

def ttlsOf (name : Name) : List UInt32 :=
  records.filterMap fun record =>
    if record.owner = name ∧ record.data ≠ .other then some record.ttl else none

/-- The names from one on to the one that has the addresses. A name on the way has one alias, said
once or more, and no address; the last one has no alias and one to four distinct addresses. -/
inductive Follows : Name → List Name → List Address → Prop
  | address {name : Name} (htargets : targetsOf records name = [])
      (hnonempty : addressesOf records name ≠ [])
      (hbound : (addressesOf records name).eraseDups.length ≤ maxAddresses) :
      Follows name [name] (addressesOf records name).eraseDups
  | target {name next : Name} {chain : List Name} {addresses : List Address}
      (hnonempty : targetsOf records name ≠ [])
      (hone : ∀ target ∈ targetsOf records name, target = next)
      (haddresses : addressesOf records name = []) (hrest : Follows next chain addresses) :
      Follows name (name :: chain) addresses

end Chain

/-- The pass over the records for one name, said of the records themselves. -/
def scanResource (name : Name) (scan : Scan) (record : ResourceRecord) : Option Scan :=
  if record.owner = name then
    match record.data with
    | .address address =>
      (scan.answer.add address record.ttl).toOption.map fun answer => { scan with answer := answer }
    | .target next =>
      if scan.aliasName.any (· != next) then none
      else
        some
          { aliasName := some next
            answer := { scan.answer with ttlSeconds := min scan.answer.ttlSeconds record.ttl } }
    | .other => some scan
  else some scan

theorem scanRecord_toOption (h : Reads packet record resource) (name : Name) (scan : Scan) :
    (scanRecord packet name scan record).toOption = scanResource name scan resource := by
  obtain ⟨next, hname⟩ := h.owner
  have hread := readName_ok_iff.mpr hname
  obtain ⟨owner, data, ttl⟩ := resource
  obtain ⟨place, kind, start, ttl'⟩ := record
  obtain rfl := h.ttl
  obtain ⟨dataClass, stop, hdata, hstop⟩ := h.data
  unfold scanRecord scanResource
  simp only [hread, bind, Except.bind]
  by_cases howner : owner = name
  · subst howner
    simp only [bne_self_eq_false, Bool.false_eq_true, if_false, if_true]
    cases hdata with
    | address =>
      have haddress : addressAt packet start = .ok (field packet start 4) := if_pos hstop
      simp only [haddress]
      rcases scan.answer.add (field packet start 4) ttl' with - | answer <;> rfl
    | target htarget hne =>
      have halias := readName_ok_iff.mpr htarget
      simp only [halias]
      rcases scan.aliasName.any (· != _) <;> rfl
    | other haddress htarget =>
      rw [if_neg (by simpa using haddress), if_neg (by simpa using htarget)]
      rfl
  · simp [howner, pure, Except.pure, Except.toOption]

theorem scan_toOption (h : List.Forall₂ (Reads packet) records resources)
    (name : Name) (scan : Scan) :
    (records.foldlM (scanRecord packet name) scan).toOption =
      resources.foldlM (scanResource name) scan := by
  induction h generalizing scan with
  | nil => rfl
  | @cons record resource records resources hreads _ ih =>
    rw [foldlM_cons, foldlM_cons, ← scanRecord_toOption hreads]
    rcases scanRecord packet name scan record with - | scan'
    · rfl
    · exact ih scan'

def withDistinct (addresses more : List Address) : List Address :=
  more.foldl (fun addresses address =>
    if addresses.contains address then addresses else addresses ++ [address]) addresses

theorem length_le_withDistinct (addresses more : List Address) :
    addresses.length ≤ (withDistinct addresses more).length := by
  induction more generalizing addresses with
  | nil => exact le_refl _
  | cons address more ih =>
    refine le_trans ?_ (ih _)
    dsimp only
    split
    · exact le_refl _
    · simp

theorem withDistinct_cons_of_mem (h : address ∈ addresses) (more : List Address) :
    withDistinct addresses (address :: more) = withDistinct addresses more := by
  simp [withDistinct, h]

theorem withDistinct_cons_of_not_mem (h : address ∉ addresses) (more : List Address) :
    withDistinct addresses (address :: more) = withDistinct (addresses ++ [address]) more := by
  simp [withDistinct, h]

theorem eraseDups_of_nodup (h : addresses.Nodup) : addresses.eraseDups = addresses := by
  induction addresses with
  | nil => rfl
  | cons address addresses ih =>
    obtain ⟨hnew, hrest⟩ := nodup_cons.mp h
    have hfilter : addresses.filter (fun other => !other == address) = addresses := by
      refine filter_eq_self.mpr fun other hother => ?_
      have hne : other ≠ address := fun heq => hnew (heq ▸ hother)
      simpa using hne
    rw [eraseDups_cons, hfilter, ih hrest]

theorem eraseDups_eq_nil_iff : addresses.eraseDups = [] ↔ addresses = [] := by
  rcases addresses with _ | ⟨-, addresses⟩
  · simp
  · simp [eraseDups_cons]

theorem withDistinct_eq_eraseDups (h : addresses.Nodup)
    (more : List Address) : withDistinct addresses more = (addresses ++ more).eraseDups := by
  induction more generalizing addresses with
  | nil => rw [append_nil, eraseDups_of_nodup h, withDistinct, foldl_nil]
  | cons address more ih =>
    by_cases hknown : address ∈ addresses
    · rw [withDistinct_cons_of_mem hknown, ih h, eraseDups_append, eraseDups_append]
      simp [removeAll, hknown]
    have hnodup : (addresses ++ [address]).Nodup := by
      simpa using List.Nodup.concat hknown h
    rw [withDistinct_cons_of_not_mem hknown, ih hnodup, append_assoc, singleton_append]

def Agrees : Option Name → List Name → Prop
  | _, [] => True
  | before, target :: targets => (∀ name ∈ before, name = target) ∧ Agrees (some target) targets

theorem agrees_some_iff : Agrees (some name) targets ↔ ∀ target ∈ targets, target = name := by
  induction targets generalizing name with
  | nil => simp [Agrees]
  | cons target targets ih =>
    simp only [Agrees, ih, mem_def, some.injEq, forall_eq', forall_mem_cons]
    constructor
    · rintro ⟨rfl, hrest⟩
      exact ⟨rfl, hrest⟩
    · rintro ⟨rfl, hrest⟩
      exact ⟨rfl, hrest⟩

theorem agrees_none_iff {next : Name} :
    Agrees none targets ∧ targets.getLast? = some next ↔
      targets ≠ [] ∧ ∀ target ∈ targets, target = next := by
  rcases targets with _ | ⟨target, targets⟩
  · simp
  simp only [Agrees, Option.mem_def, reduceCtorEq, false_implies, implies_true, true_and,
    agrees_some_iff, ne_eq, not_false_eq_true]
  constructor
  · rintro ⟨hall, hlast⟩
    have hsame : ∀ name ∈ target :: targets, name = target := forall_mem_cons.mpr ⟨rfl, hall⟩
    rw [hsame next (mem_of_getLast? hlast)]
    exact hsame
  · intro hall
    obtain ⟨rfl, hrest⟩ := forall_mem_cons.mp hall
    refine ⟨hrest, ?_⟩
    obtain ⟨last, hlast⟩ : ∃ last, (target :: targets).getLast? = some last :=
      Option.isSome_iff_exists.mp (by simp)
    rw [hlast, hall last (mem_of_getLast? hlast)]

theorem foldlM_scanResource {records : List ResourceRecord} {scan scan' : Scan}
    (hlength : scan.answer.addresses.length ≤ maxAddresses) :
    records.foldlM (scanResource name) scan = some scan' ↔
      Agrees scan.aliasName (targetsOf records name) ∧
        (withDistinct scan.answer.addresses (addressesOf records name)).length ≤ maxAddresses ∧
        scan' = ⟨(targetsOf records name).getLast?.or scan.aliasName,
          withDistinct scan.answer.addresses (addressesOf records name),
          (ttlsOf records name).foldl min scan.answer.ttlSeconds⟩ := by
  induction records generalizing scan with
  | nil =>
    simp only [targetsOf, addressesOf, ttlsOf, filterMap_nil, Agrees, withDistinct,
      foldl_nil, hlength, true_and]
    exact ⟨fun h => (Option.some.inj h).symm, fun h => congrArg some h.symm⟩
  | cons record records ih =>
    obtain ⟨owner, data, ttl⟩ := record
    rw [foldlM_cons]
    by_cases howner : owner = name
    · subst howner
      cases data with
      | address address =>
        simp only [targetsOf, addressesOf, ttlsOf, filterMap_cons, ↓reduceIte, reduceCtorEq,
          ne_eq, not_false_eq_true, and_self, foldl_cons] at ih ⊢
        by_cases hknown : address ∈ scan.answer.addresses
        · rw [withDistinct_cons_of_mem hknown]
          have hadd : scanResource owner scan ⟨owner, .address address, ttl⟩ =
              some { scan with answer :=
                { scan.answer with ttlSeconds := min scan.answer.ttlSeconds ttl } } := by
            simp [scanResource, Answer.add, hknown, Except.toOption]
          rw [hadd]
          exact ih hlength
        · rw [withDistinct_cons_of_not_mem hknown]
          by_cases hfull : scan.answer.addresses.length = maxAddresses
          · have hadd : scanResource owner scan ⟨owner, .address address, ttl⟩ = none := by
              simp [scanResource, Answer.add, hknown, hfull, Except.toOption]
            have hgrows := length_le_withDistinct (scan.answer.addresses ++ [address])
              (addressesOf records owner)
            rw [length_append, length_singleton] at hgrows
            rw [hadd]
            refine ⟨by rintro ⟨⟩, ?_⟩
            rintro ⟨-, hbound, -⟩
            have hle := Nat.le_trans hgrows hbound
            omega
          · have hadd : scanResource owner scan ⟨owner, .address address, ttl⟩ =
                some { scan with answer :=
                  ⟨scan.answer.addresses ++ [address], min scan.answer.ttlSeconds ttl⟩ } := by
              simp [scanResource, Answer.add, hknown, hfull, Except.toOption]
            rw [hadd]
            apply ih
            simp only [length_append, length_singleton]
            omega
      | target target =>
        have hlast (targets : List Name) : (target :: targets).getLast?.or scan.aliasName =
            targets.getLast?.or (some target) := by
          rw [getLast?_cons]
          rcases targets.getLast? <;> rfl
        simp only [targetsOf, addressesOf, ttlsOf, filterMap_cons, ↓reduceIte, reduceCtorEq,
          ne_eq, not_false_eq_true, and_self, foldl_cons, Agrees, hlast] at ih ⊢
        by_cases hsame : ∀ name ∈ scan.aliasName, name = target
        · have hscan : scanResource owner scan ⟨owner, .target target, ttl⟩ =
              some
                { aliasName := some target
                  answer :=
                    { scan.answer with ttlSeconds := min scan.answer.ttlSeconds ttl } } := by
            have hany : scan.aliasName.any (· != target) = false := by
              rcases halias : scan.aliasName with _ | name
              · rfl
              · simpa using hsame name (by simp [halias])
            simp [scanResource, hany]
          rw [hscan, and_iff_right hsame]
          apply ih
          exact hlength
        · have hscan : scanResource owner scan ⟨owner, .target target, ttl⟩ = none := by
            rcases halias : scan.aliasName with _ | name
            · exact absurd (by simp [halias]) hsame
            · have hne : name ≠ target := by simpa [halias] using hsame
              simp [scanResource, halias, hne]
          rw [hscan]
          exact ⟨by rintro ⟨⟩, fun h => absurd h.1.1 hsame⟩
      | other =>
        simpa [scanResource, targetsOf, addressesOf, ttlsOf] using ih hlength
    · cases data <;>
        simpa [scanResource, targetsOf, addressesOf, ttlsOf, howner] using ih hlength

/-- The chain of a name is followed as far as there are passes left, and never back to a name it
came through. -/
theorem resolveFrom_ok_iff (hreads : List.Forall₂ (Reads packet) records resources)
    {left : Nat} {visited : List Name} {ttl : UInt32} {answer : Answer} :
    resolveFrom packet records left visited name ⟨[], ttl⟩ = .ok answer ↔
      ∃ chain addresses, Follows resources name chain addresses ∧ chain.length ≤ left ∧
        chain.Nodup ∧ (∀ n ∈ chain, n ∉ visited) ∧
        answer = ⟨addresses, (chain.flatMap (ttlsOf resources)).foldl min ttl⟩ := by
  induction left generalizing visited name ttl with
  | zero =>
    refine ⟨by rintro ⟨⟩, ?_⟩
    rintro ⟨chain, addresses, hfollows, hlength, -⟩
    cases hfollows <;> simp at hlength
  | succ left ih =>
    have hscan (scan : Scan) : records.foldlM (scanRecord packet name) ⟨none, [], ttl⟩ = .ok scan ↔
        Agrees none (targetsOf resources name) ∧
          (addressesOf resources name).eraseDups.length ≤ maxAddresses ∧
          scan = ⟨(targetsOf resources name).getLast?, (addressesOf resources name).eraseDups,
            (ttlsOf resources name).foldl min ttl⟩ := by
      rw [← toOption_eq_some_iff, scan_toOption hreads,
        foldlM_scanResource (by simp), withDistinct_eq_eraseDups nodup_nil, nil_append, or_none]
    unfold resolveFrom
    rw [bind_eq_ok_iff]
    simp only [rejectIf_eq_ok_iff, contains_eq_mem, decide_eq_false_iff_not]
    constructor
    · rintro ⟨_, hfresh, h⟩
      obtain ⟨scan, hscanned, h⟩ := bind_eq_ok_iff.mp h
      obtain ⟨hagrees, hbound, rfl⟩ := (hscan scan).mp hscanned
      split at h
      next next hlast =>
        obtain ⟨hnonempty, hone⟩ := agrees_none_iff.mp ⟨hagrees, hlast⟩
        obtain ⟨_, hnone, h⟩ := bind_eq_ok_iff.mp h
        obtain ⟨_, -, h⟩ := bind_eq_ok_iff.mp h
        have hempty : (addressesOf resources name).eraseDups = [] := by simpa using hnone
        rw [hempty] at h
        obtain ⟨chain, addresses, hfollows, hlength, hnodup, hvisited, rfl⟩ := ih.mp h
        refine ⟨name :: chain, addresses, .target hnonempty hone ?_ hfollows, ?_, ?_, ?_, ?_⟩
        · exact eraseDups_eq_nil_iff.mp hempty
        · simpa using hlength
        · refine nodup_cons.mpr ⟨fun hmem => hvisited name hmem (by simp), hnodup⟩
        · refine forall_mem_cons.mpr ⟨hfresh, fun n hn hold => ?_⟩
          exact hvisited n hn (by simp [hold])
        · rw [flatMap_cons, foldl_append]
      next hlast =>
        split at h
        · cases h
        rename_i hsome
        obtain rfl := pure_eq_ok_iff.mp h
        refine ⟨[name], _, .address (getLast?_eq_none_iff.mp hlast) ?_ hbound, by simp,
          nodup_singleton name, by simpa using hfresh, by simp⟩
        intro hnil
        rw [hnil] at hsome
        exact hsome rfl
    · rintro ⟨chain, addresses, hfollows, hlength, hnodup, hvisited, rfl⟩
      cases hfollows with
      | address htargets hnonempty hbound =>
        refine ⟨(), hvisited name (by simp), bind_eq_ok_iff.mpr ⟨_, (hscan _).mpr
          ⟨by rw [htargets]; trivial, hbound, rfl⟩, ?_⟩⟩
        have hsome : (addressesOf resources name).eraseDups ≠ [] :=
          fun hnil => hnonempty (eraseDups_eq_nil_iff.mp hnil)
        rw [htargets]
        simp [hsome, pure, Except.pure]
      | @target _ next chain _ hnonempty hone haddresses hrest =>
        obtain ⟨hagrees, hlast⟩ := agrees_none_iff.mpr ⟨hnonempty, hone⟩
        obtain ⟨hnew, hnodup⟩ := nodup_cons.mp hnodup
        obtain ⟨hfresh, hvisited⟩ := forall_mem_cons.mp hvisited
        have hscanned := (hscan _).mpr ⟨hagrees, by rw [haddresses]; simp, rfl⟩
        refine ⟨(), hfresh, bind_eq_ok_iff.mpr ⟨_, hscanned, ?_⟩⟩
        have hpass : left ≠ 0 := by
          rintro rfl
          cases hrest <;> simp at hlength
        have hchain : ∀ n ∈ chain, n ∉ visited ++ [name] := by
          intro n hn hmem
          rcases mem_append.mp hmem with hold | hname
          · exact hvisited n hn hold
          · exact hnew (mem_singleton.mp hname ▸ hn)
        have hloop : resolveFrom packet records left (visited ++ [name]) next
            ⟨[], (ttlsOf resources name).foldl min ttl⟩ =
            .ok ⟨addresses, ((name :: chain).flatMap (ttlsOf resources)).foldl min ttl⟩ := by
          refine ih.mpr ⟨chain, addresses, hrest, by simpa using hlength, hnodup, hchain, ?_⟩
          rw [flatMap_cons, foldl_append]
        rw [hlast, haddresses]
        simpa [rejectIf, hpass, bind, Except.bind] using hloop

end SlimeOs.Dns
