import SlimeOs.DnsAnswers

/-!
The answer to a question: the response is well formed and echoes it, the alias chain from the
question ends at a name with addresses, and the answer has the distinct addresses of that name and
the least time to live of the records used. The reader answers exactly this, and comes back from
every packet without a panic.
-/

namespace SlimeOs.Dns

open FallibleCall FallibleCall.Outcome List Option

/-- A response to the question that is well formed and reports no error, with the records of its
answer section and those of the other two. -/
structure Response (packet : List UInt8) (id : UInt16) (question : Name)
    (answers others : List ResourceRecord) : Prop where
  length_le : packet.length ≤ maxPacketBytes
  echoed : word? packet 0 = some id
  /-- A response bit, and no opcode, reserved, truncation or response code bit. -/
  flags : ∃ flags, word? packet 2 = some flags ∧ flags &&& 0x8000 ≠ 0 ∧ flags &&& 0x7840 = 0 ∧
    flags &&& 0x0200 = 0 ∧ flags &&& 0xf = 0
  questions : word? packet 4 = some 1
  records : ∃ cursor, NameIn packet headerBytes question cursor ∧
    word? packet cursor = some typeA ∧ word? packet (cursor + 2) = some classIn ∧
    RecordsAt packet (cursor + 4) (answers ++ others) packet.length
  answers_length : ∃ count, word? packet 6 = some count ∧ count.toNat = answers.length
  others_length : ∃ authorities additionals, word? packet 8 = some authorities ∧
    word? packet 10 = some additionals ∧ authorities.toNat + additionals.toNat = others.length
  bounded : answers.length + others.length ≤ maxRecords

/-- The least time to live of the records used on a chain. -/
def IsLeastTtl (records : List ResourceRecord) (chain : List Name) (ttl : UInt32) : Prop :=
  (∃ record ∈ records, record.owner ∈ chain ∧ record.data ≠ .other ∧ record.ttl = ttl) ∧
    ∀ record ∈ records, record.owner ∈ chain → record.data ≠ .other → ttl ≤ record.ttl

/-- The answer of a response: the addresses at the end of the alias chain of the question. -/
structure Answers (packet : List UInt8) (id : UInt16) (host : List UInt8)
    (answers others : List ResourceRecord) (chain : List Name) (answer : Answer) : Prop where
  response : ∃ question, Host host question ∧ Response packet id question answers others ∧
    Follows answers question chain answer.addresses
  nodup : chain.Nodup
  length_le : chain.length ≤ maxAliases + 1
  ttl : IsLeastTtl answers chain answer.ttlSeconds

/-- What the header and the question have to be for the records to be read. -/
def HeaderAt (packet : List UInt8) (id : UInt16) (question : Name) (cursor : Nat) : Prop :=
  headerBytes ≤ packet.length ∧ packet.length ≤ maxPacketBytes ∧ word? packet 0 = some id ∧
    (∃ flags, word? packet 2 = some flags ∧ flags &&& 0x8000 ≠ 0 ∧ flags &&& 0x7840 = 0 ∧
      flags &&& 0x0200 = 0 ∧ flags &&& 0xf = 0) ∧
    word? packet 4 = some 1 ∧ NameIn packet headerBytes question cursor ∧
    word? packet cursor = some typeA ∧ word? packet (cursor + 2) = some classIn

variable {packet host : List UInt8} {names chain chain' : List Name} {name : Name} {id : UInt16}
  {records answers others records' : List ResourceRecord} {ttl : UInt32} {addresses : List Address}
  {offset : Nat} {answer : Answer}

theorem checkHeader_ok_iff {question : Name} {next : Nat} :
    checkHeader packet id question = .ok next ↔
      ∃ cursor, HeaderAt packet id question cursor ∧ cursor + 4 = next := by
  unfold checkHeader word
  simp only [bind_eq_ok_iff, okOr_eq_ok_iff, rejectIf_eq_ok_iff,
    pure_eq_ok_iff, Bool.or_eq_false_iff, decide_eq_false_iff_not, not_lt,
    bne_eq_false_iff_eq, beq_eq_false_iff_ne, exists_and_left, exists_const]
  constructor
  · rintro ⟨⟨hlow, hhigh⟩, _, hid, rfl, flags, hflags, ⟨hresponse, hopcode⟩, _, hcount, rfl,
      ⟨name, cursor⟩, hname, rfl, _, hkind, rfl, _, hclass, rfl, htruncated, -, hcode, rfl⟩
    exact ⟨cursor, ⟨hlow, hhigh, hid, ⟨flags, hflags, hresponse, hopcode, htruncated, hcode⟩,
      hcount, readName_ok_iff.mp hname, hkind, hclass⟩, rfl⟩
  rintro ⟨cursor, ⟨hlow, hhigh, hid, ⟨flags, hflags, hresponse, hopcode, htruncated, hcode⟩,
    hcount, hname, hkind, hclass⟩, rfl⟩
  refine ⟨⟨hlow, hhigh⟩, id, hid, rfl, flags, hflags, ⟨hresponse, hopcode⟩, 1, hcount, rfl,
    (question, cursor), readName_ok_iff.mpr hname, rfl, typeA, hkind, rfl, classIn, hclass, rfl,
    htruncated, ?_, hcode, rfl⟩
  rw [hcode]
  decide

theorem mem_ttls : ttl ∈ chain.flatMap (ttlsOf records) ↔
      ∃ record ∈ records, record.owner ∈ chain ∧ record.data ≠ .other ∧ record.ttl = ttl := by
  simp only [mem_flatMap, ttlsOf, mem_filterMap, ite_none_right_eq_some, some.injEq]
  constructor
  · rintro ⟨-, hname, record, hrecord, ⟨rfl, hdata⟩, rfl⟩
    exact ⟨record, hrecord, hname, hdata, rfl⟩
  · rintro ⟨record, hrecord, howner, hdata, rfl⟩
    exact ⟨record.owner, howner, record, hrecord, ⟨rfl, hdata⟩, rfl⟩

theorem isLeastTtl_iff (hused : chain.flatMap (ttlsOf records) ≠ []) :
    IsLeastTtl records chain ttl ↔ (chain.flatMap (ttlsOf records)).foldl min 0xffffffff = ttl := by
  obtain ⟨hleast, hle⟩ := min?_eq_some_iff.mp
    (show (0xffffffff :: chain.flatMap (ttlsOf records)).min? = some _ from rfl)
  have hle ttl hmem := hle ttl (mem_cons_of_mem _ hmem)
  have hmem : (chain.flatMap (ttlsOf records)).foldl min 0xffffffff ∈
      chain.flatMap (ttlsOf records) := by
    rcases mem_cons.mp hleast with heq | hmem
    · obtain ⟨used, hmem⟩ := exists_mem_of_ne_nil _ hused
      have hge := hle used hmem
      rw [heq] at hge ⊢
      have hlt := used.toNat_lt
      have heq' : used = 0xffffffff := by
        apply UInt32.toNat_inj.mp
        have hge' := UInt32.le_iff_toNat_le.mp hge
        change 4294967295 ≤ used.toNat at hge'
        change used.toNat = 4294967295
        omega
      rwa [heq'] at hmem
    · exact hmem
  constructor
  · rintro ⟨hfound, hleast⟩
    obtain ⟨record, hrecord, howner, hdata, httl⟩ := mem_ttls.mp hmem
    apply UInt32.le_antisymm (hle ttl (mem_ttls.mpr hfound))
    rw [← httl]
    exact hleast record hrecord howner hdata
  · rintro rfl
    refine ⟨mem_ttls.mp hmem, ?_⟩
    intro record hrecord howner hdata
    exact hle record.ttl (mem_ttls.mpr ⟨record, hrecord, howner, hdata, rfl⟩)

theorem Follows.ttls_ne_nil (h : Follows records name chain addresses) :
    chain.flatMap (ttlsOf records) ≠ [] := by
  induction h with
  | @address name htargets hnonempty hbound =>
    obtain ⟨address, hmem⟩ := exists_mem_of_ne_nil _ hnonempty
    obtain ⟨record, hrecord, hmatch⟩ := mem_filterMap.mp hmem
    split at hmatch
    next hdata =>
      have howner : record.owner = name := by
        by_contra hne
        simp [hne] at hmatch
      refine ne_nil_of_mem (mem_ttls.mpr ⟨record, hrecord, ?_, ?_, rfl⟩)
      · simp [howner]
      · rw [hdata]
        exact nofun
    · nomatch hmatch
  | target _ _ _ _ ih =>
    exact append_ne_nil_of_right_ne_nil _ ih

theorem settles_word : (word packet offset).Settles :=
  settles_okOr

theorem settles_checkHeader (packet : List UInt8) (id : UInt16) (question : Name) :
    (checkHeader packet id question).Settles := by
  apply settles_check
  refine settles_bind settles_word fun _ _ => ?_
  apply settles_check
  refine settles_bind settles_word fun _ _ => ?_
  apply settles_check
  refine settles_bind settles_word fun _ _ => ?_
  apply settles_check
  refine settles_bind settles_readName fun _ _ => ?_
  apply settles_check
  refine settles_bind settles_word fun _ _ => ?_
  apply settles_check
  refine settles_bind settles_word fun _ _ => ?_
  apply settles_check
  apply settles_check
  apply settles_check
  apply settles_check
  exact settles_pure _

theorem settles_checkData (packet : List UInt8) (kind dataClass : UInt16) (len cursor : Nat) :
    (checkData packet kind dataClass len cursor).Settles := by
  unfold checkData checkAlias
  split
  · apply settles_check
    apply settles_check
    split
    · exact settles_bind settles_readName fun _ _ => settles_rejectIf
    · exact settles_pure _
  · exact settles_pure _

theorem settles_readRecord (packet : List UInt8) (owner : Nat) :
    (readRecord packet owner).Settles := by
  refine settles_bind settles_readName fun _ _ => ?_
  refine settles_bind settles_word fun _ _ => ?_
  refine settles_bind settles_word fun _ _ => ?_
  refine settles_bind settles_okOr fun _ _ => ?_
  refine settles_bind settles_word fun _ _ => ?_
  apply settles_check
  exact settles_bind (settles_checkData _ _ _ _ _) fun _ _ => settles_pure _

theorem DataAt.address_stop {dataClass : UInt16} {data stop : Nat}
    {resource : RecordData} (h : DataAt packet typeA dataClass data stop resource) :
    data + 4 = stop := by
  generalize hkind : typeA = kind at h
  cases h with
  | address => rfl
  | target _ _ => exact absurd hkind (by decide)
  | other haddress _ => exact absurd hkind.symm haddress

theorem Reads.settles_scanRecord {record : Record}
    {resource : ResourceRecord} (h : Reads packet record resource) (name : Name) (scan : Scan) :
    (scanRecord packet name scan record).Settles := by
  apply settles_bind settles_readName
  rintro ⟨-, _⟩ -
  dsimp only
  split
  · exact settles_pure _
  split
  next hkind =>
    have haddress : addressAt packet record.data = .ok (ByteLayout.field packet record.data 4) := by
      obtain ⟨_, stop, hdata, hstop⟩ := h.data
      rw [show record.kind = typeA by simpa using hkind] at hdata
      rw [← hdata.address_stop] at hstop
      exact if_pos hstop
    rw [haddress]
    refine settles_bind nofun fun address _ => ?_
    refine settles_bind ?_ fun _ _ => settles_pure _
    unfold Answer.add
    split
    · exact nofun
    · split
      · exact settles_error _
      · exact nofun
  · split
    · refine settles_bind settles_readName fun _ _ => ?_
      exact settles_bind settles_rejectIf fun _ _ => settles_pure _
    · exact settles_pure _

theorem settles_resolveFrom {records : List Record}
    {resources : List ResourceRecord} (h : List.Forall₂ (Reads packet) records resources)
    (left : Nat) (visited : List Name) (name : Name) (answer : Answer) :
    (resolveFrom packet records left visited name answer).Settles := by
  have hreads : ∀ record ∈ records, ∃ resource, Reads packet record resource := by
    intro record hrecord
    induction h with
    | nil => nomatch hrecord
    | cons hhead _ ih =>
      rcases mem_cons.mp hrecord with rfl | hrecord
      · exact ⟨_, hhead⟩
      · exact ih hrecord
  induction left generalizing visited name answer with
  | zero => exact settles_error _
  | succ left ih =>
    apply settles_check
    refine settles_bind (settles_fold fun record hrecord scan => ?_) ?_
    · obtain ⟨resource, hresource⟩ := hreads record hrecord
      exact hresource.settles_scanRecord name scan
    intro scan _
    split
    · apply settles_check
      apply settles_check
      exact ih _ _ _
    · split
      · exact settles_error _
      · exact settles_pure _

theorem settles_parseResponse (packet : List UInt8) (id : UInt16) (host : List UInt8) :
    (parseResponse packet id host).Settles := by
  refine settles_bind (settles_fromHost host) fun question _ => ?_
  refine settles_bind (settles_checkHeader packet id question) fun cursor _ => ?_
  refine settles_bind settles_word fun answers _ => ?_
  refine settles_bind settles_word fun authorities _ => ?_
  refine settles_bind settles_word fun additionals _ => ?_
  apply settles_check
  refine settles_bind (settles_fold fun _ _ walked => ?_) ?_
  · exact settles_bind (settles_readRecord packet walked.2) fun _ _ => settles_pure _
  rintro ⟨records, next⟩ hwalked
  obtain ⟨resources, -, -, hreads⟩ := walkRecords_ok hwalked
  apply settles_check
  exact settles_resolveFrom hreads _ _ _ _

theorem length_of_word? {value : UInt16}
    (h : word? packet offset = some value) : offset + 2 ≤ packet.length := by
  obtain ⟨bytes, hpart, -⟩ := map_eq_some_iff.mp h
  exact (ByteRange.part_eq_of_part?_eq hpart).1

theorem parseResponse_ok (h : parseResponse packet id host = .ok answer) :
    ∃ answers others chain, Answers packet id host answers others chain answer := by
  obtain ⟨question, hhost, h⟩ := bind_eq_ok_iff.mp h
  obtain ⟨next, hheader, h⟩ := bind_eq_ok_iff.mp h
  obtain ⟨answers, hanswers, h⟩ := bind_eq_ok_iff.mp h
  obtain ⟨authorities, hauthorities, h⟩ := bind_eq_ok_iff.mp h
  obtain ⟨additionals, hadditionals, h⟩ := bind_eq_ok_iff.mp h
  obtain ⟨_, htotal, h⟩ := bind_eq_ok_iff.mp h
  obtain ⟨⟨records, stop⟩, hwalked, h⟩ := bind_eq_ok_iff.mp h
  obtain ⟨_, hstop, hresolve⟩ := bind_eq_ok_iff.mp h
  obtain ⟨cursor, ⟨-, hlength, hid, hflags, hcount, hname, hkind, hclass⟩, rfl⟩ :=
    checkHeader_ok_iff.mp hheader
  rw [rejectIf_eq_ok_iff, decide_eq_false_iff_not] at htotal
  obtain rfl : stop = packet.length := by simpa using hstop
  obtain ⟨resources, hresources, hresourcesLength, hreads⟩ := walkRecords_ok hwalked
  obtain ⟨chain, addresses, hfollows, hchain, hnodup, -, rfl⟩ :=
    (resolveFrom_ok_iff hreads).mp hresolve
  have htake : (resources.take answers.toNat).length = answers.toNat := by
    rw [length_take]
    omega
  have hdrop : (resources.drop answers.toNat).length = authorities.toNat + additionals.toNat := by
    rw [length_drop]
    omega
  refine ⟨resources.take answers.toNat, resources.drop answers.toNat, chain, ⟨question,
    fromHost_ok_iff.mp hhost, ⟨hlength, hid, hflags, hcount, ⟨cursor, hname, hkind, hclass, ?_⟩,
      ⟨answers, okOr_eq_ok_iff.mp hanswers, htake.symm⟩,
      ⟨authorities, additionals, okOr_eq_ok_iff.mp hauthorities,
        okOr_eq_ok_iff.mp hadditionals, hdrop.symm⟩, ?_⟩, hfollows⟩, hnodup, hchain,
      (isLeastTtl_iff hfollows.ttls_ne_nil).mpr rfl⟩
  · rw [take_append_drop]
    exact hresources
  · omega

theorem Answers.parse (h : Answers packet id host answers others chain answer) :
    parseResponse packet id host = .ok answer := by
  obtain ⟨question, hhost, hresponse, hfollows⟩ := h.response
  obtain ⟨cursor, hname, hkind, hclass, hrecords⟩ := hresponse.records
  obtain ⟨count, hanswers, hcount⟩ := hresponse.answers_length
  obtain ⟨authorities, additionals, hauthorities, hadditionals, hothers⟩ := hresponse.others_length
  have hlow := length_of_word? hadditionals
  have hquestion := fromHost_ok_iff.mpr hhost
  have hheader :=
    checkHeader_ok_iff.mpr ⟨cursor, ⟨hlow, hresponse.length_le, hresponse.echoed, hresponse.flags,
      hresponse.questions, hname, hkind, hclass⟩, rfl⟩
  obtain ⟨records, hwalked, hreads⟩ := hrecords.walk count.toNat
  have htotal : (answers ++ others).length =
      count.toNat + authorities.toNat + additionals.toNat := by
    rw [length_append]
    omega
  rw [hcount, take_left] at hreads
  have hresolve : resolve packet records question = .ok answer := by
    refine (resolveFrom_ok_iff hreads).mpr
      ⟨chain, answer.addresses, hfollows, h.length_le, h.nodup, nofun, ?_⟩
    rw [(isLeastTtl_iff hfollows.ttls_ne_nil).mp h.ttl]
  have hbound : rejectIf (decide (maxRecords < count.toNat + authorities.toNat +
      additionals.toNat)) Error.bounds = .ok () := by
    rw [rejectIf_eq_ok_iff, decide_eq_false_iff_not]
    have hbounded := hresponse.bounded
    omega
  rw [htotal] at hwalked
  have hend : rejectIf (packet.length != packet.length) Error.malformed = .ok () := by
    simp
  unfold parseResponse word
  simp only [hquestion, hheader, hanswers, hauthorities, hadditionals, okOr, bind,
    Except.bind, hbound, hwalked, hend]
  exact hresolve

def ownedBy (names : List Name) (records : List ResourceRecord) : List ResourceRecord :=
  records.filter fun record => record.owner ∈ names

section

variable (hsame : ownedBy names records = ownedBy names records')
include hsame

section

variable (hname : name ∈ names)
include hname

theorem of_ownedBy {α : Type}
    {select : ResourceRecord → Option α} (hselect : ∀ record, record.owner ≠ name →
      select record = none) : records.filterMap select = records'.filterMap select := by
  have hfilter (records : List ResourceRecord) :
      (ownedBy names records).filterMap select = records.filterMap select := by
    unfold ownedBy
    rw [filterMap_filter]
    refine filterMap_congr fun record _ => ?_
    split
    · rfl
    next hnot =>
      refine (hselect record fun howner => ?_).symm
      simp [howner, hname] at hnot
  rw [← hfilter records, hsame, hfilter records']

theorem targetsOf_congr : targetsOf records name = targetsOf records' name := by
  refine of_ownedBy hsame hname fun record howner => ?_
  split <;> simp [howner]

theorem addressesOf_congr : addressesOf records name = addressesOf records' name := by
  refine of_ownedBy hsame hname fun record howner => ?_
  split <;> simp [howner]

theorem ttlsOf_congr : ttlsOf records name = ttlsOf records' name := by
  refine of_ownedBy hsame hname fun record howner => ?_
  simp [howner]

end

end

theorem Follows.congr (h : Follows records name chain addresses)
    (hnames : ∀ n ∈ chain, n ∈ names) (hsame : ownedBy names records = ownedBy names records') :
    Follows records' name chain addresses := by
  induction h with
  | @address name htargets hnonempty hbound =>
    have hname := hnames name (by simp)
    rw [targetsOf_congr hsame hname] at htargets
    rw [addressesOf_congr hsame hname] at hnonempty hbound ⊢
    exact .address htargets hnonempty hbound
  | @target name next chain addresses hnonempty hone haddresses _ ih =>
    have hname := hnames name (by simp)
    rw [targetsOf_congr hsame hname] at hnonempty hone
    rw [addressesOf_congr hsame hname] at haddresses
    exact .target hnonempty hone haddresses (ih fun n hn => hnames n (by simp [hn]))

theorem Follows.unique {addresses' : List Address} (h : Follows records name chain addresses)
    (h' : Follows records name chain' addresses') : chain = chain' ∧ addresses = addresses' := by
  induction h generalizing chain' with
  | address htargets hnonempty hbound =>
    cases h' with
    | address => exact ⟨rfl, rfl⟩
    | target hnonempty' => exact absurd htargets hnonempty'
  | @target name next chain addresses hnonempty hone haddresses hrest ih =>
    cases h' with
    | address htargets => exact absurd htargets hnonempty
    | @target _ next' chain' _ _ hone' _ hrest' =>
      obtain ⟨target, htarget⟩ := exists_mem_of_ne_nil _ hnonempty
      obtain rfl := (hone target htarget).symm.trans (hone' target htarget)
      obtain ⟨rfl, rfl⟩ := ih hrest'
      exact ⟨rfl, rfl⟩

/-- Two responses to one question with the same records for the names on the chain of the first give
the same answer. -/
theorem Answers.unique {packet' : List UInt8} {id' : UInt16}
    {answers' others' : List ResourceRecord}
    {answer' : Answer} (h : Answers packet id host answers others chain answer)
    (h' : Answers packet' id' host answers' others' chain' answer')
    (hsame : ownedBy chain answers = ownedBy chain answers') : answer = answer' := by
  obtain ⟨question, hhost, -, hfollows⟩ := h.response
  obtain ⟨question', hhost', -, hfollows'⟩ := h'.response
  obtain rfl := Except.ok.inj ((fromHost_ok_iff.mpr hhost).symm.trans (fromHost_ok_iff.mpr hhost'))
  obtain ⟨rfl, haddresses⟩ := (hfollows.congr (fun _ hn => hn) hsame).unique hfollows'
  have httls := flatMap_congr fun name hname => ttlsOf_congr hsame hname
  have httl := (isLeastTtl_iff hfollows.ttls_ne_nil).mp h.ttl
  have httl' := (isLeastTtl_iff hfollows'.ttls_ne_nil).mp h'.ttl
  rw [httls] at httl
  obtain ⟨addresses, ttl⟩ := answer
  obtain ⟨addresses', ttl'⟩ := answer'
  obtain rfl := haddresses
  obtain rfl := httl.symm.trans httl'
  rfl

/-- The reader comes back from every packet, and what it answers is the terminal address set of the
alias chain of the question. -/
theorem parseResponse_correct (packet : List UInt8) (id : UInt16) (host : List UInt8) :
    (parseResponse packet id host).Settles ∧
      (∀ answer, parseResponse packet id host = .ok answer ↔
        ∃ answers others chain, Answers packet id host answers others chain answer) ∧
      ∀ (packet' : List UInt8) (id' : UInt16)
        (answers answers' others others' : List ResourceRecord) (chain chain' : List Name)
        (answer answer' : Answer), Answers packet id host answers others chain answer →
        Answers packet' id' host answers' others' chain' answer' →
        ownedBy chain answers = ownedBy chain answers' → answer = answer' := by
  refine ⟨settles_parseResponse packet id host, fun answer => ⟨parseResponse_ok, ?_⟩, ?_⟩
  · rintro ⟨answers, others, chain, hanswers⟩
    exact hanswers.parse
  · intro packet' id' answers answers' others others' chain chain' answer answer' h h' hsame
    exact h.unique h' hsame

/-- The question is an alias of a name in the same zone, which has one address. -/
example :
    parseResponse
      ([0, 7, 0x81, 0x80, 0, 1, 0, 2, 0, 0, 0, 0] ++ [1, 65, 1, 98, 0, 0, 1, 0, 1] ++
        [0xc0, 12, 0, 5, 0, 1, 0, 0, 0, 60, 0, 4, 1, 120, 0xc0, 14] ++
        [0xc0, 33, 0, 1, 0, 1, 0, 0, 0, 30, 0, 4, 10, 0, 0, 1]) 7 [97, 46, 66] =
      .ok ⟨[#v[10, 0, 0, 1]], 30⟩ := by
  decide +kernel

end SlimeOs.Dns
