import SlimeOs.DnsResponse

/-!
What a name in a packet is: labels one after the other, where a pointer goes on at an earlier
place. The reader accepts exactly the names with host labels, at most 64 bytes and at most 16
pointers, and comes back from every packet.
-/

namespace SlimeOs.Dns

open Bool ByteRange FallibleCall FallibleCall.Outcome List Name

structure HostLabel (label : List UInt8) : Prop where
  nonempty : label ≠ []
  length_le : label.length ≤ 63
  bytes : ∀ byte ∈ label, isLabelByte byte = true

def lowered (label : List UInt8) : List UInt8 := label.map toAsciiLowercase

def text (labels : List (List UInt8)) : List UInt8 := [dot].intercalate labels

theorem dot_eq_toAsciiLowercase {byte : UInt8} (h : toAsciiLowercase byte = dot) : byte = dot := by
  have hall : ∀ n < 256, toAsciiLowercase (UInt8.ofNat n) = dot → UInt8.ofNat n = dot := by
    decide +kernel
  have hbyte := hall byte.toNat byte.toNat_lt
  rw [UInt8.ofNat_toNat] at hbyte
  exact hbyte h

def Plain (labels : List (List UInt8)) : Prop := ∀ label ∈ labels, label ≠ [] ∧ dot ∉ label

variable {label packet : List UInt8} {name name' : Name} {labels written : List (List UInt8)}
  {position hops : Nat} {cursor : Option Nat}

theorem HostLabel.dot_not_mem (h : HostLabel label) : dot ∉ label := by
  intro hdot
  exact absurd (h.bytes dot hdot) (by decide)

theorem HostLabel.plain (h : HostLabel label) : lowered label ≠ [] ∧ dot ∉ lowered label := by
  refine ⟨by simpa [lowered] using h.nonempty, ?_⟩
  intro hdot
  obtain ⟨byte, hbyte, hlower⟩ := List.mem_map.mp hdot
  rw [dot_eq_toAsciiLowercase hlower] at hbyte
  exact h.dot_not_mem hbyte

def joined (bytes : List UInt8) (labels : List (List UInt8)) : List UInt8 :=
  labels.foldl (fun bytes label => bytes ++ (if bytes.isEmpty then [] else [dot]) ++ label) bytes

theorem joined_cons (bytes label : List UInt8) (labels : List (List UInt8)) :
    joined bytes (lowered label :: labels) = joined (extended bytes label) labels := rfl

theorem joined_of_ne_nil {bytes : List UInt8} (h : bytes ≠ []) (labels : List (List UInt8)) :
    joined bytes labels = bytes ++ labels.flatMap (dot :: ·) := by
  induction labels generalizing bytes with
  | nil => simp [joined]
  | cons label labels ih =>
    have hstep : joined bytes (label :: labels) = joined (bytes ++ [dot] ++ label) labels := by
      simp [joined, h]
    rw [hstep, ih (by simp)]
    simp

theorem length_le_joined (bytes : List UInt8) (labels : List (List UInt8)) :
    bytes.length ≤ (joined bytes labels).length := by
  induction labels generalizing bytes with
  | nil => exact le_refl _
  | cons label labels ih =>
    refine le_trans ?_ (ih _)
    simp only [length_append]
    omega

theorem joined_nil (h : Plain labels) : joined [] labels = text labels := by
  rcases labels with _ | ⟨label, labels⟩
  · rfl
  have hne := (h label (by simp)).1
  have hstep : joined [] (label :: labels) = joined label labels := by simp [joined]
  rw [hstep, joined_of_ne_nil hne]
  clear hstep h hne
  induction labels generalizing label with
  | nil => simp [text, intercalate]
  | cons second labels ih =>
    have hrest := ih second
    simp only [text, intercalate, intersperse_cons_cons, flatten_cons, flatMap_cons] at hrest ⊢
    rw [← hrest]
    simp

theorem label_eq_ok_iff :
    name.label label = .ok name' ↔
      HostLabel label ∧ Name.extended name.bytes label = name'.bytes := by
  unfold Name.label
  have hcheck : (label.isEmpty || decide (63 < label.length) || !label.all isLabelByte) = false ↔
      HostLabel label := by
    simp only [or_eq_false_iff, not_eq_false', List.all_eq_true, decide_eq_false_iff_not,
      not_lt, isEmpty_eq_false_iff]
    exact ⟨fun h => ⟨h.1.1, h.1.2, h.2⟩, fun h => ⟨⟨h.nonempty, h.length_le⟩, h.bytes⟩⟩
  split
  next hbad =>
    refine ⟨nofun, ?_⟩
    rintro ⟨hhost, -⟩
    rw [hcheck.mpr hhost] at hbad
    nomatch hbad
  next hgood =>
    have hhost := hcheck.mp (by simpa using hgood)
    split
    · constructor
      · intro h
        obtain rfl := Except.ok.inj h
        exact ⟨hhost, rfl⟩
      rintro ⟨-, hbytes⟩
      obtain ⟨bytes, hbound⟩ := name'
      obtain rfl := hbytes
      rfl
    next hlong =>
      refine ⟨nofun, ?_⟩
      rintro ⟨-, hbytes⟩
      rw [hbytes] at hlong
      exact absurd name'.bound hlong

theorem Name.ext (h : name.bytes = name'.bytes) : name = name' := by
  obtain ⟨bytes, _⟩ := name
  obtain ⟨bytes', _⟩ := name'
  obtain rfl := h
  rfl

theorem HostLabel.extended_length (h : HostLabel label) (bytes : List UInt8) :
    bytes.length < (extended bytes label).length := by
  have hpos := length_pos_of_ne_nil h.nonempty
  simp only [extended, length_append, length_map]
  omega

/-- The name at a position: how many pointers it takes, its labels and where it ends. -/
inductive NameAt (packet : List UInt8) : Nat → Nat → List (List UInt8) → Nat → Prop
  | root {position : Nat} (htag : packet[position]? = some 0) :
      NameAt packet position 0 [] (position + 1)
  | label {position hops next : Nat} {tag : UInt8} {data : List UInt8}
      {labels : List (List UInt8)} (htag : packet[position]? = some tag) (hkind : tag &&& 0xc0 = 0)
      (hne : tag ≠ 0) (hdata : part? packet (position + 1) tag.toNat = some data)
      (hhost : HostLabel data)
      (hrest : NameAt packet (position + 1 + tag.toNat) hops labels next) :
      NameAt packet position hops (lowered data :: labels) next
  | pointer {position hops next : Nat} {tag : UInt8} {target : UInt16}
      {labels : List (List UInt8)} (htag : packet[position]? = some tag)
      (hkind : tag &&& 0xc0 = 0xc0) (htarget : word? packet position = some target)
      (hheader : headerBytes ≤ (target &&& 0x3fff).toNat)
      (hback : (target &&& 0x3fff).toNat < position)
      (hrest : NameAt packet (target &&& 0x3fff).toNat hops labels next) :
      NameAt packet position (hops + 1) labels (position + 2)

theorem NameAt.plain {next : Nat} (h : NameAt packet position hops labels next) : Plain labels := by
  induction h with
  | root => exact nofun
  | label _ _ _ _ hhost _ ih =>
    intro label hlabel
    rcases mem_cons.mp hlabel with rfl | hlabel
    · exact hhost.plain
    · exact ih label hlabel
  | pointer _ _ _ _ _ _ ih => exact ih

def NameIn (packet : List UInt8) (position : Nat) (name : Name) (next : Nat) : Prop :=
  ∃ hops labels, NameAt packet position hops labels next ∧ hops ≤ maxPointerHops ∧
    text labels = name.bytes

theorem readNameFrom_ok_iff {fuel : Nat} (hhops : hops ≤ maxPointerHops)
    (hfuel : (maxPointerHops - hops) + (maxNameBytes - name.bytes.length) < fuel) {next' : Nat} :
    readNameFrom packet fuel name position cursor hops = .ok (name', next') ↔
      ∃ more labels next, NameAt packet position more labels next ∧
        hops + more ≤ maxPointerHops ∧ joined name.bytes labels = name'.bytes ∧
        cursor.getD next = next' := by
  induction fuel generalizing name position cursor hops with
  | zero => omega
  | succ fuel ih =>
    unfold readNameFrom
    rw [bind_eq_ok_iff]
    simp only [okOr_eq_ok_iff]
    constructor
    · rintro ⟨tag, htag, hread⟩
      split at hread
      next hkind =>
        have hpointer : tag &&& 0xc0 = 0xc0 := by simpa using hkind
        obtain ⟨target, htarget, hread⟩ := bind_eq_ok_iff.mp hread
        obtain ⟨_, hrange, hread⟩ := bind_eq_ok_iff.mp hread
        obtain ⟨_, hcap, hread⟩ := bind_eq_ok_iff.mp hread
        simp only [rejectIf_eq_ok_iff, or_eq_false_iff, decide_eq_false_iff_not,
          not_lt, not_le] at hrange hcap
        obtain ⟨more, labels, next, hname, hmore, hbytes, hnext⟩ := (ih hcap (by omega)).mp hread
        refine ⟨more + 1, labels, position + 2, ?_, by omega, hbytes, by simpa using hnext⟩
        exact .pointer htag hpointer (okOr_eq_ok_iff.mp htarget) hrange.1 hrange.2 hname
      · split at hread
        · cases hread
        rename_i hkind
        have hplain : tag &&& 0xc0 = 0 := by simpa using hkind
        split at hread
        next hroot =>
          obtain rfl : tag = 0 := by simpa using hroot
          obtain ⟨rfl, rfl⟩ : name = name' ∧ cursor.getD (position + 1) = next' := by
            simpa using pure_eq_ok_iff.mp hread
          exact ⟨0, [], position + 1, .root htag, hhops, rfl, rfl⟩
        next hroot =>
          obtain ⟨data, hdata, hread⟩ := bind_eq_ok_iff.mp hread
          obtain ⟨longer, hlabel, hread⟩ := bind_eq_ok_iff.mp hread
          obtain ⟨hhost, hlonger⟩ := label_eq_ok_iff.mp hlabel
          have hgrows := hhost.extended_length name.bytes
          rw [hlonger] at hgrows
          have hbound := longer.bound
          obtain ⟨more, labels, next, hname, hmore, hbytes, hnext⟩ := (ih hhops (by omega)).mp hread
          refine ⟨more, lowered data :: labels, next, ?_, hmore, ?_, hnext⟩
          · exact .label htag hplain (by simpa using hroot)
              (okOr_eq_ok_iff.mp hdata) hhost hname
          · rw [joined_cons, hlonger]
            exact hbytes
    · rintro ⟨more, labels, next, hname, hmore, hbytes, hnext⟩
      cases hname with
      | root htag =>
        obtain rfl := ext hbytes
        refine ⟨0, htag, ?_⟩
        rw [← hnext]
        rfl
      | @label _ _ _ tag data rest htag hkind hne hdata hhost hrest =>
        refine ⟨tag, htag, ?_⟩
        rw [joined_cons] at hbytes
        have hfit : (extended name.bytes data).length ≤ maxNameBytes := by
          apply le_trans (length_le_joined _ rest)
          rw [hbytes]
          exact name'.bound
        have hlabel : name.label data = .ok ⟨extended name.bytes data, hfit⟩ :=
          label_eq_ok_iff.mpr ⟨hhost, rfl⟩
        have hgrows := hhost.extended_length name.bytes
        have hloop : readNameFrom packet fuel ⟨extended name.bytes data, hfit⟩
            (position + 1 + tag.toNat) cursor hops = .ok (name', next') :=
          (ih hhops (by dsimp only; omega)).mpr ⟨more, rest, next, hrest, hmore, hbytes, hnext⟩
        simp [hkind, hne, hdata, hlabel, okOr, bind, Except.bind, hloop]
      | @pointer _ more' last tag target _ htag hkind htarget hheader hback hrest =>
        refine ⟨tag, htag, ?_⟩
        have hloop : readNameFrom packet fuel name (target &&& 0x3fff).toNat
            (some (cursor.getD (position + 2))) (hops + 1) = .ok (name', next') :=
          (ih (by omega) (by omega)).mpr
            ⟨more', labels, last, hrest, by omega, hbytes, by simpa using hnext⟩
        have hrange : rejectIf (decide ((target &&& 0x3fff).toNat < headerBytes) ||
            decide (position ≤ (target &&& 0x3fff).toNat)) Error.malformed = .ok () := by
          rw [rejectIf_eq_ok_iff, or_eq_false_iff, decide_eq_false_iff_not, decide_eq_false_iff_not]
          omega
        have hcap : rejectIf (decide (maxPointerHops < hops + 1)) Error.bounds = .ok () := by
          rw [rejectIf_eq_ok_iff, decide_eq_false_iff_not]
          omega
        rw [if_pos (by simpa using hkind)]
        simp only [word, htarget, okOr, bind, Except.bind, hrange, hcap]
        exact hloop

theorem settles_label (name : Name) (label : List UInt8) : (name.label label).Settles := by
  unfold Name.label
  split
  · exact settles_error _
  · split
    · exact nofun
    · exact settles_error _

theorem readNameFrom_settles {fuel : Nat} (hhops : hops ≤ maxPointerHops)
    (hfuel : (maxPointerHops - hops) + (maxNameBytes - name.bytes.length) < fuel) :
    (readNameFrom packet fuel name position cursor hops).Settles := by
  induction fuel generalizing name position cursor hops with
  | zero => omega
  | succ fuel ih =>
    refine settles_bind settles_okOr fun tag _ => ?_
    split
    · refine settles_bind settles_okOr fun target _ => ?_
      apply settles_check
      refine settles_bind settles_rejectIf fun _ hcap => ?_
      rw [rejectIf_eq_ok_iff, decide_eq_false_iff_not] at hcap
      exact ih (by omega) (by omega)
    · split
      · exact settles_error _
      split
      · exact settles_pure _
      refine settles_bind settles_okOr fun data _ => ?_
      refine settles_bind (settles_label name data) fun longer hlabel => ?_
      obtain ⟨hhost, hlonger⟩ := label_eq_ok_iff.mp hlabel
      have hgrows := hhost.extended_length name.bytes
      rw [hlonger] at hgrows
      have hbound := longer.bound
      exact ih hhops (by omega)

variable {cursor : Nat}

theorem settles_readName : (readName packet cursor).Settles :=
  readNameFrom_settles (Nat.zero_le _) (by decide)

theorem readName_ok_iff {next : Nat} :
    readName packet cursor = .ok (name, next) ↔ NameIn packet cursor name next := by
  unfold readName NameIn
  rw [readNameFrom_ok_iff (Nat.zero_le _) (by decide)]
  constructor
  · rintro ⟨hops, labels, next', hname, hhops, hbytes, hnext⟩
    obtain rfl := hnext
    exact ⟨hops, labels, hname, by omega, (joined_nil hname.plain).symm.trans hbytes⟩
  · rintro ⟨hops, labels, hname, hhops, htext⟩
    exact ⟨hops, labels, next, hname, by omega, (joined_nil hname.plain).trans htext, rfl⟩

/-- A host given by the caller: labels with dots between them, and the name is the same in
lower case. -/
def Host (host : List UInt8) (name : Name) : Prop :=
  host.length ≤ maxNameBytes ∧
    ∃ labels, labels ≠ [] ∧ (∀ label ∈ labels, HostLabel label) ∧ host = text labels ∧
      text (labels.map lowered) = name.bytes

theorem foldlM_label_ok_iff :
    written.foldlM Name.label name = .ok name' ↔
      (∀ label ∈ written, HostLabel label) ∧
        joined name.bytes (written.map lowered) = name'.bytes := by
  induction written generalizing name with
  | nil =>
    rw [foldlM_nil, pure_eq_ok_iff]
    exact ⟨fun h => ⟨nofun, congrArg Name.bytes h⟩, fun h => Name.ext h.2⟩
  | cons label written ih =>
    rw [foldlM_cons, bind_eq_ok_iff, map_cons, joined_cons]
    constructor
    · rintro ⟨longer, hlabel, hrest⟩
      obtain ⟨hhost, hlonger⟩ := label_eq_ok_iff.mp hlabel
      obtain ⟨hhosts, hbytes⟩ := ih.mp hrest
      rw [hlonger]
      exact ⟨forall_mem_cons.mpr ⟨hhost, hhosts⟩, hbytes⟩
    · rintro ⟨hhosts, hbytes⟩
      obtain ⟨hhost, hhosts⟩ := forall_mem_cons.mp hhosts
      have hfit : (Name.extended name.bytes label).length ≤ maxNameBytes := by
        apply le_trans (length_le_joined _ (written.map lowered))
        rw [hbytes]
        exact name'.bound
      exact ⟨⟨_, hfit⟩, label_eq_ok_iff.mpr ⟨hhost, rfl⟩, ih.mpr ⟨hhosts, hbytes⟩⟩

theorem plain_map_lowered (h : ∀ label ∈ written, HostLabel label) :
    Plain (written.map lowered) := by
  intro label hlabel
  obtain ⟨label, hmem, rfl⟩ := List.mem_map.mp hlabel
  exact (h label hmem).plain

theorem fromHost_ok_iff {host : List UInt8} : fromHost host = .ok name ↔ Host host name := by
  unfold fromHost Host
  rw [bind_eq_ok_iff]
  simp only [rejectIf_eq_ok_iff, or_eq_false_iff, decide_eq_false_iff_not, not_lt,
    isEmpty_eq_false_iff, foldlM_label_ok_iff]
  constructor
  · rintro ⟨_, ⟨-, hlength⟩, hhosts, hbytes⟩
    refine ⟨hlength, _, splitOn_ne_nil _ _, hhosts, (intercalate_splitOn dot).symm, ?_⟩
    exact (joined_nil (plain_map_lowered hhosts)).symm.trans hbytes
  rintro ⟨hlength, labels, hne, hhosts, rfl, hbytes⟩
  have hsplit : (text labels).splitOn dot = labels :=
    splitOn_intercalate dot (fun label hlabel => (hhosts label hlabel).dot_not_mem) hne
  refine ⟨(), ⟨?_, hlength⟩, ?_⟩
  · intro hempty
    rw [hempty] at hsplit
    exact (hhosts [] (by simp [← hsplit])).nonempty rfl
  · rw [hsplit]
    exact ⟨hhosts, (joined_nil (plain_map_lowered hhosts)).trans hbytes⟩

theorem settles_fromHost (host : List UInt8) : (fromHost host).Settles :=
  settles_bind settles_rejectIf fun _ _ =>
    settles_fold fun label _ name => settles_label name label

end SlimeOs.Dns
