import SlimeOs.FrameStore

/-!
The one byte string of a frame store. `encode` writes a content down with its padding; what
`parse` accepts is the encoding of what it reads.
-/

namespace SlimeOs.FrameStore

open ByteLayout ByteRange Except List Option Header

structure Message where
  logTimeNs : Nat
  payload : List UInt8
deriving DecidableEq

structure Contents where
  topic : List UInt8
  typeName : List UInt8
  schema : List UInt8
  typeHash : List UInt8
  framePeriodNs : Nat
  messages : List Message
deriving DecidableEq

def Frame.message (frame : Frame) : Message := ⟨frame.logTimeNs, frame.payload⟩

def Store.contents (store : Store) : Contents :=
  { topic := store.topic
    typeName := store.typeName
    schema := store.schema
    typeHash := store.typeHash
    framePeriodNs := store.framePeriodNs
    messages := store.frames.map Frame.message }

def zeros (count : Nat) : List UInt8 := List.replicate count 0

def encodeEntry (offset length logTimeNs : Nat) : List UInt8 :=
  leBytes 8 offset ++ (leBytes 4 length ++ (zeros 4 ++ leBytes 8 logTimeNs))

/-- The index of messages whose payloads start at `offset`. -/
def encodeIndex (offset : Nat) : List Message → List UInt8
  | [] => []
  | message :: messages =>
    encodeEntry offset message.payload.length message.logTimeNs ++
      encodeIndex (offset + align message.payload.length) messages

def encodeData : List Message → List UInt8
  | [] => []
  | message :: messages =>
    message.payload ++
      (zeros (align message.payload.length - message.payload.length) ++ encodeData messages)

namespace Contents

def textEnd (contents : Contents) : Nat :=
  headerBytes + contents.topic.length + contents.typeName.length + contents.schema.length

def dataStart (contents : Contents) : Nat :=
  align contents.textEnd + contents.messages.length * indexEntryBytes

def encodeHeader (contents : Contents) : List UInt8 :=
  leBytes 4 frameStoreMagic ++ (leBytes 2 formatVersion ++ (leBytes 1 hashVersionRihs01 ++
    (zeros 1 ++ (leBytes 4 contents.messages.length ++ (leBytes 2 contents.topic.length ++
      (leBytes 2 contents.typeName.length ++ (leBytes 4 contents.schema.length ++
        (zeros 4 ++ (leBytes 8 contents.framePeriodNs ++ contents.typeHash)))))))))

def encode (contents : Contents) : List UInt8 :=
  contents.encodeHeader ++ (contents.topic ++ (contents.typeName ++ (contents.schema ++
    (zeros (align contents.textEnd - contents.textEnd) ++
      (encodeIndex contents.dataStart contents.messages ++ encodeData contents.messages)))))

end Contents

theorem le_align (n : Nat) : n ≤ align n := by
  simp only [align, alignment]
  omega

theorem align_mod (n : Nat) : align n % alignment = 0 := by
  simp only [align, alignment]
  omega

theorem align_add {start : Nat} (haligned : start % alignment = 0) (length : Nat) :
    align (start + length) = start + align length := by
  simp only [align, alignment] at haligned ⊢
  omega

@[simp] theorem require_eq_ok_iff (condition : Bool) (refusal : Refusal) (u : Unit) :
    require condition refusal = .ok u ↔ condition = true := by
  cases condition <;> simp [require]

theorem eq_of_text {raw topic : List UInt8} (h : text raw = .ok topic) : topic = raw := by
  unfold text at h
  split at h
  · exact (ok.inj h).symm
  · exact absurd h (by simp)

@[simp] theorem found_eq_ok_iff (value : Option IndexEntry) (entry : IndexEntry) :
    found value = .ok entry ↔ value = some entry := by
  cases value <;> simp [found]

theorem bind_ok_iff {α β : Type} (x : Except Refusal α) (f : α → Except Refusal β) (b : β) :
    x >>= f = .ok b ↔ ∃ a, x = .ok a ∧ f a = .ok b := by
  cases x <;> simp [bind, Except.bind]

section Frames

variable {bytes : List UInt8} {indexStart index cursor : Nat} {frame : Frame} {frames : List Frame}
  {time : Option Nat}

def frameAt (bytes : List UInt8) (indexStart index : Nat) : Option Frame := do
  let entry ← entry bytes indexStart index
  let payload ← part? bytes entry.payloadOffset entry.payloadBytes
  pure ⟨entry.logTimeNs, payload, entry.payloadOffset⟩

theorem payload_eq_of_frameAt (h : frameAt bytes indexStart index = some frame) :
    frame.payload = part bytes frame.offset frame.payload.length := by
  obtain ⟨e, -, hpayload⟩ := bind_eq_some_iff.mp h
  obtain ⟨payload, hpart, hframe⟩ := bind_eq_some_iff.mp hpayload
  obtain rfl := some.inj hframe
  obtain ⟨hfit, rfl⟩ := part_eq_of_part?_eq hpart
  rw [length_part hfit]

theorem encodeEntry_entry {e : IndexEntry} (h : entry bytes indexStart index = some e)
    (hreserved : isZero e.reserved = true) :
    part bytes (indexStart + index * indexEntryBytes) indexEntryBytes =
      encodeEntry e.payloadOffset e.payloadBytes e.logTimeNs := by
  obtain ⟨range, hrange, hdecode⟩ := bind_eq_some_iff.mp h
  obtain ⟨hfit, rfl⟩ := part_eq_of_part?_eq hrange
  have hlength := length_part hfit
  unfold IndexEntry.decode at hdecode
  rw [if_neg (by omega)] at hdecode
  obtain rfl := some.inj hdecode
  generalize part bytes (indexStart + index * indexEntryBytes) indexEntryBytes = range at *
  simp only [indexEntryBytes] at hlength
  calc range = part range 0 (8 + (4 + (4 + 8))) := (hlength ▸ part_whole range).symm
    _ = _ := by
      rw [part_add, part_add, part_add, encodeEntry, leBytes_numberAt (by omega),
        leBytes_numberAt (by omega), leBytes_numberAt (by omega), zeros,
        ← part_of_isZero (by omega) hreserved]

structure Checked (bytes : List UInt8) (indexStart index : Nat) (place next : Cursor)
    (frame : Frame) : Prop where
  read : frameAt bytes indexStart index = some frame
  indexed : part bytes (indexStart + index * indexEntryBytes) indexEntryBytes =
    encodeEntry place.cursor frame.payload.length frame.logTimeNs
  offset_eq : frame.offset = place.cursor
  inside : place.cursor + frame.payload.length ≤ bytes.length
  payload_eq : frame.payload = part bytes place.cursor frame.payload.length
  padded : isZero (part bytes place.previousEnd (place.cursor - place.previousEnd)) = true
  ordered : ∀ previous ∈ place.previousTime, previous ≤ frame.logTimeNs
  next_eq : next = ⟨align (place.cursor + frame.payload.length),
    place.cursor + frame.payload.length, some frame.logTimeNs⟩

theorem checkFrame_checked {place next : Cursor}
    (h : checkFrame bytes indexStart index place = .ok next) :
    ∃ frame, Checked bytes indexStart index place next frame := by
  simp only [checkFrame, bind_ok_iff, found_eq_ok_iff, require_eq_ok_iff, Bool.and_eq_true,
    decide_eq_true_eq, Option.all_eq_true] at h
  obtain ⟨e, hentry, _, hreserved, _, -, _, horder, _, ⟨hstart, hlength⟩, _, hlow, _,
    ⟨hhigh, hpadded⟩, hnext⟩ := h
  have hoffset : e.payloadOffset = place.cursor := by omega
  have hfit : e.payloadOffset + e.payloadBytes ≤ bytes.length := by omega
  have hwidth := length_part hfit
  refine ⟨⟨e.logTimeNs, part bytes e.payloadOffset e.payloadBytes, e.payloadOffset⟩, ?_⟩
  exact
    { read := by simp [frameAt, hentry, part?, hfit]
      indexed := by rw [encodeEntry_entry hentry hreserved, hwidth, hoffset]
      offset_eq := hoffset
      inside := by rw [hwidth, ← hoffset]; exact hfit
      payload_eq := by rw [hwidth, hoffset]
      padded := by rw [← hoffset]; exact hpadded
      ordered := fun previous hprevious => horder previous hprevious
      next_eq := by
        rw [hwidth, ← hoffset]
        exact (Except.ok.inj hnext).symm }

/-- The frames lie one behind the other from `cursor` on, each aligned, inside the bytes, and
no earlier than the time before. -/
def Placed (bytes : List UInt8) : Nat → Option Nat → List Frame → Prop
  | _, _, [] => True
  | cursor, time, frame :: frames =>
    frame.offset = cursor ∧ cursor % alignment = 0 ∧
      cursor + frame.payload.length ≤ bytes.length ∧
      (∀ previous ∈ time, previous ≤ frame.logTimeNs) ∧
      Placed bytes (cursor + align frame.payload.length) (some frame.logTimeNs) frames

/-- The frames the loop has passed force the bytes of the index and those from the end of the
previous payload on. -/
theorem checkFrames_layout {stop : Cursor} (hstop : stop.cursor = bytes.length)
    (hpadded : part bytes stop.previousEnd (stop.cursor - stop.previousEnd) =
      zeros (stop.cursor - stop.previousEnd))
    (count : Nat) (place : Cursor) (haligned : place.cursor % alignment = 0)
    (hend : place.previousEnd ≤ place.cursor)
    (h : checkFrames bytes indexStart count index place = .ok stop) :
    ∃ frames : List Frame, (List.range' index count).filterMap (frameAt bytes indexStart) = frames ∧
      frames.length = count ∧
      part bytes (indexStart + index * indexEntryBytes) (count * indexEntryBytes) =
        encodeIndex place.cursor (frames.map Frame.message) ∧
      place.cursor ≤ bytes.length ∧
      part bytes place.previousEnd (bytes.length - place.previousEnd) =
        zeros (place.cursor - place.previousEnd) ++ encodeData (frames.map Frame.message) ∧
      Placed bytes place.cursor place.previousTime frames := by
  -- by induction on the frames still to be checked; the padding behind a payload is checked by
  -- the next pass, so the statement starts at the end of the previous payload
  induction count generalizing index place with
  | zero =>
    obtain rfl := ok.inj h
    refine ⟨[], rfl, rfl, ?_, hstop.le, ?_, trivial⟩
    · simp [part, encodeIndex]
    · rw [← hstop, hpadded]
      simp [encodeData]
  | succ count ih =>
    rw [checkFrames, bind_ok_iff] at h
    obtain ⟨next, hframe, hrest⟩ := h
    obtain ⟨frame, hchecked⟩ := checkFrame_checked hframe
    obtain rfl := hchecked.next_eq
    have halign := align_add haligned frame.payload.length
    have hle := le_align frame.payload.length
    obtain ⟨frames, hread, hcount, hindex, hinside, hdata, hplaced⟩ :=
      ih _ (align_mod _) (le_align _) hrest
    dsimp only at hindex hinside hdata hplaced
    rw [halign] at hindex hinside hdata hplaced
    refine ⟨frame :: frames, ?_, by rw [length_cons, hcount], ?_, by omega, ?_, ?_⟩
    · rw [range'_succ, filterMap_cons, hchecked.read]
      exact congrArg _ hread
    · have hsplit : (count + 1) * indexEntryBytes = indexEntryBytes + count * indexEntryBytes := by
        rw [Nat.succ_mul, add_comm]
      have hshift : indexStart + index * indexEntryBytes + indexEntryBytes =
          indexStart + (index + 1) * indexEntryBytes := by
        rw [Nat.succ_mul, add_assoc]
      rw [hsplit, part_add, hshift, hchecked.indexed, hindex]
      rfl
    · have hpad := part_of_isZero (by omega) hchecked.padded
      have hsplit : bytes.length - place.previousEnd = (place.cursor - place.previousEnd) +
          (frame.payload.length + (bytes.length - (place.cursor + frame.payload.length))) := by
        omega
      have hcursor : place.previousEnd + (place.cursor - place.previousEnd) = place.cursor := by
        omega
      have hgap : place.cursor + align frame.payload.length -
          (place.cursor + frame.payload.length) =
            align frame.payload.length - frame.payload.length := by omega
      rw [hsplit, part_add, hpad, hcursor, part_add, ← hchecked.payload_eq, hdata, hgap]
      rfl
    · exact ⟨hchecked.offset_eq, haligned, hchecked.inside, hchecked.ordered, hplaced⟩

theorem Placed.later (h : Placed bytes cursor time frames) (hframe : frame ∈ frames) :
    cursor ≤ frame.offset ∧ frame.offset % alignment = 0 ∧
      frame.offset + frame.payload.length ≤ bytes.length ∧
      ∀ previous ∈ time, previous ≤ frame.logTimeNs := by
  induction frames generalizing cursor time with
  | nil => simp at hframe
  | cons first frames ih =>
    obtain ⟨rfl, haligned, hinside, hordered, hrest⟩ := h
    rcases mem_cons.mp hframe with rfl | hframe
    · exact ⟨le_rfl, haligned, hinside, hordered⟩
    · obtain ⟨hlow, haligned, hinside, htime⟩ := ih hrest hframe
      refine ⟨by omega, haligned, hinside, fun previous hprevious => ?_⟩
      exact (hordered previous hprevious).trans (htime _ rfl)

theorem Placed.pairwise (h : Placed bytes cursor time frames) :
    frames.Pairwise fun first second =>
      first.offset + first.payload.length ≤ second.offset ∧ first.logTimeNs ≤ second.logTimeNs := by
  induction frames generalizing cursor time with
  | nil => exact List.Pairwise.nil
  | cons first frames ih =>
    obtain ⟨rfl, -, -, -, hrest⟩ := h
    refine List.Pairwise.cons (fun second hsecond => ?_) (ih hrest)
    obtain ⟨hlow, -, -, htime⟩ := hrest.later hsecond
    have := le_align first.payload.length
    exact ⟨by omega, htime _ rfl⟩

end Frames

theorem Header.textEnd_le_indexStart (header : Header) : header.textEnd ≤ header.indexStart :=
  le_align header.textEnd

theorem Header.indexStart_le (header : Header) : header.indexStart ≤ header.dataStart :=
  Nat.le_add_right _ _

theorem Header.ends_le (header : Header) : headerBytes + header.topicBytes ≤ header.dataStart ∧
      header.topicEnd + header.typeNameBytes ≤ header.dataStart ∧
      header.typeEnd + header.schemaBytes ≤ header.dataStart := by
  have htext := header.textEnd_le_indexStart
  have hindex := header.indexStart_le
  simp only [textEnd, typeEnd, topicEnd] at *
  omega

variable {bytes : List UInt8} {header : Header} {store : Store}

theorem encodeHeader_decode
    (h : decodedHeader bytes = .ok header) (hcheck : checkHeader header = .ok ()) :
    headerBytes ≤ bytes.length ∧
      part bytes 0 headerBytes =
        leBytes 4 frameStoreMagic ++ (leBytes 2 formatVersion ++ (leBytes 1 hashVersionRihs01 ++
          (zeros 1 ++ (leBytes 4 header.frameCount ++ (leBytes 2 header.topicBytes ++
            (leBytes 2 header.typeNameBytes ++ (leBytes 4 header.schemaBytes ++
              (zeros 4 ++ (leBytes 8 header.framePeriodNs ++ header.typeHash))))))))) := by
  unfold decodedHeader decode at h
  split at h
  · next decoded hdecoded =>
      obtain rfl := ok.inj h
      split at hdecoded
      · exact absurd hdecoded (by simp)
      next hfit =>
        simp only [headerBytes, not_lt] at hfit
        obtain rfl := some.inj hdecoded
        simp only [checkHeader, bind_ok_iff, require_eq_ok_iff, Bool.and_eq_true,
          beq_iff_eq] at hcheck
        obtain ⟨_, hmagic, _, hversion, _, ⟨⟨⟨hhash, hreserved0⟩, hreserved1⟩, -⟩, -⟩ := hcheck
        refine ⟨hfit, ?_⟩
        have hsplit : headerBytes =
            4 + (2 + (1 + (1 + (4 + (2 + (2 + (4 + (4 + (8 + 32))))))))) := rfl
        rw [hsplit, ← hmagic, ← hversion, ← hhash]
        simp only [part_add, leBytes_numberAt (show 0 + 4 ≤ bytes.length by omega),
          leBytes_numberAt (show 4 + 2 ≤ bytes.length by omega),
          leBytes_numberAt (show 6 + 1 ≤ bytes.length by omega),
          leBytes_numberAt (show 8 + 4 ≤ bytes.length by omega),
          leBytes_numberAt (show 12 + 2 ≤ bytes.length by omega),
          leBytes_numberAt (show 14 + 2 ≤ bytes.length by omega),
          leBytes_numberAt (show 16 + 4 ≤ bytes.length by omega),
          leBytes_numberAt (show 24 + 8 ≤ bytes.length by omega), zeros,
          ← part_of_isZero (show 7 + 1 ≤ bytes.length by omega) hreserved0,
          ← part_of_isZero (show 20 + 4 ≤ bytes.length by omega) hreserved1]
        rfl
  · exact absurd h (by simp)

theorem frames_eq_of_frameCount (store : Store) : store.frames =
      (List.range' 0 store.frameCount).filterMap (frameAt store.bytes store.indexStart) := by
  rw [Store.frames, range_eq_range']
  refine filterMap_congr fun index hindex => ?_
  have hlt : index < store.frameCount := by simpa using hindex
  rw [Store.frame, if_neg (by omega)]
  rfl

/-- What `parse` has established when it accepts, with the header and the frames it read. -/
structure Accepted (bytes : List UInt8) (store : Store) (header : Header) : Prop where
  bytes_eq : store.bytes = bytes
  header_part : part bytes 0 headerBytes = store.contents.encodeHeader
  topic_part : part bytes headerBytes header.topicBytes = store.topic
  type_part : part bytes header.topicEnd header.typeNameBytes = store.typeName
  schema_part : part bytes header.typeEnd header.schemaBytes = store.schema
  text_padded : isZero (part bytes header.textEnd (header.indexStart - header.textEnd)) = true
  index_part : part bytes header.indexStart (header.frameCount * indexEntryBytes) =
    encodeIndex header.dataStart store.contents.messages
  data_part : part bytes header.dataStart (bytes.length - header.dataStart) =
    encodeData store.contents.messages
  inside : header.dataStart ≤ bytes.length
  count_eq : store.contents.messages.length = header.frameCount
  placed : Placed bytes header.dataStart none store.frames

theorem parse_accepted (h : parse bytes = .ok store) : ∃ header, Accepted bytes store header := by
  simp only [parse, bind_ok_iff, require_eq_ok_iff, decide_eq_true_eq] at h
  obtain ⟨_, -, header, hheader, _, hcheck, _, hsize, topic, htopic, typeName, htypeName, schema,
    hschema, _, htextPad, stop, hstop, _, hpad, _, hlow, _, hhigh, hstore⟩ := h
  obtain ⟨-, hheaderBytes⟩ := encodeHeader_decode hheader hcheck
  obtain rfl := Except.ok.inj hstore
  have hcursor : stop.cursor = bytes.length := by omega
  have haligned : header.dataStart % alignment = 0 := by
    have := align_mod header.textEnd
    simp only [dataStart, indexStart, indexEntryBytes, alignment] at *
    omega
  rw [Nat.min_eq_left hlow] at hpad
  have hstopPad : part bytes stop.previousEnd (stop.cursor - stop.previousEnd) =
      zeros (stop.cursor - stop.previousEnd) := by
    rcases Nat.lt_or_ge stop.cursor stop.previousEnd with hlt | hge
    · rw [Nat.sub_eq_zero_of_le hlt.le]
      simp [part, zeros]
    · exact part_of_isZero (by omega) hpad
  obtain ⟨frames, hread, hcount, hindex, hinside, hdata, hplaced⟩ :=
    checkFrames_layout hcursor hstopPad header.frameCount _ haligned le_rfl hstop
  obtain ⟨htopicEnd, htypeEnd, htextEnd⟩ := header.ends_le
  have htopicLength := length_part (htopicEnd.trans hsize)
  have htypeLength := length_part (htypeEnd.trans hsize)
  have hschemaLength := length_part (htextEnd.trans hsize)
  rw [← eq_of_text htopic] at htopicLength
  rw [← eq_of_text htypeName] at htypeLength
  rw [← eq_of_text hschema] at hschemaLength
  rw [Nat.zero_mul, Nat.add_zero] at hindex
  rw [Nat.sub_self] at hdata
  refine ⟨header, ?_⟩
  have hframes : (Store.mk bytes topic typeName schema header.typeHash header.framePeriodNs
      header.frameCount header.indexStart).frames = frames := by
    rw [frames_eq_of_frameCount, hread]
  have hmessages : (Store.mk bytes topic typeName schema header.typeHash header.framePeriodNs
      header.frameCount header.indexStart).contents.messages = frames.map Frame.message :=
    congrArg _ hframes
  exact
    { bytes_eq := rfl
      header_part := by
        rw [hheaderBytes, Contents.encodeHeader, hmessages, length_map, hcount]
        dsimp only [Store.contents]
        rw [htopicLength, htypeLength, hschemaLength]
      topic_part := (eq_of_text htopic).symm
      type_part := (eq_of_text htypeName).symm
      schema_part := (eq_of_text hschema).symm
      text_padded := htextPad
      index_part := by rw [hindex, hmessages]
      data_part := by rw [hdata, hmessages]; rfl
      inside := hinside
      count_eq := by rw [hmessages, length_map, hcount]
      placed := by rw [hframes]; exact hplaced }

theorem Accepted.eq_encode (h : Accepted bytes store header) : bytes = store.contents.encode := by
  obtain ⟨htopicEnd, htypeEnd, htextEnd⟩ := header.ends_le
  have htopicLength := length_part (htopicEnd.trans h.inside)
  have htypeLength := length_part (htypeEnd.trans h.inside)
  have hschemaLength := length_part (htextEnd.trans h.inside)
  rw [h.topic_part] at htopicLength
  rw [h.type_part] at htypeLength
  rw [h.schema_part] at hschemaLength
  have htext : store.contents.textEnd = header.textEnd := by
    simp only [Contents.textEnd, Store.contents, htopicLength, htypeLength, hschemaLength]
    rfl
  have hdata : store.contents.dataStart = header.dataStart := by
    rw [Contents.dataStart, htext, h.count_eq]
    rfl
  have hinside := h.inside
  have htextIndex := header.textEnd_le_indexStart
  have hindexData := header.indexStart_le
  have hpad := part_of_isZero (by omega) h.text_padded
  have hindexEnd : header.indexStart + header.frameCount * indexEntryBytes = header.dataStart := rfl
  have htopicEq : headerBytes + header.topicBytes = header.topicEnd := rfl
  have htypeEq : header.topicEnd + header.typeNameBytes = header.typeEnd := rfl
  have htextEq : header.typeEnd + header.schemaBytes = header.textEnd := rfl
  have hgap : header.textEnd + (header.indexStart - header.textEnd) = header.indexStart := by omega
  have hsplit : bytes.length = headerBytes + (header.topicBytes + (header.typeNameBytes +
      (header.schemaBytes + ((header.indexStart - header.textEnd) +
        (header.frameCount * indexEntryBytes + (bytes.length - header.dataStart)))))) := by omega
  calc bytes = part bytes 0 bytes.length := (part_whole bytes).symm
    _ = _ := by
      rw [hsplit, part_add, part_add, part_add, part_add, part_add, part_add, zero_add,
        htopicEq, htypeEq, htextEq, hgap, hindexEnd, h.header_part, h.topic_part, h.type_part,
        h.schema_part, hpad, h.index_part, h.data_part, Contents.encode, htext, hdata]
      rfl

/-- An accepted store is the one byte string with its contents. Its payloads are aligned and
inside the bytes, and each frame lies behind the ones before it and is no earlier. -/
theorem store_has_one_encoding (bytes : List UInt8) (store : Store)
    (haccepted : parse bytes = .ok store) :
    (∀ frame ∈ store.frames, frame.offset % alignment = 0 ∧
        frame.offset + frame.payload.length ≤ bytes.length ∧
        frame.payload = part bytes frame.offset frame.payload.length) ∧
      store.frames.Pairwise (fun first second =>
        first.offset + first.payload.length ≤ second.offset ∧
          first.logTimeNs ≤ second.logTimeNs) ∧
      ∀ other store', parse other = .ok store' → store'.contents = store.contents →
        other = bytes := by
  obtain ⟨header, h⟩ := parse_accepted haccepted
  refine ⟨fun frame hframe => ?_, h.placed.pairwise, fun other store' hother hcontents => ?_⟩
  · obtain ⟨-, haligned, hinside, -⟩ := h.placed.later hframe
    rw [frames_eq_of_frameCount, h.bytes_eq] at hframe
    obtain ⟨index, -, hread⟩ := mem_filterMap.mp hframe
    exact ⟨haligned, hinside, payload_eq_of_frameAt hread⟩
  · obtain ⟨header', h'⟩ := parse_accepted hother
    rw [h'.eq_encode, hcontents, ← h.eq_encode]

def sampleContents : Contents :=
  { topic := [47, 105]
    typeName := [73]
    schema := [117, 56]
    typeHash := List.replicate 32 7
    framePeriodNs := 1000
    messages := [⟨5, [1, 2, 3]⟩, ⟨5, []⟩, ⟨9, [4]⟩] }

theorem sample_store_has_one_encoding :
    ∃ store, parse sampleContents.encode = .ok store ∧ store.contents = sampleContents ∧
      ∀ other store', parse other = .ok store' → store'.contents = store.contents →
        other = sampleContents.encode :=
  ⟨⟨sampleContents.encode, [47, 105], [73], [117, 56], replicate 32 7, 1000, 3, 72⟩,
    by decide +kernel, by decide +kernel,
    (store_has_one_encoding sampleContents.encode _ (by decide +kernel)).2.2⟩

end SlimeOs.FrameStore
