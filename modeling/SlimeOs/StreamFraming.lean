import SlimeOs.ByteLayout
import SlimeOs.FallibleCall

/-!
Batches with a two-byte length, reassembled from a byte stream in a buffer of fixed size. The
caller offers the stream in pieces of any size and takes batches out at any time in between.
-/

namespace SlimeOs.StreamFraming

open ByteLayout FallibleCall List

def streamLengthBytes : Nat := 2

inductive Refusal where
  | emptyBatch
  | lengthExceedsBatch
deriving DecidableEq

structure StreamFramer (n : Nat) where
  held : List UInt8
  fits : held.length ≤ n

open StreamFramer

variable {n : Nat} {framer : StreamFramer n} {stream : List UInt8}

/-- `u16::from_le_bytes` of the first two bytes. -/
def batchLength (bytes : List UInt8) : Nat := leValue (bytes.take streamLengthBytes)

namespace StreamFramer

def new (n : Nat) : StreamFramer n := ⟨[], Nat.zero_le n⟩

/-- How many bytes of the chunk are taken, and the framer that holds them. -/
def push (framer : StreamFramer n) (chunk : List UInt8) : Nat × StreamFramer n :=
  let count := min chunk.length (n - framer.held.length)
  (count, ⟨framer.held ++ chunk.take count, by
    have := framer.fits
    simp only [length_append, length_take]
    omega⟩)

def peekBatch (framer : StreamFramer n) : Except Refusal (Option (List UInt8)) :=
  if framer.held.length < streamLengthBytes then .ok none
  else if batchLength framer.held = 0 then .error .emptyBatch
  else if n - streamLengthBytes < batchLength framer.held then .error .lengthExceedsBatch
  else if framer.held.length < streamLengthBytes + batchLength framer.held then .ok none
  else .ok (some ((framer.held.drop streamLengthBytes).take (batchLength framer.held)))

/-- The arm of `fill` that gives up: no room, and no batch either. -/
def receiveQueueFull (framer : StreamFramer n) : Bool :=
  n - framer.held.length == 0 && framer.peekBatch matches .ok none

def consumeBatch (framer : StreamFramer n) : StreamFramer n :=
  if framer.held.length < streamLengthBytes then framer
  else
    ⟨framer.held.drop (min (streamLengthBytes + batchLength framer.held) framer.held.length), by
      have := framer.fits
      rw [length_drop]
      omega⟩

end StreamFramer

/-- The stream cut at its lengths: the batches, and the refusal after them or the bytes that
are not a batch yet. -/
def split (n : Nat) (stream : List UInt8) : List (List UInt8) × Except Refusal (List UInt8) :=
  if stream.length < streamLengthBytes then ([], .ok stream)
  else if batchLength stream = 0 then ([], .error .emptyBatch)
  else if n - streamLengthBytes < batchLength stream then ([], .error .lengthExceedsBatch)
  else if stream.length < streamLengthBytes + batchLength stream then ([], .ok stream)
  else
    let rest := split n (stream.drop (streamLengthBytes + batchLength stream))
    ((stream.drop streamLengthBytes).take (batchLength stream) :: rest.1, rest.2)
termination_by stream.length
decreasing_by
  rw [length_drop]
  unfold streamLengthBytes at *
  omega

/-- The framer and its caller: what of the stream is still to come, the batches taken out, and
the refusal met. -/
structure Feed (n : Nat) where
  framer : StreamFramer n
  stream : List UInt8
  batches : List (List UInt8)
  refusal : Option Refusal

inductive Op where
  | offer (count : Nat)
  | drain

/-- What `push` does not take stays in the stream and is offered again. -/
def Feed.step (feed : Feed n) : Op → Feed n
  | .offer count =>
    let (taken, framer) := feed.framer.push (feed.stream.take count)
    { feed with framer := framer, stream := feed.stream.drop taken }
  | .drain =>
    match feed.framer.peekBatch with
    | .ok none => feed
    | .ok (some batch) =>
      { feed with framer := feed.framer.consumeBatch, batches := feed.batches ++ [batch] }
    | .error refusal => { feed with refusal := some refusal }

theorem push_append {count : Nat} : (framer.push (stream.take count)).2.held ++
        stream.drop (framer.push (stream.take count)).1 =
      framer.held ++ stream := by
  simp only [push]
  rw [append_assoc, take_take, length_take]
  congr 1
  rw [show min (min (min count stream.length) (n - framer.held.length)) count =
    min (min count stream.length) (n - framer.held.length) by omega, take_append_drop]

/-- What the framer says of the bytes it holds is true of any stream that begins with them. -/
theorem split_peekBatch (framer : StreamFramer n) (stream : List UInt8) :
    match framer.peekBatch with
    | .error refusal => split n (framer.held ++ stream) = ([], .error refusal)
    | .ok (some batch) =>
      split n (framer.held ++ stream) =
        (batch :: (split n (framer.consumeBatch.held ++ stream)).1,
          (split n (framer.consumeBatch.held ++ stream)).2)
    | .ok none =>
      split n framer.held = ([], .ok framer.held) ∧
        (streamLengthBytes ≤ n → framer.held.length < n) := by
  unfold peekBatch consumeBatch
  by_cases hshort : framer.held.length < streamLengthBytes
  · rw [if_pos hshort]
    exact ⟨by rw [split, if_pos hshort], by omega⟩
  have htake : batchLength (framer.held ++ stream) = batchLength framer.held :=
    congrArg leValue (take_append_of_le_length (Nat.le_of_not_lt hshort))
  have hlong : ¬ (framer.held ++ stream).length < streamLengthBytes := by
    rw [length_append]
    omega
  rw [if_neg hshort, if_neg hshort]
  by_cases hzero : batchLength framer.held = 0
  · rw [if_pos hzero]
    dsimp only
    rw [split, htake, if_neg hlong, if_pos hzero]
  rw [if_neg hzero]
  by_cases hover : n - streamLengthBytes < batchLength framer.held
  · rw [if_pos hover]
    dsimp only
    rw [split, htake, if_neg hlong, if_neg hzero, if_pos hover]
  rw [if_neg hover]
  by_cases hpart : framer.held.length < streamLengthBytes + batchLength framer.held
  · rw [if_pos hpart]
    exact ⟨by rw [split, if_neg hshort, if_neg hzero, if_neg hover, if_pos hpart], by omega⟩
  rw [if_neg hpart]
  dsimp only
  rw [Nat.min_eq_left (Nat.le_of_not_lt hpart), split, htake, if_neg hlong, if_neg hzero,
    if_neg hover, if_neg (by rw [length_append]; omega),
    drop_append_of_le_length (Nat.le_of_not_lt hshort),
    drop_append_of_le_length (Nat.le_of_not_lt hpart),
    take_append_of_le_length (by rw [length_drop]; omega)]

/-- The batches taken so far, put before the split of what is held and still to come, are the
split of the whole stream. -/
structure Follows (whole : List UInt8) (feed : Feed n) : Prop where
  batches : split n whole =
    (feed.batches ++ (split n (feed.framer.held ++ feed.stream)).1,
      (split n (feed.framer.held ++ feed.stream)).2)
  refused : ∀ refusal, feed.refusal = some refusal →
    split n (feed.framer.held ++ feed.stream) = ([], .error refusal)

theorem follows_step {whole : List UInt8} (feed : Feed n) (op : Op) (h : Follows whole feed) :
    Follows whole (feed.step op) := by
  cases op with
  | offer count =>
    constructor
    · simp only [Feed.step, push_append]
      exact h.batches
    · simp only [Feed.step, push_append]
      exact h.refused
  | drain =>
    have hsplit := split_peekBatch feed.framer feed.stream
    unfold Feed.step
    rcases hpeek : feed.framer.peekBatch with refusal | _ | batch <;> rw [hpeek] at hsplit
    · refine ⟨h.batches, ?_⟩
      rintro _ ⟨⟩
      exact hsplit
    · exact h
    · refine ⟨?_, fun refusal hrefusal => ?_⟩
      · rw [h.batches, hsplit, append_assoc, singleton_append]
      · rw [h.refused refusal hrefusal] at hsplit
        cases hsplit

/-- A batch behind its length. -/
def framed (batch : List UInt8) : List UInt8 := leBytes streamLengthBytes batch.length ++ batch

inductive EncodeError where
  | outputTooSmall
  | streamLength
deriving DecidableEq

def streamPrefixMax (length max : Nat) : Except EncodeError (List UInt8) :=
  if length = 0 ∨ max < length ∨ 2 ^ 16 ≤ length then .error .streamLength
  else .ok (leBytes streamLengthBytes length)

/-- How many bytes are written, and the output with them. -/
def streamBatchMax (out batch : List UInt8) (max : Nat) :
    Except EncodeError (Nat × List UInt8) := do
  let head ← streamPrefixMax batch.length max
  let total := streamLengthBytes + batch.length
  if out.length < total then .error .outputTooSmall
  else .ok (total, head ++ batch ++ out.drop total)

/-- What the encoder writes is the batch behind its length, and a framer of the same limit takes
the batch out of it. -/
theorem peekBatch_streamBatchMax {out batch written : List UInt8} {total : Nat}
    (h : streamBatchMax out batch (n - streamLengthBytes) = .ok (total, written)) :
    written.take total = framed batch ∧
      ((StreamFramer.new n).push (written.take total)).2.peekBatch = .ok (some batch) := by
  unfold streamBatchMax streamPrefixMax at h
  split at h
  · cases h
  rename_i hlength
  change (if out.length < _ then _ else _) = _ at h
  split at h
  · cases h
  cases h
  have htwo : streamLengthBytes = 2 := rfl
  have hframed : (leBytes streamLengthBytes batch.length ++ batch ++
      out.drop (streamLengthBytes + batch.length)).take (streamLengthBytes + batch.length) =
        framed batch := take_left' (by simp)
  have hvalue := leValue_leBytes streamLengthBytes batch.length
    (by rw [htwo]; omega)
  have hbatch : batchLength (framed batch) = batch.length := by
    rw [batchLength, framed, take_left' (by simp), hvalue]
  have hlong : (framed batch).length = streamLengthBytes + batch.length := by simp [framed]
  refine ⟨hframed, ?_⟩
  rw [hframed]
  have hheld : ((StreamFramer.new n).push (framed batch)).2.held = framed batch := by
    simp only [push, new, nil_append, length_nil, hlong]
    exact take_of_length_le (by omega)
  simp only [peekBatch, hheld, hbatch, hlong]
  rw [if_neg (by omega), if_neg (by omega), if_neg (by omega), if_neg (by omega), framed,
    drop_left' (by simp), take_length]

theorem framed_consumeBatch {batch : List UInt8} (h : framer.peekBatch = .ok (some batch)) :
    framed batch ++ framer.consumeBatch.held = framer.held := by
  unfold peekBatch at h
  split_ifs at h with hshort hzero hover hpart <;> cases h
  have hbytes := @leBytes_leValue (framer.held.take streamLengthBytes)
  rw [length_take_of_le (Nat.le_of_not_lt hshort)] at hbytes
  unfold framed consumeBatch
  rw [if_neg hshort, length_take_of_le (by rw [length_drop]; omega)]
  dsimp only
  rw [Nat.min_eq_left (Nat.le_of_not_lt hpart), batchLength, hbytes, append_assoc, ← drop_drop,
    take_append_drop, take_append_drop]

/-- The batches taken out, put behind their lengths again, what is held and what is still to
come are the stream: no byte is lost, repeated or moved. -/
theorem framing_keeps_bytes (stream : List UInt8) (ops : List Op) :
    let feed := run Feed.step ⟨StreamFramer.new n, stream, [], none⟩ ops
    feed.batches.flatMap framed ++ (feed.framer.held ++ feed.stream) = stream := by
  refine run_invariant Feed.step
    (fun feed => feed.batches.flatMap framed ++ (feed.framer.held ++ feed.stream) = stream)
    (fun feed op h => ?_) _ ops rfl
  cases op with
  | offer count => simpa only [Feed.step, push_append] using h
  | drain =>
    unfold Feed.step
    rcases hpeek : feed.framer.peekBatch with _ | _ | batch
    · exact h
    · exact h
    · rw [← framed_consumeBatch hpeek] at h
      simpa using h

end SlimeOs.StreamFraming
