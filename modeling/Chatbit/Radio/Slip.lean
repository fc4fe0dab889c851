import Chatbit.Radio.LoRa

/-!
# SLIP streams

What `SlipCodec.feed` returns does not depend on how the stream is split into reads, and the first
delimiter of a frame ends whatever the decoder was in the middle of. Frames that follow garbage are
therefore read as they were sent.
-/

namespace Chatbit

namespace SlipCodec

/-- The frames that successive reads return, and the decoder that they leave. -/
def feedAll (reads : List (Bytes UInt8)) (codec : SlipCodec) : SlipCodec × List (Bytes UInt8) :=
  reads.foldl (fun (codec, frames) data =>
    let (codec, more) := feed data codec
    (codec, frames ++ more)) (codec, [])

/-- What the decoder returns at a delimiter of what it has read before. -/
def held (codec : SlipCodec) : List (Bytes UInt8) :=
  if codec.escaped ∨ codec.buf = [] then [] else [codec.buf]

/-! ## Reads -/

lemma feedByte_frames (codec : SlipCodec) (frames : List (Bytes UInt8)) (byte : UInt8) :
    feedByte (codec, frames) byte =
      ((feedByte (codec, []) byte).1, frames ++ (feedByte (codec, []) byte).2) := by
  simp only [feedByte]
  split_ifs <;> simp

/-- The loop adds to the frames that it has. -/
lemma foldl_feedByte (data : Bytes UInt8) (codec : SlipCodec) (frames : List (Bytes UInt8)) :
    data.foldl feedByte (codec, frames) =
      ((feed data codec).1, frames ++ (feed data codec).2) := by
  induction data generalizing codec frames with
  | nil => exact Prod.ext rfl (List.append_nil frames).symm
  | cons byte data ih =>
    rw [feed, List.foldl_cons, List.foldl_cons, feedByte_frames, ih,
      ih (feedByte (codec, []) byte).1 (feedByte (codec, []) byte).2, List.append_assoc]

/-- Two reads are one. -/
lemma feed_append (data more : Bytes UInt8) (codec : SlipCodec) :
    feed (data ++ more) codec = ((feed more (feed data codec).1).1,
      (feed data codec).2 ++ (feed more (feed data codec).1).2) := by
  rw [feed, List.foldl_append]
  exact foldl_feedByte more _ _

lemma feedAll_eq (reads : List (Bytes UInt8)) (codec : SlipCodec) :
    feedAll reads codec = feed reads.flatten codec := by
  have hfold : ∀ (codec : SlipCodec) (frames : List (Bytes UInt8)),
      reads.foldl (fun (codec, frames) data =>
        let (codec, more) := feed data codec
        (codec, frames ++ more)) (codec, frames) =
      ((feed reads.flatten codec).1, frames ++ (feed reads.flatten codec).2) := by
    induction reads with
    | nil => exact fun codec frames => Prod.ext rfl (List.append_nil frames).symm
    | cons data reads ih =>
      intro codec frames
      rw [List.foldl_cons, List.flatten_cons, feed_append, ← List.append_assoc]
      exact ih _ _
  exact hfold codec []

/-! ## Frames -/

/-- Between two delimiters, escaped bytes are read as what they stand for. -/
lemma feed_escape (payload buf : Bytes UInt8) :
    feed (payload.flatMap escape) { buf := buf } = ({ buf := buf ++ payload }, []) := by
  induction payload generalizing buf with
  | nil => simp [feed]
  | cons byte payload ih =>
    have hbyte : feed (escape byte) { buf := buf } = ({ buf := buf ++ [byte] }, []) := by
      unfold escape
      split_ifs with hend hesc
      · subst hend
        rfl
      · subst hesc
        rfl
      · simp [feed, feedByte, hend, hesc]
    rw [List.flatMap_cons, feed_append, hbyte]
    simp only
    rw [ih, List.append_assoc]
    rfl

/-- A delimiter ends what was there, be it the second half of an escape. -/
lemma feed_end (codec : SlipCodec) : feed [SLIP_END] codec = ({}, codec.held) := by
  obtain ⟨buf, escaped⟩ := codec
  cases escaped with
  | true => rfl
  | false =>
    cases buf with
    | nil => rfl
    | cons byte buf => rfl

lemma feed_encode (payload : Bytes UInt8) (codec : SlipCodec) :
    feed (encode payload) codec = ({}, codec.held ++ ({ buf := payload } : SlipCodec).held) := by
  rw [encode, feed_append, feed_append, feed_end codec]
  simp only
  rw [feed_escape, feed_end, List.nil_append, List.append_nil]

lemma held_payload {payload : Bytes UInt8} (h : payload ≠ []) :
    held { buf := payload } = [payload] := if_neg (by simpa using h)

lemma feed_encode_all (payloads : List (Bytes UInt8)) (codec : SlipCodec)
    (hnonempty : ∀ payload ∈ payloads, payload ≠ []) :
    (feed (payloads.flatMap encode) codec).2 =
      (if payloads = [] then [] else codec.held) ++ payloads := by
  induction payloads generalizing codec with
  | nil => rfl
  | cons payload payloads ih =>
    obtain ⟨hfirst, hrest⟩ := List.forall_mem_cons.mp hnonempty
    rw [List.flatMap_cons, feed_append, feed_encode, if_neg (List.cons_ne_nil _ _)]
    simp only
    -- after the first frame nothing is left over
    have hclean : (if payloads = [] then [] else held {}) = [] := by
      split_ifs <;> rfl
    rw [ih _ hrest, hclean, held_payload hfirst, List.append_assoc]
    rfl

/-- A stream of frames, after anything: what was left over, and then each frame. -/
theorem feedAll_encode (codec : SlipCodec) (payloads reads : List (Bytes UInt8))
    (hnonempty : ∀ payload ∈ payloads, payload ≠ [])
    (hreads : reads.flatten = payloads.flatMap encode) :
    (feedAll reads codec).2 = (if payloads = [] then [] else codec.held) ++ payloads := by
  rw [feedAll_eq, hreads]
  exact feed_encode_all payloads codec hnonempty

/-- A broken escape, and reads that end in the middle of one. -/
theorem feedAll_encode_escape :
    (feedAll [[0xC0, 0xDB], [0xDC, 7, 0xC0, 0xC0], [0xDB], [0xDD, 0xC0]]
      { buf := [1, 2], escaped := true }).2 = [[0xC0, 7], [0xDB]] :=
  feedAll_encode { buf := [1, 2], escaped := true } [[0xC0, 7], [0xDB]] _ (by decide) (by decide)

/-- Without a frame there is no delimiter, and what is left over stays. -/
theorem feedAll_nothing :
    ¬ ∀ (codec : SlipCodec) (payloads reads : List (Bytes UInt8)),
      (∀ payload ∈ payloads, payload ≠ []) → reads.flatten = payloads.flatMap encode →
        (feedAll reads codec).2 = codec.held ++ payloads := by
  intro h
  have hleft : (feedAll [] { buf := [1] }).2 = [[1]] ++ [] :=
    h { buf := [1] } [] [] (fun _ hmem => absurd hmem List.not_mem_nil) rfl
  exact absurd hleft (by decide)

end SlipCodec

end Chatbit
