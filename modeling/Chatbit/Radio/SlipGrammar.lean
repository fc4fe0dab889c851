import Mathlib.Data.List.ReduceOption
import Chatbit.Radio.Slip

/-!
# What the decoder takes for a frame

A stream is cut into segments at its delimiters, and a segment into the bytes it stands for. A
violation empties the buffer but does not skip the rest of its segment, so the decoder returns what
follows the last violation. `feedAll_grammar` says for which streams that is right.
-/

namespace Chatbit

namespace SlipCodec

/-! ## The grammar -/

/-- What the byte after an escape stands for. -/
def unescape (byte : UInt8) : Option UInt8 :=
  if byte = SLIP_ESC_END then some SLIP_END
  else if byte = SLIP_ESC_ESC then some SLIP_ESC
  else none

/-- What a segment stands for, byte by byte; a violation stands for nothing. -/
def tokens : Bytes UInt8 → List (Option UInt8)
  | [] => []
  | byte :: rest =>
    if byte = SLIP_ESC then
      match rest with
      | [] => [none]
      | escaped :: rest => unescape escaped :: tokens rest
    else some byte :: tokens rest

/-- What the delimiters of a stream end, the first from the beginning of the stream. -/
def segments (stream : Bytes UInt8) : List (Bytes UInt8) := (stream.splitOn SLIP_END).dropLast

/-- The frame of a segment, if it is not empty and has no violation. -/
def segmentFrames (segment : Bytes UInt8) : List (Bytes UInt8) :=
  if segment = [] ∨ none ∈ tokens segment then [] else [(tokens segment).reduceOption]

def grammarFrames (stream : Bytes UInt8) : List (Bytes UInt8) :=
  (segments stream).flatMap segmentFrames

lemma tokens_esc (escaped : UInt8) (rest : Bytes UInt8) :
    tokens (SLIP_ESC :: escaped :: rest) = unescape escaped :: tokens rest := rfl

lemma tokens_data {byte : UInt8} (h : byte ≠ SLIP_ESC) (rest : Bytes UInt8) :
    tokens (byte :: rest) = some byte :: tokens rest := by
  rw [tokens.eq_def]
  simp only
  rw [if_neg h]

lemma tokens_escape (byte : UInt8) (rest : Bytes UInt8) :
    tokens (escape byte ++ rest) = some byte :: tokens rest := by
  unfold escape
  split_ifs with hend hesc
  · subst hend
    rfl
  · subst hesc
    rfl
  · rw [List.singleton_append, tokens_data hesc]

lemma tokens_flatMap_escape (payload : Bytes UInt8) :
    tokens (payload.flatMap escape) = payload.map some := by
  induction payload with
  | nil => rfl
  | cons byte payload ih => rw [List.flatMap_cons, tokens_escape, ih, List.map_cons]

lemma unescape_eq_some {byte value : UInt8} (h : unescape byte = some value) :
    escape value = [SLIP_ESC, byte] := by
  unfold unescape at h
  split_ifs at h with hend hesc
  · rw [hend, ← Option.some.inj h]
    rfl
  · rw [hesc, ← Option.some.inj h]
    rfl

/-- The grammar is that of `encode`: a segment is well formed if it is what a payload is escaped
to, and the payload is then its contents. -/
theorem tokens_eq_map_iff (segment payload : Bytes UInt8) (hend : SLIP_END ∉ segment) :
    tokens segment = payload.map some ↔ segment = payload.flatMap escape := by
  refine ⟨fun h => ?_, fun h => by rw [h, tokens_flatMap_escape]⟩
  induction segment using tokens.induct generalizing payload with
  | case1 =>
    rw [tokens, eq_comm, List.map_eq_nil_iff] at h
    rw [h, List.flatMap_nil]
  | case2 =>
    cases payload with
    | nil => cases h
    | cons value payload => cases h
  | case3 escaped rest ih =>
    rw [tokens_esc] at h
    cases payload with
    | nil => cases h
    | cons value payload =>
      obtain ⟨hvalue, hrest⟩ := List.cons.inj h
      have hend' : SLIP_END ∉ rest := fun hmem => hend (by simp [hmem])
      rw [List.flatMap_cons, unescape_eq_some hvalue, ← ih payload hend' hrest]
      rfl
  | case4 byte rest hesc ih =>
    rw [tokens_data hesc] at h
    cases payload with
    | nil => cases h
    | cons value payload =>
      obtain ⟨hvalue, hrest⟩ := List.cons.inj h
      obtain ⟨hbyte, hend'⟩ := List.ne_and_not_mem_of_not_mem_cons hend
      rw [List.flatMap_cons, ← Option.some.inj hvalue, ← ih payload hend' hrest, escape,
        if_neg (Ne.symm hbyte), if_neg hesc]
      rfl

/-! ## Segments -/

lemma exists_segments (stream : Bytes UInt8) :
    ∃ (segs : List (Bytes UInt8)) (rest : Bytes UInt8), (∀ seg ∈ segs, SLIP_END ∉ seg) ∧
      SLIP_END ∉ rest ∧ stream = segs.flatMap (· ++ [SLIP_END]) ++ rest := by
  induction stream with
  | nil => exact ⟨[], [], by simp, by simp, rfl⟩
  | cons byte stream ih =>
    obtain ⟨segs, rest, hsegs, hrest, rfl⟩ := ih
    by_cases hbyte : byte = SLIP_END
    · subst hbyte
      exact ⟨[] :: segs, rest, by simpa using hsegs, hrest, rfl⟩
    · cases segs with
      | nil =>
        have hrest' := List.not_mem_cons_of_ne_of_not_mem (Ne.symm hbyte) hrest
        exact ⟨[], byte :: rest, by simp, hrest', rfl⟩
      | cons seg segs =>
        obtain ⟨hseg, hsegs⟩ := List.forall_mem_cons.mp hsegs
        refine ⟨(byte :: seg) :: segs, rest, ?_, hrest, rfl⟩
        have hseg' := List.not_mem_cons_of_ne_of_not_mem (Ne.symm hbyte) hseg
        exact List.forall_mem_cons.mpr ⟨hseg', hsegs⟩

lemma segments_eq {segs : List (Bytes UInt8)} {rest : Bytes UInt8}
    (hsegs : ∀ seg ∈ segs, SLIP_END ∉ seg) (hrest : SLIP_END ∉ rest) :
    segments (segs.flatMap (· ++ [SLIP_END]) ++ rest) = segs := by
  induction segs with
  | nil => rw [segments, List.flatMap_nil, List.nil_append, List.splitOn_eq_singleton hrest]; rfl
  | cons seg segs ih =>
    obtain ⟨hseg, hsegs⟩ := List.forall_mem_cons.mp hsegs
    have hsplit := List.splitOn_append_cons_self_of_not_mem hseg
      (segs.flatMap (· ++ [SLIP_END]) ++ rest)
    rw [segments, List.flatMap_cons, List.append_assoc, List.append_assoc, List.singleton_append,
      hsplit, List.dropLast_cons_of_ne_nil (List.splitOn_ne_nil _ _)]
    exact congrArg _ (ih hsegs)

/-! ## The decoder -/

/-- What the buffer is after one more token. -/
def keep (buf : Bytes UInt8) : Option UInt8 → Bytes UInt8
  | none => []
  | some byte => buf ++ [byte]

/-- What is in the buffer at the end of a segment. -/
def kept (segment : Bytes UInt8) : Bytes UInt8 := (tokens segment).foldl keep []

/-- What the decoder returns at the end of a segment. -/
def decodedFrames (segment : Bytes UInt8) : List (Bytes UInt8) :=
  held { buf := kept segment }

lemma feed_cons (byte : UInt8) (data : Bytes UInt8) (codec : SlipCodec) (next : SlipCodec)
    (h : feedByte (codec, []) byte = (next, [])) :
    feed (byte :: data) codec = feed data next := by
  rw [feed, List.foldl_cons, h]
  rfl

/-- Inside a segment nothing is returned, and the delimiter after it returns what is kept. -/
lemma feed_segment (segment buf : Bytes UInt8) (hend : SLIP_END ∉ segment) :
    (feed segment { buf := buf }).2 = [] ∧
      (feed segment { buf := buf }).1.held =
        held { buf := (tokens segment).foldl keep buf } := by
  induction segment using tokens.induct generalizing buf with
  | case1 => exact ⟨rfl, rfl⟩
  | case2 => exact ⟨rfl, rfl⟩
  | case3 escaped rest ih =>
    have hend' : SLIP_END ∉ rest := fun hmem => hend (by simp [hmem])
    have hfeed : feed (SLIP_ESC :: escaped :: rest) { buf := buf } =
        feed rest { buf := keep buf (unescape escaped) } := by
      rw [feed_cons SLIP_ESC _ _ { buf := buf, escaped := true } rfl]
      refine feed_cons escaped _ _ _ ?_
      simp only [feedByte, unescape]
      split_ifs <;> rfl
    rw [hfeed, tokens_esc, List.foldl_cons]
    exact ih _ hend'
  | case4 byte rest hesc ih =>
    obtain ⟨hbyte, hend'⟩ := List.ne_and_not_mem_of_not_mem_cons hend
    have hfeed : feed (byte :: rest) { buf := buf } = feed rest { buf := buf ++ [byte] } := by
      refine feed_cons byte _ _ _ ?_
      simp [feedByte, hesc, Ne.symm hbyte]
    rw [hfeed, tokens_data hesc, List.foldl_cons]
    exact ih _ hend'

lemma feed_segments (segs : List (Bytes UInt8)) (rest : Bytes UInt8)
    (hsegs : ∀ seg ∈ segs, SLIP_END ∉ seg) (hrest : SLIP_END ∉ rest) :
    (feed (segs.flatMap (· ++ [SLIP_END]) ++ rest) {}).2 = segs.flatMap decodedFrames := by
  induction segs with
  | nil => exact (feed_segment rest [] hrest).1
  | cons seg segs ih =>
    obtain ⟨hseg, hsegs⟩ := List.forall_mem_cons.mp hsegs
    obtain ⟨hquiet, hheld⟩ := feed_segment seg [] hseg
    rw [List.flatMap_cons, List.append_assoc, List.append_assoc, feed_append, feed_append,
      feed_end, hquiet, hheld, List.flatMap_cons]
    simp only
    rw [ih hsegs]
    rfl

/-- The frames of a stream, in any reads: of each segment, what follows its last violation. -/
theorem feedAll_decodedFrames (reads : List (Bytes UInt8)) :
    (feedAll reads {}).2 = (segments reads.flatten).flatMap decodedFrames := by
  obtain ⟨segs, rest, hsegs, hrest, hstream⟩ := exists_segments reads.flatten
  rw [feedAll_eq, hstream, segments_eq hsegs hrest]
  exact feed_segments segs rest hsegs hrest

/-! ## Where the two agree -/

lemma tokens_ne_nil {segment : Bytes UInt8} (h : segment ≠ []) : tokens segment ≠ [] := by
  obtain ⟨byte, rest, rfl⟩ := List.exists_cons_of_ne_nil h
  rw [tokens.eq_def]
  simp only
  split_ifs
  · cases rest with
    | nil => exact List.cons_ne_nil _ _
    | cons escaped rest => exact List.cons_ne_nil _ _
  · exact List.cons_ne_nil _ _

lemma foldl_keep {toks : List (Option UInt8)} (h : none ∉ toks) (buf : Bytes UInt8) :
    toks.foldl keep buf = buf ++ toks.reduceOption := by
  induction toks generalizing buf with
  | nil => exact (List.append_nil buf).symm
  | cons token toks ih =>
    obtain ⟨htoken, htoks⟩ := List.ne_and_not_mem_of_not_mem_cons h
    cases token with
    | none => exact absurd rfl htoken
    | some byte =>
      rw [List.foldl_cons, ih htoks, List.reduceOption_cons_of_some, keep, List.append_assoc]
      rfl

/-- The buffer is empty at the end if and only if the last token emptied it. -/
lemma foldl_keep_eq_nil {toks : List (Option UInt8)} (h : toks ≠ []) (buf : Bytes UInt8) :
    toks.foldl keep buf = [] ↔ toks.getLast? = some none := by
  obtain ⟨init, last, rfl⟩ : ∃ init last, toks = init ++ [last] :=
    ⟨_, _, (List.dropLast_append_getLast h).symm⟩
  rw [List.foldl_append, List.getLast?_concat, List.foldl_cons, List.foldl_nil]
  cases last with
  | none => simp [keep]
  | some byte => simp [keep]

/-- Without a violation the decoder returns what the grammar does. -/
lemma decodedFrames_of_wellFormed {segment : Bytes UInt8} (h : none ∉ tokens segment) :
    decodedFrames segment = segmentFrames segment := by
  by_cases hempty : segment = []
  · subst hempty
    rfl
  · have hkept : kept segment = (tokens segment).reduceOption := foldl_keep h []
    have hne : kept segment ≠ [] := by
      rw [kept, Ne, foldl_keep_eq_nil (tokens_ne_nil hempty)]
      exact fun hlast => h (List.mem_of_getLast? hlast)
    rw [decodedFrames, held_payload hne, segmentFrames, if_neg (not_or.mpr ⟨hempty, h⟩), hkept]

/-- With one, it does if the segment ends with a violation too. -/
lemma decodedFrames_of_violation {segment : Bytes UInt8} (h : none ∈ tokens segment) :
    decodedFrames segment = segmentFrames segment ↔
      (tokens segment).getLast? = some none := by
  have hgrammar : segmentFrames segment = [] := if_pos (Or.inr h)
  rw [hgrammar, ← foldl_keep_eq_nil (List.ne_nil_of_mem h) [], decodedFrames, held]
  simp [kept]

lemma flatMap_segmentFrames {segs : List (Bytes UInt8)} :
    segs.flatMap decodedFrames = segs.flatMap segmentFrames ↔
      ∀ segment ∈ segs, decodedFrames segment = segmentFrames segment := by
  -- the grammar never has more frames, so with one more for a segment the lengths differ
  have hle : ∀ segment : Bytes UInt8,
      (segmentFrames segment).length ≤ (decodedFrames segment).length := by
    intro segment
    by_cases h : none ∈ tokens segment
    · rw [segmentFrames, if_pos (Or.inr h)]
      exact Nat.zero_le _
    · rw [decodedFrames_of_wellFormed h]
  have hsum : ∀ segs : List (Bytes UInt8),
      (segs.flatMap segmentFrames).length ≤ (segs.flatMap decodedFrames).length := by
    intro segs
    induction segs with
    | nil => exact Nat.le_refl _
    | cons segment segs ih =>
      rw [List.flatMap_cons, List.flatMap_cons, List.length_append, List.length_append]
      exact Nat.add_le_add (hle segment) ih
  refine ⟨fun h => ?_, fun h => List.flatMap_congr h⟩
  induction segs with
  | nil => exact fun _ hmem => absurd hmem List.not_mem_nil
  | cons segment segs ih =>
    rw [List.flatMap_cons, List.flatMap_cons] at h
    have hlength := congrArg List.length h
    rw [List.length_append, List.length_append] at hlength
    have hfirst : (decodedFrames segment).length = (segmentFrames segment).length := by
      have := hle segment
      have := hsum segs
      omega
    obtain ⟨hsegment, hsegs⟩ := List.append_inj h hfirst
    exact List.forall_mem_cons.mpr ⟨hsegment, ih hsegs⟩

/-- A fresh decoder returns the frames of the grammar, in whatever reads the stream comes, exactly
if each segment that has a violation also ends with one. -/
theorem feedAll_grammar (reads : List (Bytes UInt8)) :
    (feedAll reads {}).2 = grammarFrames reads.flatten ↔
      ∀ segment ∈ segments reads.flatten, none ∈ tokens segment →
        (tokens segment).getLast? = some none := by
  rw [feedAll_decodedFrames, grammarFrames, flatMap_segmentFrames]
  refine forall₂_congr fun segment _ => ?_
  by_cases h : none ∈ tokens segment
  · rw [decodedFrames_of_violation h]
    exact ⟨fun hlast _ => hlast, fun hlast => hlast h⟩
  · exact iff_of_true (decodedFrames_of_wellFormed h) fun hmem => absurd hmem h

/-- What follows a broken escape is returned as a frame. -/
theorem feedAll_suffix :
    ¬ ∀ reads : List (Bytes UInt8), (feedAll reads {}).2 = grammarFrames reads.flatten := by
  intro h
  have hframes : [[3]] = grammarFrames [1, SLIP_ESC, 2, 3, SLIP_END] :=
    h [[1, SLIP_ESC, 2, 3, SLIP_END]]
  exact absurd hframes (by decide)

end SlipCodec

end Chatbit
