import Mathlib.Algebra.Group.Action.Defs
import Chatbit.NodeTheorems
import Chatbit.Wire.ReassemblyTheorems

/-!
# From a payload to its frames and back

The fragments of a payload fit their frames, the frames decode to the fragments, and a receiver
that collects them gets the payload, in whatever order and how often they arrive and whatever
arrives in between.
-/

namespace Chatbit

open Lib

variable {β : Type} [Alphabet β] [DecidableEq β] {capacity mtu : ℕ} {payload : Bytes β}

omit [Alphabet β] [DecidableEq β] in
/-- A frame that fits the link has a size. -/
lemma exists_paddedSize {frameLen : ℕ} (policy : PaddingPolicy) (h : frameLen ≤ mtu) :
    ∃ size, paddedSize (β := β) frameLen mtu policy = .ok size ∧
      (policy = .strict → size = mtu) := by
  unfold paddedSize
  rw [if_neg (Nat.not_lt.mpr h)]
  cases policy with
  | none => exact ⟨_, rfl, fun h => nomatch h⟩
  | strict => exact ⟨_, rfl, fun _ => rfl⟩
  | bucket =>
    simp only
    split
    · exact ⟨_, rfl, fun h => nomatch h⟩
    · exact ⟨_, rfl, fun h => nomatch h⟩

section Fragment

variable {ptype : PacketType} {msgId dstTag : Bytes β} {ttl : ℕ} {packets : List (Packet β)}

omit [Alphabet β] [DecidableEq β] in
lemma length_payload_le_of_fragment
    (h : fragment ptype payload msgId capacity dstTag ttl = .ok packets) {packet : Packet β}
    (hp : packet ∈ packets) : packet.payload.length ≤ capacity := by
  obtain ⟨-, hmap, -⟩ := fragment_ok h
  apply length_le_of_mem_chunks
  rw [← hmap]
  exact List.mem_map_of_mem hp

omit [Alphabet β] [DecidableEq β] in
/-- What `fragment` accepts is at most as long as its packets can carry. -/
lemma length_le_of_fragment
    (h : fragment ptype payload msgId capacity dstTag ttl = .ok packets) :
    payload.length ≤ MAX_FRAGMENTS * capacity := by
  have hflatten := flatten_fragment h
  have hle : ∀ n ∈ packets.map fun packet => packet.payload.length, n ≤ capacity := by
    intro n hn
    obtain ⟨packet, hp, rfl⟩ := List.mem_map.mp hn
    exact length_payload_le_of_fragment h hp
  have hsum := List.sum_le_card_nsmul _ _ hle
  have hcount : packets.length ≤ MAX_FRAGMENTS := by
    rcases packets with _ | ⟨packet, rest⟩
    · exact Nat.zero_le _
    · have hfields := (fragments_of_fragment h).fields packet (List.mem_cons_self ..)
      rw [← hfields.1]
      exact packet.fragCount_range.2
  rw [← hflatten, List.length_flatten, List.map_map]
  rw [List.length_map, smul_eq_mul] at hsum
  exact hsum.trans (Nat.mul_le_mul_right _ hcount)

end Fragment

namespace Node

omit [DecidableEq β] in
/-- A packet that fits the link has a frame. -/
lemma exists_frameOf {padding : PaddingPolicy} {packet : Packet β}
    (h : HEADER_LEN + packet.payload.length ≤ mtu) :
    ∃ frame, frameOf mtu padding packet = .ok frame ∧ frame.length ≤ mtu ∧
      (padding = .strict → frame.length = mtu) := by
  obtain ⟨size, hsize, hstrict⟩ := exists_paddedSize (β := β) padding h
  obtain ⟨hle, hle'⟩ := le_paddedSize hsize
  have hframe := frameOf_ok_iff.mpr ⟨size, hsize, rfl⟩
  refine ⟨_, hframe, ?_⟩
  have hlen : (packet.header ++ packet.payload ++
      zeros (size - (HEADER_LEN + packet.payload.length))).length = size := by
    rw [List.length_append, List.length_append, Packet.length_header, length_zeros]
    omega
  rw [hlen]
  exact ⟨hle', hstrict⟩

omit [DecidableEq β] in
/-- Packets that have frames are what the frames decode to. -/
lemma frames_of_packets {padding : PaddingPolicy} {packets : List (Packet β)}
    (h : ∀ packet ∈ packets, ∃ frame, frameOf mtu padding packet = .ok frame ∧
      frame.length ≤ mtu ∧ (padding = .strict → frame.length = mtu))
    (hversion : ∀ packet ∈ packets, packet.version = VERSION) :
    ∃ frames, packets.mapM (frameOf mtu padding) = .ok frames ∧
      (∀ frame ∈ frames, frame.length ≤ mtu ∧ (padding = .strict → frame.length = mtu)) ∧
      frames.mapM Packet.decode = .ok packets := by
  induction packets with
  | nil => exact ⟨[], rfl, fun _ hf => absurd hf List.not_mem_nil, rfl⟩
  | cons packet packets ih =>
    obtain ⟨hfirst, hrest⟩ := List.forall_mem_cons.mp h
    obtain ⟨hversion, hversions⟩ := List.forall_mem_cons.mp hversion
    obtain ⟨frame, hframe, hlen⟩ := hfirst
    obtain ⟨frames, hframes, hlens, hdecode⟩ := ih hrest hversions
    refine ⟨frame :: frames, ?_, List.forall_mem_cons.mpr ⟨hlen, hlens⟩, ?_⟩
    · exact mapM_ok_iff.mpr (.cons hframe (mapM_ok_iff.mp hframes))
    · exact mapM_ok_iff.mpr (.cons (decode_frameOf hframe hversion) (mapM_ok_iff.mp hdecode))

/-- The frames of a payload fit the link and decode to its fragments, and a reassembler with the
time and the room for what it is fed returns the payload with the call that completes the
fragments, and nothing before. -/
theorem frames_reassemble {ptype : PacketType} {msgId dstTag : Bytes β} {ttl : ℕ}
    {packets : List (Packet β)} (padding : PaddingPolicy)
    (hcapacity : capacityFor (β := β) mtu HEADER_LEN = .ok capacity) (hmtu : mtu ≤ 255)
    (hfragment : fragment ptype payload msgId capacity dstTag ttl = .ok packets) :
    (∃ frames, packets.mapM (frameOf mtu padding) = .ok frames ∧
      (∀ frame ∈ frames, frame.length ≤ mtu ∧ (padding = .strict → frame.length = mtu)) ∧
      frames.mapM Packet.decode = .ok packets) ∧
    payload.length ≤ MAX_MESSAGE_BYTES ∧
    ∀ r : Reassembler β, r.pending = .empty → payload.length ≤ r.maxBytes →
      ∀ (before : List (Packet β × ℚ)) (packet : Packet β) (now : ℚ)
        (after : List (Packet β × ℚ)),
        r.Within (before ++ (packet, now) :: after) →
        (∀ call ∈ before ++ (packet, now) :: after, call.1.msgId = msgId → call.1 ∈ packets) →
        packet.msgId = msgId → (¬ ∀ p ∈ packets, p ∈ before.map Prod.fst) →
        ((∀ p ∈ packets, p ∈ before.map Prod.fst ++ [packet]) →
          (Reassembler.add packet now (Reassembler.afterAll before r)).1 = .ok (some payload)) ∧
        ((¬ ∀ p ∈ packets, p ∈ before.map Prod.fst ++ [packet]) →
          (Reassembler.add packet now (Reassembler.afterAll before r)).1 = .ok none) := by
  obtain ⟨hmtu_eq, -⟩ := capacityFor_ok hcapacity
  simp only [HEADER_LEN] at hmtu_eq
  refine ⟨?_, ?_, ?_⟩
  · -- a fragment is cut to what a frame has room for
    have hframes : ∀ packet ∈ packets, ∃ frame, frameOf mtu padding packet = .ok frame ∧
        frame.length ≤ mtu ∧ (padding = .strict → frame.length = mtu) := by
      intro packet hp
      apply exists_frameOf
      have hle := length_payload_le_of_fragment hfragment hp
      simp only [HEADER_LEN]
      omega
    obtain ⟨-, -, hall⟩ := fragment_ok hfragment
    exact frames_of_packets hframes fun packet hp => (hall packet hp).2
  · -- 255 fragments of 232 bytes
    have hle := length_le_of_fragment hfragment
    simp only [MAX_FRAGMENTS] at hle
    have hcapacity_le : 255 * capacity ≤ 255 * 232 := Nat.mul_le_mul_left _ (by omega)
    exact hle.trans (hcapacity_le.trans (by decide))
  · intro r hempty hsize before packet now after hwithin hours hid hearlier
    exact Reassembler.add_afterAll (fragments_of_fragment hfragment)
      (Reassembler.Within.toRoom hwithin hempty msgId) hsize hours hid hearlier

/-- Five bytes in three packets on a link with room for two: they arrive in reverse order, one of
them twice, with another message in between. -/
def threePackets (i : ℕ) (payload : Bytes UInt8) (h : i < 3) (hlen : payload.length ≤ 0xFFFF) :
    Packet UInt8 :=
  .ofFields .data payload [1, 2, 3, 4, 5, 6, 7, 8] [9, 9, 9, 9, 9, 9, 9, 9] 7 i 3
    ⟨rfl, rfl, by decide, by decide, h, hlen⟩

theorem frames_reassemble_threePackets :
    let first := threePackets 0 [10, 20] (by decide) (by decide)
    let second := threePackets 1 [30, 40] (by decide) (by decide)
    let third := threePackets 2 [50] (by decide) (by decide)
    let other : Packet UInt8 := { third with msgId := [0, 0, 0, 0, 0, 0, 0, 0], length_msgId := rfl }
    (Reassembler.add first 3
        (Reassembler.afterAll [(third, 0), (other, 1), (second, 1), (third, 2)] {})).1 =
      .ok (some [10, 20, 30, 40, 50]) := by
  intro first second third other
  have hcapacity : capacityFor (β := UInt8) 25 HEADER_LEN = .ok 2 := rfl
  have hfragment : fragment .data ([10, 20, 30, 40, 50] : Bytes UInt8) [1, 2, 3, 4, 5, 6, 7, 8] 2
      [9, 9, 9, 9, 9, 9, 9, 9] 7 = .ok [first, second, third] := rfl
  have hall := (frames_reassemble .strict hcapacity (by decide) hfragment).2.2
  refine (hall {} rfl (by decide) [(third, 0), (other, 1), (second, 1), (third, 2)] first 3 []
    ⟨by decide +kernel, by decide +kernel⟩ ?_ rfl ?_).1 ?_
  · intro call hcall hid
    simp only [List.cons_append, List.nil_append, List.mem_cons, List.not_mem_nil,
      or_false] at hcall
    rcases hcall with rfl | rfl | rfl | rfl | rfl
    · simp
    · exact absurd hid (by decide)
    · simp
    · simp
    · simp
  · intro harrived
    have hindex := List.mem_map_of_mem (f := Packet.fragIndex) (harrived first (by simp))
    exact absurd hindex (by decide)
  · simp

end Node

end Chatbit
