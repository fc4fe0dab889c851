import Chatbit.Lib.Method
import Chatbit.Wire.Packet

/-!
# Fragmentation

The function `fragment` of `chatbit/wire/fragment.py`.
-/

namespace Chatbit

open Lib

variable {β : Type}

/-- `[payload[i : i + capacity] for i in range(0, len(payload), capacity)] or [b""]` -/
def chunks (capacity : ℕ) (payload : Bytes β) : List (Bytes β) :=
  let chunks := (List.range ((payload.length + capacity - 1) / capacity)).map fun i =>
    (payload.drop (i * capacity)).take capacity
  if chunks = [] then [[]] else chunks

/-- Split `payload` into packets whose payloads each fit in `capacity`. -/
def fragment (ptype : PacketType) (payload msgId : Bytes β) (capacity : ℕ) (dstTag : Bytes β)
    (ttl : ℕ) : Except (Exc β) (List (Packet β)) :=
  if capacity = 0 then .error (.valueError "capacity must be positive")
  else
    let chunks := chunks capacity payload
    if chunks.length > MAX_FRAGMENTS then
      .error (.valueError
        s!"message needs {chunks.length} fragments, limit is {MAX_FRAGMENTS}")
    else chunks.zipIdx.mapM fun (chunk, i) =>
      Packet.create ptype chunk msgId dstTag ttl i chunks.length

/-! ## What the fragments carry -/

variable {capacity : ℕ} {payload : Bytes β}

/-- A payload that fits is one chunk. -/
lemma chunks_of_le (h : payload.length ≤ capacity) : chunks capacity payload = [payload] := by
  rcases Nat.eq_zero_or_pos payload.length with h0 | hpos
  · obtain rfl := List.length_eq_zero_iff.mp h0
    by_cases hc : (capacity - 1) / capacity = 0
    · simp [chunks, hc]
    · have hpos : 0 < capacity := Nat.pos_of_ne_zero fun h => hc (by simp [h])
      exact absurd (Nat.div_eq_of_lt (by omega)) hc
  · have h1 : (payload.length + capacity - 1) / capacity = 1 :=
      Nat.div_eq_of_lt_le (by omega) (by omega)
    simp [chunks, h1, List.take_of_length_le h]

/-- The chunks of a payload, in order, are the payload. -/
lemma flatten_chunks (h : 0 < capacity) : (chunks capacity payload).flatten = payload := by
  have hrange : ∀ n, ((List.range n).map fun i =>
      (payload.drop (i * capacity)).take capacity).flatten = payload.take (n * capacity) := by
    intro n
    induction n with
    | zero => simp
    | succ n ih =>
      rw [List.range_succ, List.map_append, List.flatten_append, ih, Nat.succ_mul, List.take_add]
      simp
  have hcover : payload.length ≤ (payload.length + capacity - 1) / capacity * capacity := by
    have hdiv := Nat.div_add_mod (payload.length + capacity - 1) capacity
    have hmod := Nat.mod_lt (payload.length + capacity - 1) h
    rw [Nat.mul_comm]
    omega
  simp only [chunks]
  split_ifs with hnil
  · have := hrange ((payload.length + capacity - 1) / capacity)
    rw [hnil, List.take_of_length_le hcover] at this
    simpa using this
  · rw [hrange, List.take_of_length_le hcover]

lemma length_chunks_le {count : ℕ} (hc : 0 < capacity) (hcount : 1 ≤ count)
    (h : payload.length ≤ count * capacity) : (chunks capacity payload).length ≤ count := by
  simp only [chunks]
  split_ifs
  · exact hcount
  · rw [List.length_map, List.length_range, ← Nat.lt_succ_iff, Nat.div_lt_iff_lt_mul hc,
      Nat.succ_mul]
    omega

lemma length_le_of_mem_chunks {chunk : Bytes β} (h : chunk ∈ chunks capacity payload) :
    chunk.length ≤ capacity := by
  unfold chunks at h
  simp only at h
  split_ifs at h with hnil
  · obtain rfl := List.mem_singleton.mp h
    exact Nat.zero_le _
  · obtain ⟨i, -, rfl⟩ := List.mem_map.mp h
    exact List.length_take_le _ _

variable {ptype : PacketType} {msgId dstTag : Bytes β} {ttl : ℕ}
  {packets : List (Packet β)}

lemma create_all_ok {count : ℕ} {l : List (Bytes β × ℕ)}
    (h : l.mapM (fun (chunk, i) => Packet.create ptype chunk msgId dstTag ttl i count) =
      .ok packets) :
    packets.map Packet.payload = l.map Prod.fst ∧
      ∀ packet ∈ packets, packet.dstTag = dstTag ∧ packet.version = VERSION := by
  induction l generalizing packets with
  | nil =>
    obtain rfl := Except.ok.inj h
    exact ⟨rfl, fun _ hp => (nomatch hp)⟩
  | cons c l ih =>
    rw [List.mapM_cons] at h
    rcases hc : Packet.create ptype c.1 msgId dstTag ttl c.2 count with err | packet
    · simp [hc, bind, Except.bind] at h
    rcases hl : l.mapM (fun (chunk, i) => Packet.create ptype chunk msgId dstTag ttl i count) with
      err | rest
    · simp [hc, hl, bind, Except.bind] at h
    obtain rfl : packet :: rest = packets := by
      simpa [hc, hl, bind, Except.bind, pure, Except.pure] using h
    obtain ⟨-, hpayload, -, htag, -, -, -, hversion⟩ := Packet.create_ok_iff.mp hc
    obtain ⟨hrest, hall⟩ := ih hl
    refine ⟨by rw [List.map_cons, List.map_cons, hpayload, hrest], fun p hp => ?_⟩
    rcases List.mem_cons.mp hp with rfl | hp
    · exact ⟨htag, hversion⟩
    · exact hall p hp

/-- A payload that fits is one packet. -/
lemma fragment_of_le (hc : 0 < capacity) (h : payload.length ≤ capacity) :
    fragment ptype payload msgId capacity dstTag ttl =
      (Packet.create ptype payload msgId dstTag ttl 0 1).map fun packet => [packet] := by
  simp only [fragment, if_neg (Nat.pos_iff_ne_zero.mp hc), chunks_of_le h, List.zipIdx_singleton]
  rw [if_neg (by simp [MAX_FRAGMENTS])]
  rcases hcreate : Packet.create ptype payload msgId dstTag ttl 0 1 with err | packet <;>
    simp [hcreate, bind, Except.bind, Except.map, pure, Except.pure]

/-- A payload is split if it needs no more packets than there may be. -/
lemma exists_fragment (hc : 0 < capacity) (hc' : capacity ≤ 0xFFFF) (hmsgId : msgId.length = 8)
    (hdstTag : dstTag.length = 8) (httl : ttl ≤ MAX_TTL)
    (h : payload.length ≤ MAX_FRAGMENTS * capacity) :
    ∃ packet packets,
      fragment ptype payload msgId capacity dstTag ttl = .ok (packet :: packets) := by
  have hcount : (chunks capacity payload).length ≤ MAX_FRAGMENTS :=
    length_chunks_le hc (by decide) h
  have hall : ∀ entry ∈ (chunks capacity payload).zipIdx, ∃ packet,
      Packet.create ptype entry.1 msgId dstTag ttl entry.2 (chunks capacity payload).length =
        .ok packet := by
    intro entry hentry
    have hindex := List.snd_lt_of_mem_zipIdx hentry
    exact Packet.exists_create hmsgId hdstTag httl ⟨by omega, hcount⟩ hindex
      (Nat.le_trans (length_le_of_mem_chunks (List.fst_mem_of_mem_zipIdx hentry)) hc')
  have hne : chunks capacity payload ≠ [] := by
    simp only [chunks]
    split_ifs with hnil
    · exact List.cons_ne_nil _ _
    · exact hnil
  obtain ⟨packets, hpackets⟩ := exists_mapM_ok_iff.mpr hall
  have hsplit : fragment ptype payload msgId capacity dstTag ttl = .ok packets := by
    simp only [fragment, if_neg (Nat.pos_iff_ne_zero.mp hc), if_neg (Nat.not_lt.mpr hcount)]
    exact hpackets
  rcases packets with _ | ⟨packet, packets⟩
  · have hlen := (mapM_ok_iff.mp hpackets).length_eq
    rw [List.length_zipIdx, List.length_nil, List.length_eq_zero_iff] at hlen
    exact absurd hlen hne
  · exact ⟨packet, packets, hsplit⟩

/-- The packets that a payload is split into carry its chunks under one tag. -/
lemma fragment_ok (h : fragment ptype payload msgId capacity dstTag ttl = .ok packets) :
    0 < capacity ∧ packets.map Packet.payload = chunks capacity payload ∧
      ∀ packet ∈ packets, packet.dstTag = dstTag ∧ packet.version = VERSION := by
  simp only [fragment] at h
  split_ifs at h with hc
  obtain ⟨hmap, hall⟩ := create_all_ok h
  refine ⟨Nat.pos_of_ne_zero hc, ?_, hall⟩
  rw [hmap, List.zipIdx_map_fst]

lemma ttl_of_fragment (h : fragment ptype payload msgId capacity dstTag ttl = .ok packets)
    {packet : Packet β} (hp : packet ∈ packets) : packet.ttl = ttl := by
  simp only [fragment] at h
  split_ifs at h
  obtain ⟨entry, -, hcreate⟩ := (mem_of_mapM_ok h).mp hp
  exact (Packet.create_ok_iff.mp hcreate).2.2.2.2.1

lemma flatten_fragment (h : fragment ptype payload msgId capacity dstTag ttl = .ok packets) :
    (packets.map Packet.payload).flatten = payload := by
  obtain ⟨hc, hmap, -⟩ := fragment_ok h
  rw [hmap, flatten_chunks hc]

end Chatbit
