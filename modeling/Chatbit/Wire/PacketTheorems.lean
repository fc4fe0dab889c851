import Mathlib.Data.List.Induction
import Chatbit.Wire.Packet

/-!
# The frame codec is exact

What `encode` writes, `decode` reads back, and `decode` accepts exactly the frames whose header
fields are in range and whose payload is there (`WellFormed`). It reads a frame without loss: the
packet encodes to the part of the frame in front of the padding.
-/

namespace Chatbit

/-! ## Integers of a fixed width -/

/-- Octets are the digits of the number they denote. -/
lemma beOctets_ofBeOctets (l : List UInt8) : beOctets l.length (ofBeOctets l) = l := by
  induction l using List.reverseRecOn with
  | nil => rfl
  | append_singleton l b ih =>
    have hlt : b.toNat < 256 := UInt8.toNat_lt b
    have hdiv : (ofBeOctets l * 256 + b.toNat) / 256 = ofBeOctets l := by omega
    have hmod : (ofBeOctets l * 256 + b.toNat) % 256 = b.toNat := by omega
    rw [List.length_append, List.length_singleton, beOctets, ofBeOctets_append_singleton, hdiv,
      hmod, ih, UInt8.ofNat_toNat]

lemma toBytesBig_fromBytesBig (raw : Bytes UInt8) :
    toBytesBig raw.length (fromBytesBig raw) = raw := by
  have hmap : raw.map toOctet = raw := List.map_id raw
  unfold toBytesBig fromBytesBig
  rw [hmap, beOctets_ofBeOctets]
  exact List.map_id raw

/-! ## Well-formed frames -/

lemma PacketType.toInt_of_ofInt {value : UInt8} {ptype : PacketType}
    (h : PacketType.ofInt value = some ptype) : ptype.toInt = value := by
  unfold PacketType.ofInt at h
  simpa using List.find?_some h

namespace Packet

/-- The `payload_len` field. -/
def payloadLen (raw : Bytes UInt8) : ℕ := fromBytesBig ((raw.drop 21).take 2)

/-- The frames that are packets. -/
structure WellFormed (raw : Bytes UInt8) : Prop where
  header : HEADER_LEN ≤ raw.length
  version : raw[0]? = some VERSION
  ptype : ∃ value ptype, raw[1]? = some value ∧ PacketType.ofInt value = some ptype
  ttl : ∃ value, raw[2]? = some value ∧ value.toNat ≤ MAX_TTL
  fragments : ∃ index count, raw[3]? = some index ∧ raw[4]? = some count ∧ 1 ≤ count.toNat ∧
    index.toNat < count.toNat
  payload : HEADER_LEN + payloadLen raw ≤ raw.length

/-- What `decode` does with a frame that has a header. -/
lemma decode_eq {v p t i c : UInt8} {rest : Bytes UInt8} (hlen : HEADER_LEN ≤ rest.length + 5) :
    decode (v :: p :: t :: i :: c :: rest) =
      let raw := v :: p :: t :: i :: c :: rest
      if v ≠ VERSION then .error (.packetError s!"unsupported protocol version {v}")
      else if HEADER_LEN + payloadLen raw > raw.length then
        .error (.packetError "payload_len runs past the end of the frame")
      else match PacketType.ofInt p with
        | none => .error (.packetError s!"unknown packet type 0x{hexOctet p}")
        | some ptype =>
          create ptype ((raw.drop HEADER_LEN).take (payloadLen raw)) (rest.take 8)
            ((rest.drop 8).take 8) t.toNat i.toNat c.toNat := by
  unfold decode
  rw [if_neg (by simp only [List.length_cons]; omega)]
  rfl

/-- A frame that has a header has its first five octets. -/
lemma exists_octets {raw : Bytes UInt8} (h : HEADER_LEN ≤ raw.length) :
    ∃ v p t i c rest, raw = v :: p :: t :: i :: c :: rest := by
  match raw, h with
  | v :: p :: t :: i :: c :: rest, _ => exact ⟨v, p, t, i, c, rest, rfl⟩

lemma create_error {ptype : PacketType} {payload msgId dstTag : Bytes UInt8}
    {ttl fragIndex fragCount : ℕ} {err : Exc UInt8}
    (h : create ptype payload msgId dstTag ttl fragIndex fragCount = .error err) :
    ∃ msg, err = .packetError msg := by
  unfold create at h
  split_ifs at h
  all_goals exact ⟨_, (Except.error.inj h).symm⟩

/-- `decode` raises nothing but `PacketError`. -/
lemma decode_error {raw : Bytes UInt8} {err : Exc UInt8} (h : decode raw = .error err) :
    ∃ msg, err = .packetError msg := by
  by_cases hlen : HEADER_LEN ≤ raw.length
  · obtain ⟨v, p, t, i, c, rest, rfl⟩ := exists_octets hlen
    rw [decode_eq hlen] at h
    simp only at h
    split_ifs at h
    · exact ⟨_, (Except.error.inj h).symm⟩
    · exact ⟨_, (Except.error.inj h).symm⟩
    · rcases hptype : PacketType.ofInt p with _ | ptype
      · rw [hptype] at h
        exact ⟨_, (Except.error.inj h).symm⟩
      · rw [hptype] at h
        exact create_error h
  · unfold decode at h
    rw [if_pos (by omega)] at h
    exact ⟨_, (Except.error.inj h).symm⟩

/-- A well-formed frame decodes. -/
lemma WellFormed.decode {raw : Bytes UInt8} (h : WellFormed raw) :
    ∃ packet, Packet.decode raw = .ok packet := by
  obtain ⟨v, p, t, i, c, rest, rfl⟩ := exists_octets h.header
  obtain ⟨_, ptype, hp, hptype⟩ := h.ptype
  obtain ⟨_, ht, httl⟩ := h.ttl
  obtain ⟨_, _, hi, hc, hcount, hindex⟩ := h.fragments
  have hversion : v = VERSION := Option.some.inj h.version
  obtain rfl := Option.some.inj hp
  obtain rfl := Option.some.inj ht
  obtain rfl := Option.some.inj hi
  obtain rfl := Option.some.inj hc
  have hlen := h.header
  have hpayload := h.payload
  rw [decode_eq hlen]
  simp only
  rw [if_neg (not_not.mpr hversion), if_neg (by omega), hptype]
  simp only [List.length_cons, HEADER_LEN] at hlen hpayload
  apply exists_create
  · rw [List.length_take]; omega
  · rw [List.length_take, List.length_drop]; omega
  · exact httl
  · exact ⟨hcount, Nat.le_of_lt_succ (UInt8.toNat_lt c)⟩
  · exact hindex
  · -- two octets are at most 0xFFFF
    have hlt := fromBytesBig_lt (((v :: p :: t :: i :: c :: rest).drop 21).take 2)
    have htwo : (((v :: p :: t :: i :: c :: rest).drop 21).take 2).length ≤ 2 :=
      List.length_take_le _ _
    have hpow := Nat.pow_le_pow_right (show 0 < 256 by decide) htwo
    rw [List.length_take]
    unfold payloadLen
    omega

/-- What decodes is well-formed, and encodes to the part of the frame in front of the padding. -/
lemma wellFormed_of_decode {raw : Bytes UInt8} {packet : Packet UInt8}
    (h : Packet.decode raw = .ok packet) :
    WellFormed raw ∧ packet.encode 0 = .ok (raw.take (HEADER_LEN + payloadLen raw)) := by
  have hlen : HEADER_LEN ≤ raw.length := by
    by_contra hshort
    unfold Packet.decode at h
    rw [if_pos (by omega)] at h
    cases h
  obtain ⟨v, p, t, i, c, rest, rfl⟩ := exists_octets hlen
  rw [decode_eq hlen] at h
  simp only at h
  split_ifs at h with hversion hfits
  rcases hptype : PacketType.ofInt p with _ | ptype
  · rw [hptype] at h
    cases h
  rw [hptype] at h
  obtain ⟨rfl, hpayload, hmsgId, hdstTag, httl, hindex, hcount, hv⟩ := create_ok_iff.mp h
  have hversion := not_not.mp hversion
  constructor
  · refine ⟨hlen, congrArg some hversion, ⟨p, _, rfl, hptype⟩, ⟨t, rfl, httl ▸ packet.ttl_le⟩,
      ⟨i, c, rfl, rfl, hcount ▸ packet.fragCount_range.1,
        hcount ▸ hindex ▸ packet.fragIndex_lt⟩, ?_⟩
    omega
  · have hrest : HEADER_LEN + payloadLen (v :: p :: t :: i :: c :: rest) ≤ rest.length + 5 := by
      simp only [List.length_cons] at hfits
      omega
    simp only [HEADER_LEN] at hrest
    have hlength : packet.payload.length = payloadLen (v :: p :: t :: i :: c :: rest) := by
      rw [hpayload, List.length_take, List.length_drop]
      simp only [List.length_cons, HEADER_LEN]
      omega
    -- the two octets of `payload_len` are the digits of the length they denote
    have hfield : ((rest.drop 16).take 2).length = 2 := by
      rw [List.length_take, List.length_drop]
      omega
    have hlen2 : (toBytesBig 2 packet.payload.length : Bytes UInt8) = (rest.drop 16).take 2 := by
      rw [hlength]
      have hdigits := toBytesBig_fromBytesBig ((rest.drop 16).take 2)
      rwa [hfield] at hdigits
    rw [encode_zero]
    apply congrArg Except.ok
    unfold header
    rw [hlen2, hmsgId, hdstTag, hv, ← hversion, PacketType.toInt_of_ofInt hptype, httl, hindex,
      hcount, hpayload]
    generalize payloadLen (v :: p :: t :: i :: c :: rest) = n
    have htake : rest.take (8 + 8 + 2 + n) =
        rest.take 8 ++ (rest.drop 8).take 8 ++ (rest.drop 16).take 2 ++ (rest.drop 18).take n := by
      rw [List.take_add, List.take_add, List.take_add]
    show _ = (v :: p :: t :: i :: c :: rest).take (23 + n)
    rw [show 23 + n = 8 + 8 + 2 + n + 1 + 1 + 1 + 1 + 1 by omega]
    simp only [List.take_succ_cons, htake, UInt8.ofNat_toNat]
    rfl

/-! ## The codec -/

/-- Encoding and decoding are inverse to each other, and `decode` accepts exactly the well-formed
frames and raises `PacketError` on all others. -/
theorem codec_exact :
    (∀ (packet : Packet UInt8) (padTo : ℕ), packet.version = VERSION →
      padTo = 0 ∨ HEADER_LEN + packet.payload.length ≤ padTo →
      ∃ frame, packet.encode padTo = .ok frame ∧ decode frame = .ok packet) ∧
    ∀ raw : Bytes UInt8,
      (WellFormed raw → ∃ packet, decode raw = .ok packet) ∧
      (∀ packet, decode raw = .ok packet →
        WellFormed raw ∧ packet.encode 0 = .ok (raw.take (HEADER_LEN + payloadLen raw))) ∧
      ∀ err, decode raw = .error err → ∃ msg, err = .packetError msg := by
  refine ⟨?_, fun raw => ⟨WellFormed.decode, fun packet => wellFormed_of_decode,
    fun err => decode_error⟩⟩
  intro packet padTo hversion hpad
  by_cases hzero : padTo = 0
  · subst hzero
    refine ⟨packet.header ++ packet.payload, encode_zero, ?_⟩
    rw [← List.append_nil (packet.header ++ packet.payload)]
    exact decode_append hversion []
  · have hle := hpad.resolve_left hzero
    exact ⟨_, (encode_ok_iff hzero).mpr ⟨hle, rfl⟩, decode_append hversion _⟩

end Packet

end Chatbit
