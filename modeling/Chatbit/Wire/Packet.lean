import Chatbit.Crypto.Primitives

/-!
# On-air frames

The part of `chatbit/wire/packet.py` that builds and serialises frames. `__post_init__` checks every
packet that is constructed, so a `Packet` carries what it checks.
-/

namespace Chatbit

variable {β : Type} [Alphabet β]

def VERSION : UInt8 := 1
def HEADER_LEN : ℕ := 23
def MAX_TTL : ℕ := 16
def MAX_FRAGMENTS : ℕ := 255

def broadcastTag : Bytes β := zeros 8

inductive PacketType where
  | handshakeInit | handshakeResp | handshakeFin | data | beacon | cover | ack
deriving DecidableEq

def PacketType.toInt : PacketType → UInt8
  | handshakeInit => 0x01
  | handshakeResp => 0x02
  | handshakeFin => 0x03
  | data => 0x10
  | beacon => 0x20
  | cover => 0x30
  | ack => 0x40

/-- `PacketType(value)` -/
def PacketType.ofInt (value : UInt8) : Option PacketType :=
  [handshakeInit, handshakeResp, handshakeFin, data, beacon, cover, ack].find? fun ptype =>
    ptype.toInt = value

/-- The types have different numbers. -/
lemma PacketType.ofInt_toInt (ptype : PacketType) : ofInt ptype.toInt = some ptype := by
  cases ptype <;> rfl

structure Packet (β : Type) where
  ptype : PacketType
  payload : Bytes β
  msgId : Bytes β
  dstTag : Bytes β
  ttl : ℕ
  fragIndex : ℕ
  fragCount : ℕ
  version : UInt8 := VERSION
  length_msgId : msgId.length = 8
  length_dstTag : dstTag.length = 8
  ttl_le : ttl ≤ MAX_TTL
  fragCount_range : 1 ≤ fragCount ∧ fragCount ≤ MAX_FRAGMENTS
  fragIndex_lt : fragIndex < fragCount
  length_payload : payload.length ≤ 0xFFFF
deriving DecidableEq

namespace Packet

/-- The constructor, with the checks of `__post_init__`. -/
def create (ptype : PacketType) (payload msgId dstTag : Bytes β) (ttl fragIndex fragCount : ℕ) :
    Except (Exc β) (Packet β) :=
  if h₁ : msgId.length ≠ 8 then .error (.packetError "msg_id must be 8 bytes")
  else if h₂ : dstTag.length ≠ 8 then .error (.packetError "dst_tag must be 8 bytes")
  else if h₃ : ¬ ttl ≤ MAX_TTL then .error (.packetError s!"ttl must be 0..{MAX_TTL}")
  else if h₄ : ¬ (1 ≤ fragCount ∧ fragCount ≤ MAX_FRAGMENTS) then
    .error (.packetError s!"frag_count must be 1..{MAX_FRAGMENTS}")
  else if h₅ : ¬ fragIndex < fragCount then
    .error (.packetError "frag_index out of range for frag_count")
  else if h₆ : payload.length > 0xFFFF then .error (.packetError "payload too large")
  else .ok {
    ptype := ptype, payload := payload, msgId := msgId, dstTag := dstTag, ttl := ttl
    fragIndex := fragIndex, fragCount := fragCount
    length_msgId := not_not.mp h₁, length_dstTag := not_not.mp h₂, ttl_le := not_not.mp h₃
    fragCount_range := not_not.mp h₄, fragIndex_lt := not_not.mp h₅
    length_payload := Nat.not_lt.mp h₆ }

/-- The packet of fields that pass the checks. -/
def ofFields (ptype : PacketType) (payload msgId dstTag : Bytes β) (ttl fragIndex fragCount : ℕ)
    (h : msgId.length = 8 ∧ dstTag.length = 8 ∧ ttl ≤ MAX_TTL ∧
      (1 ≤ fragCount ∧ fragCount ≤ MAX_FRAGMENTS) ∧ fragIndex < fragCount ∧
      payload.length ≤ 0xFFFF) : Packet β where
  ptype := ptype
  payload := payload
  msgId := msgId
  dstTag := dstTag
  ttl := ttl
  fragIndex := fragIndex
  fragCount := fragCount
  length_msgId := h.1
  length_dstTag := h.2.1
  ttl_le := h.2.2.1
  fragCount_range := h.2.2.2.1
  fragIndex_lt := h.2.2.2.2.1
  length_payload := h.2.2.2.2.2

variable (packet : Packet β)

def dedupKey : Bytes β × ℕ := (packet.msgId, packet.fragIndex)

/-- `dst_tag == BROADCAST_TAG` -/
def isBroadcast [DecidableEq β] : Bool := packet.dstTag = broadcastTag

/-- A copy with one hop less to go, or `none` if the frame has expired. -/
def decrementTtl : Option (Packet β) :=
  if packet.ttl ≤ 1 then none
  else some { packet with
    ttl := packet.ttl - 1, ttl_le := Nat.le_trans (Nat.sub_le _ _) packet.ttl_le }

/-- `_HEADER.pack(…)`, format `!BBBBB8s8sH`. -/
def header : Bytes β :=
  [packet.version, packet.ptype.toInt, UInt8.ofNat packet.ttl, UInt8.ofNat packet.fragIndex,
    UInt8.ofNat packet.fragCount].map ofOctet ++
  packet.msgId ++ packet.dstTag ++ toBytesBig 2 packet.payload.length

/-- Serialise, zero-padding the frame to `padTo` bytes unless that is 0. -/
def encode (padTo : ℕ) : Except (Exc β) (Bytes β) :=
  let frame := packet.header ++ packet.payload
  if padTo ≠ 0 then
    if frame.length > padTo then
      .error (.packetError s!"frame is {frame.length} bytes, cannot pad down to {padTo}")
    else .ok (frame ++ zeros (padTo - frame.length))
  else .ok frame

/-- `f"{value:02x}"` -/
def hexOctet (value : UInt8) : String :=
  String.ofList [Nat.digitChar (value.toNat / 16), Nat.digitChar (value.toNat % 16)]

def decode (raw : Bytes β) : Except (Exc β) (Packet β) :=
  if raw.length < HEADER_LEN then
    .error (.packetError s!"frame shorter than {HEADER_LEN}-byte header")
  else
    let octet := fun i => (raw[i]?.map toOctet).getD 0
    let payloadLen := fromBytesBig ((raw.drop 21).take 2)
    if octet 0 ≠ VERSION then
      .error (.packetError s!"unsupported protocol version {octet 0}")
    else if HEADER_LEN + payloadLen > raw.length then
      .error (.packetError "payload_len runs past the end of the frame")
    else match PacketType.ofInt (octet 1) with
      | none => .error (.packetError s!"unknown packet type 0x{hexOctet (octet 1)}")
      | some ptype =>
        create ptype ((raw.drop HEADER_LEN).take payloadLen) ((raw.drop 5).take 8)
          ((raw.drop 13).take 8) (octet 2).toNat (octet 3).toNat (octet 4).toNat

/-! ## What the encoding consists of -/

@[simp] lemma length_header : packet.header.length = HEADER_LEN := by
  simp [header, packet.length_msgId, packet.length_dstTag, HEADER_LEN]

variable {packet}

/-- Without padding, a frame is header and payload. -/
lemma encode_zero : packet.encode 0 = .ok (packet.header ++ packet.payload) := rfl

/-- A padded frame has to have room for header and payload. -/
lemma encode_ok_iff {padTo : ℕ} (h : padTo ≠ 0) {frame : Bytes β} :
    packet.encode padTo = .ok frame ↔
      HEADER_LEN + packet.payload.length ≤ padTo ∧
        frame = packet.header ++ packet.payload ++
          zeros (padTo - (HEADER_LEN + packet.payload.length)) := by
  rw [encode]
  simp only [if_pos h, List.length_append, length_header]
  by_cases hlen : HEADER_LEN + packet.payload.length > padTo
  · rw [if_pos hlen]
    simp only [reduceCtorEq, false_iff, not_and]
    omega
  · rw [if_neg hlen, Except.ok.injEq, eq_comm]
    exact ⟨fun h => ⟨by omega, h⟩, And.right⟩

omit [Alphabet β] in
/-- A packet that is created has the fields that it was given. -/
lemma create_ok_iff {ptype : PacketType} {payload msgId dstTag : Bytes β}
    {ttl fragIndex fragCount : ℕ} :
    create ptype payload msgId dstTag ttl fragIndex fragCount = .ok packet ↔
      packet.ptype = ptype ∧ packet.payload = payload ∧ packet.msgId = msgId ∧
        packet.dstTag = dstTag ∧ packet.ttl = ttl ∧ packet.fragIndex = fragIndex ∧
        packet.fragCount = fragCount ∧ packet.version = VERSION := by
  obtain ⟨ptype', payload', msgId', dstTag', ttl', fragIndex', fragCount', version', h₁, h₂, h₃,
    h₄, h₅, h₆⟩ := packet
  constructor
  · intro h
    simp only [create] at h
    split_ifs at h
    simpa [eq_comm] using h
  · rintro ⟨rfl, rfl, rfl, rfl, rfl, rfl, rfl, rfl⟩
    simp only [create]
    rw [dif_neg (not_not.mpr h₁), dif_neg (not_not.mpr h₂), dif_neg (not_not.mpr h₃),
      dif_neg (not_not.mpr h₄), dif_neg (not_not.mpr h₅), dif_neg (Nat.not_lt.mpr h₆)]

omit [Alphabet β] in
/-- The constructor accepts what `__post_init__` lets through. -/
lemma exists_create {ptype : PacketType} {payload msgId dstTag : Bytes β}
    {ttl fragIndex fragCount : ℕ} (hmsgId : msgId.length = 8) (hdstTag : dstTag.length = 8)
    (httl : ttl ≤ MAX_TTL) (hcount : 1 ≤ fragCount ∧ fragCount ≤ MAX_FRAGMENTS)
    (hindex : fragIndex < fragCount) (hpayload : payload.length ≤ 0xFFFF) :
    ∃ packet, create ptype payload msgId dstTag ttl fragIndex fragCount = .ok packet := by
  unfold create
  rw [dif_neg (not_not.mpr hmsgId), dif_neg (not_not.mpr hdstTag), dif_neg (not_not.mpr httl),
    dif_neg (not_not.mpr hcount), dif_neg (not_not.mpr hindex), dif_neg (Nat.not_lt.mpr hpayload)]
  exact ⟨_, rfl⟩

/-! ### Where each field begins -/

/-- The header, byte by byte. -/
lemma header_append (packet : Packet β) (rest : Bytes β) :
    packet.header ++ rest =
      ofOctet packet.version :: ofOctet packet.ptype.toInt :: ofOctet (UInt8.ofNat packet.ttl) ::
      ofOctet (UInt8.ofNat packet.fragIndex) :: ofOctet (UInt8.ofNat packet.fragCount) ::
      (packet.msgId ++ (packet.dstTag ++ (toBytesBig 2 packet.payload.length ++ rest))) := by
  simp [header]

/-- The message id is behind the five numbers. -/
lemma drop_msgId (packet : Packet β) (rest : Bytes β) : (packet.header ++ rest).drop 5 =
    packet.msgId ++ (packet.dstTag ++ (toBytesBig 2 packet.payload.length ++ rest)) := by
  rw [header_append]
  rfl

/-- The tag is behind the message id. -/
lemma drop_dstTag (packet : Packet β) (rest : Bytes β) :
    (packet.header ++ rest).drop 13 =
      packet.dstTag ++ (toBytesBig 2 packet.payload.length ++ rest) := by
  rw [show 13 = 5 + 8 from rfl, ← List.drop_drop, drop_msgId, List.drop_left' packet.length_msgId]

/-- The length is behind the tag. -/
lemma drop_payloadLen (packet : Packet β) (rest : Bytes β) :
    (packet.header ++ rest).drop 21 = toBytesBig 2 packet.payload.length ++ rest := by
  rw [show 21 = 13 + 8 from rfl, ← List.drop_drop, drop_dstTag,
    List.drop_left' packet.length_dstTag]

/-- The `payload_len` field is the length of the payload. -/
lemma payloadLen_header (packet : Packet β) (rest : Bytes β) :
    fromBytesBig (((packet.header ++ rest).drop 21).take 2) = packet.payload.length := by
  have hlen := packet.length_payload
  rw [drop_payloadLen, List.take_left' (length_toBytesBig 2 _),
    fromBytesBig_toBytesBig (by omega)]

/-- The receiver reads back the packet, wherever the padding ends. -/
lemma decode_append (h : packet.version = VERSION) (padding : Bytes β) :
    decode (packet.header ++ packet.payload ++ padding) = .ok packet := by
  have httl := packet.ttl_le
  obtain ⟨hcount, hcount'⟩ := packet.fragCount_range
  have hindex := packet.fragIndex_lt
  simp only [MAX_TTL, MAX_FRAGMENTS] at httl hcount'
  have hoctets : ∀ n : ℕ, n ≤ 255 → (UInt8.ofNat n).toNat = n := fun n hn => by
    rw [UInt8.toNat_ofNat']; omega
  have hfits : ¬ (packet.header ++ (packet.payload ++ padding)).length < HEADER_LEN := by
    simp only [List.length_append, length_header]; omega
  have hfits' : ¬ HEADER_LEN + packet.payload.length >
      (packet.header ++ (packet.payload ++ padding)).length := by
    simp only [List.length_append, length_header]; omega
  rw [List.append_assoc, decode, if_neg hfits]
  simp only [payloadLen_header, if_neg hfits', drop_msgId, drop_dstTag,
    List.drop_left' packet.length_header, List.take_left' packet.length_msgId,
    List.take_left' packet.length_dstTag, List.take_left' rfl]
  simp only [header_append, List.getElem?_cons_zero, List.getElem?_cons_succ, Option.map_some,
    Option.getD_some, Alphabet.toOctet_ofOctet, h, ne_eq, not_true_eq_false, if_false,
    PacketType.ofInt_toInt]
  refine create_ok_iff.mpr ⟨rfl, rfl, rfl, rfl, ?_, ?_, ?_, h⟩
  · exact (hoctets _ (by omega)).symm
  · exact (hoctets _ (by omega)).symm
  · exact (hoctets _ (by omega)).symm

end Packet

end Chatbit
