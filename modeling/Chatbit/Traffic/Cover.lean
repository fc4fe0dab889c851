import Chatbit.Traffic.FailedSends
import Chatbit.Traffic.Linking
import Chatbit.Traffic.Pipeline

/-!
# Cover traffic

`_cover_loop` of `chatbit/node.py` sends random payloads as `DATA` under random tags, so that a
listener without keys cannot tell them from texts. What it can read of a frame is its `Shape`. A
text is longer than the shortest cover payload and may need several frames, which cover never does:
the shapes of the two are the same only where there are none (`textShapes_eq_iff`).
-/

namespace Chatbit

open Lib

variable {β X E τ : Type} [Alphabet β] [DecidableEq β]

/-! ## The loop -/

/-- `random.randint(low, high)`, where `choice` decides. -/
def randint (low high choice : ℕ) : Except (Exc β) ℕ :=
  if high < low then .error (.valueError s!"empty range in randrange({low}, {high + 1})")
  else .ok (low + choice % (high + 1 - low))

/-- `random_bytes(length)`, from a stream of octets. -/
def randomBytes (octets : ℕ → UInt8) (length : ℕ) : Bytes β :=
  (List.range length).map fun i => ofOctet (octets i)

/-- The clock and the random draws of a call of `send_text` have the sizes that they are drawn
with. -/
def SendEnv.Drawn (env : SendEnv β) : Prop := env.timestamp.length = 8 ∧ env.msgId.length = 8

/-- The first second of the first epoch. -/
def SendEnv.atStart (msgId : Bytes β) : SendEnv β where
  timestamp := zeros 8
  wallNow := 0
  msgId := msgId
  clock _ := 0

/-- The settings of `MeshConfig` that are about cover traffic. -/
structure CoverConfig where
  coverTraffic : Bool := false
  coverIntervalMean : ℚ := 120
  coverMaxDutyFraction : ℚ := 1 / 4

/-- `rng.expovariate(1.0 / mesh.cover_interval_mean)`, where `draw` is `-log(1 - random())`. -/
def CoverConfig.delay (draw : ℚ) (cover : CoverConfig) : ℚ := draw / (1 / cover.coverIntervalMean)

/-- What one turn of `_cover_loop` draws. -/
structure CoverEnv (β : Type) where
  choice : ℕ
  octets : ℕ → UInt8
  tag : Bytes β
  send : SendEnv β

def CoverEnv.Drawn (env : CoverEnv β) : Prop := env.tag.length = 8 ∧ env.send.Drawn

namespace Node

variable {T : Transport β τ}

/-- The body of the loop. What it raises, the loop suppresses. -/
def sendCover (env : CoverEnv β) : Method (Exc β) (Node T X E) Unit := do
  let node ← Method.self
  let length ← Method.eval (randint 40 node.capacity env.choice)
  emit .data (randomBytes env.octets length) env.tag env.send
  Method.update fun node =>
    { node with stats := { node.stats with coverSent := node.stats.coverSent + 1 } }

end Node

/-! ## What a listener reads -/

/-- The header but for the message id and the tag, the size, and the counters of the ratchet header,
where a frame begins with one. -/
structure Shape where
  version : UInt8
  ptype : UInt8
  ttl : UInt8
  fragIndex : UInt8
  fragCount : UInt8
  payloadLen : ℕ
  length : ℕ
  counters : Option (ℕ × ℕ)
deriving DecidableEq

/-- `pn` and `n` at the start of a payload. -/
def countersOf (payload : Bytes β) : ℕ × ℕ :=
  (fromBytesBig ((payload.drop 32).take 4), fromBytesBig ((payload.drop 36).take 4))

def shapeOf (frame : Bytes β) : Shape :=
  let octet := fun i => (frame[i]?.map toOctet).getD 0
  let payloadLen := fromBytesBig ((frame.drop 21).take 2)
  { version := octet 0, ptype := octet 1, ttl := octet 2, fragIndex := octet 3
    fragCount := octet 4, payloadLen := payloadLen, length := frame.length
    counters :=
      if octet 3 = 0 ∧ RATCHET_HEADER_LEN ≤ payloadLen then
        some (countersOf (frame.drop HEADER_LEN))
      else none }

/-- The shape of a packet in a frame of this size. -/
def Packet.shape (size : ℕ) (packet : Packet β) : Shape where
  version := packet.version
  ptype := packet.ptype.toInt
  ttl := UInt8.ofNat packet.ttl
  fragIndex := UInt8.ofNat packet.fragIndex
  fragCount := UInt8.ofNat packet.fragCount
  payloadLen := packet.payload.length
  length := size
  counters :=
    if packet.fragIndex = 0 ∧ RATCHET_HEADER_LEN ≤ packet.payload.length then
      some (countersOf packet.payload)
    else none

omit [DecidableEq β] in
/-- The counters are in the first bytes of a payload. -/
lemma countersOf_append {payload : Bytes β} (h : RATCHET_HEADER_LEN ≤ payload.length)
    (rest : Bytes β) : countersOf (payload ++ rest) = countersOf payload := by
  simp only [RATCHET_HEADER_LEN] at h
  rw [countersOf, countersOf, List.drop_append_of_le_length (by omega),
    List.drop_append_of_le_length (by omega), List.take_append_of_le_length (by simp; omega),
    List.take_append_of_le_length (by simp; omega)]

omit [DecidableEq β] in
/-- Each counter is read from four bytes. -/
lemma countersOf_lt (payload : Bytes β) :
    (countersOf payload).1 < 256 ^ 4 ∧ (countersOf payload).2 < 256 ^ 4 := by
  have hlt : ∀ raw : Bytes β, fromBytesBig (raw.take 4) < 256 ^ 4 := fun raw =>
    (fromBytesBig_lt _).trans_le (Nat.pow_le_pow_right (by decide) (List.length_take_le 4 raw))
  exact ⟨hlt _, hlt _⟩

namespace Packet

omit [Alphabet β] [DecidableEq β] in
/-- A fragment count fits its octet. -/
lemma ofNat_fragCount_inj {packet packet' : Packet β}
    (h : UInt8.ofNat packet.fragCount = UInt8.ofNat packet'.fragCount) :
    packet.fragCount = packet'.fragCount := by
  have hle := packet.fragCount_range.2
  have hle' := packet'.fragCount_range.2
  simp only [MAX_FRAGMENTS] at hle hle'
  have htoNat := congrArg UInt8.toNat h
  rw [UInt8.toNat_ofNat', UInt8.toNat_ofNat'] at htoNat
  omega

omit [Alphabet β] [DecidableEq β] in
/-- So does the index of a fragment. -/
lemma ofNat_fragIndex_eq_zero_iff (packet : Packet β) :
    UInt8.ofNat packet.fragIndex = 0 ↔ packet.fragIndex = 0 := by
  have hlt := packet.fragIndex_lt
  have hle := packet.fragCount_range.2
  simp only [MAX_FRAGMENTS] at hle
  rw [← UInt8.toNat_inj, UInt8.toNat_ofNat']
  show packet.fragIndex % 256 = 0 ↔ _
  omega

omit [DecidableEq β] in
/-- A listener reads the shape of the packet off its frame. -/
lemma shapeOf_frame (packet : Packet β) (padding : Bytes β) :
    shapeOf (packet.header ++ packet.payload ++ padding) =
      packet.shape (HEADER_LEN + packet.payload.length + padding.length) := by
  have hdrop : (packet.header ++ (packet.payload ++ padding)).drop HEADER_LEN =
      packet.payload ++ padding := List.drop_left' packet.length_header
  rw [List.append_assoc]
  unfold shapeOf shape
  simp only [payloadLen_header, hdrop]
  simp only [header_append, List.getElem?_cons_zero, List.getElem?_cons_succ, Option.map_some,
    Option.getD_some, Alphabet.toOctet_ofOctet, ofNat_fragIndex_eq_zero_iff]
  rw [← header_append]
  congr 1
  · simp only [List.length_append, length_header, Nat.add_assoc]
  · split_ifs with hheader
    · rw [countersOf_append hheader.2]
    · rfl

end Packet

/-! ## What a call hands over -/

namespace Node

variable {P : Primitives β X E} {T : Transport β τ} {node : Node T X E} {peer : Bytes β}
  {cover : CoverConfig}

/-- The frames that a call hands to the transport. -/
def handedBy {α : Type} (m : Method (Exc β) (Node T X E) α) (node : Node T X E) :
    List (Bytes β) := (m node).2.handed.drop node.handed.length

omit [Alphabet β] [DecidableEq β] in
lemma handedBy_eq {α : Type} {m : Method (Exc β) (Node T X E) α} {frames : List (Bytes β)}
    (h : (m node).2.handed = node.handed ++ frames) : handedBy m node = frames := by
  rw [handedBy, h, List.drop_left]

/-- Originating a packet leaves the configuration alone. -/
lemma mesh_originate (packet : Packet β) (now : ℚ) (node : Node T X E) :
    (originate packet now node).2.mesh = node.mesh := by
  have hmark : ∀ (router : Router β) (node : Node T X E),
      { node with router := router }.mesh = node.mesh := fun _ _ => rfl
  have hkeeps : Method.Keeps Node.mesh
      (originate packet now : Method (Exc β) (Node T X E) Unit) :=
    .bind (.onField hmark _) fun _ => keeps_transmit (fun _ _ => rfl) fun _ _ => rfl
  exact hkeeps node

/-- Frames of these packets, and that of the first one if it has one: the rest is cut off where the
transport or the serialisation raises. -/
structure CutFrom (mtu : ℕ) (padding : PaddingPolicy) (packets : List (Packet β))
    (frames : List (Bytes β)) : Prop where
  mem : ∀ frame ∈ frames, ∃ packet ∈ packets, frameOf mtu padding packet = .ok frame
  first : ∀ packet ∈ packets.head?, ∀ frame, frameOf mtu padding packet = .ok frame →
    frame ∈ frames

omit [DecidableEq β] in
/-- No packet has no frame. -/
lemma CutFrom.nil (mtu : ℕ) (padding : PaddingPolicy) : CutFrom (β := β) mtu padding [] [] where
  mem _ h := nomatch h
  first _ h := nomatch h

/-- What is handed over is cut from the packets, in their order. -/
lemma handed_originateAll (clock : ℕ → ℚ) (packets : List (Packet β)) (node : Node T X E) :
    ∃ frames, (originateAll clock packets node).2.handed = node.handed ++ frames ∧
      CutFrom T.mtu node.mesh.padding packets frames := by
  induction packets generalizing node with
  | nil => exact ⟨[], (List.append_nil _).symm, .nil _ _⟩
  | cons packet packets ih =>
    have hmesh := mesh_originate packet (clock packet.fragIndex) node
    rw [originateAll, Method.bind_apply]
    -- without a frame the loop ends before the transport is called
    rcases hframe : frameOf T.mtu node.mesh.padding packet with err | frame
    · obtain ⟨herr, hhanded⟩ := originate_of_error hframe (clock packet.fragIndex)
      rcases horiginate : originate packet (clock packet.fragIndex) node with ⟨_ | ⟨⟩, node₁⟩
      · rw [horiginate] at hhanded
        refine ⟨[], hhanded.trans (List.append_nil _).symm, fun f hf => absurd hf List.not_mem_nil, ?_⟩
        rintro _ ⟨⟩ frame hframe'
        rw [hframe] at hframe'
        cases hframe'
      · rw [horiginate] at herr
        cases herr
    · have hhanded := handed_originate hframe (clock packet.fragIndex)
      have hfirst : ∀ frames : List (Bytes β), ∀ p ∈ (packet :: packets).head?, ∀ frame',
          frameOf T.mtu node.mesh.padding p = .ok frame' → frame' ∈ frame :: frames := by
        rintro frames _ ⟨⟩ frame' hframe'
        obtain rfl := Except.ok.inj (hframe.symm.trans hframe')
        exact List.mem_cons_self
      -- a transport that raises ends the loop behind this frame
      rcases horiginate : originate packet (clock packet.fragIndex) node with ⟨err | ⟨⟩, node₁⟩
      · rw [horiginate] at hhanded
        refine ⟨[frame], hhanded, fun f hf => ?_, hfirst []⟩
        obtain rfl := List.mem_singleton.mp hf
        exact ⟨packet, List.mem_cons_self, hframe⟩
      · rw [horiginate] at hhanded hmesh
        obtain ⟨frames, hframes, hcut⟩ := ih node₁
        rw [hmesh] at hcut
        refine ⟨frame :: frames, ?_, fun f hf => ?_, hfirst frames⟩
        · show (originateAll clock packets node₁).2.handed = _
          rw [hframes, hhanded, List.append_assoc, List.singleton_append]
        · rcases List.mem_cons.mp hf with rfl | hf
          · exact ⟨packet, List.mem_cons_self, hframe⟩
          · obtain ⟨p, hp, hframe'⟩ := hcut.mem f hf
            exact ⟨p, List.mem_cons_of_mem _ hp, hframe'⟩

/-- The packets that `_emit` builds, if it does. -/
def packetsOf (payload tag msgId : Bytes β) (node : Node T X E) : List (Packet β) :=
  (fragment .data payload msgId node.capacity tag node.mesh.defaultTtl).toOption.getD []

/-- The frames of a payload are those of its packets, or the first of them. -/
lemma handed_emit (payload tag : Bytes β) (env : SendEnv β) (node : Node T X E) :
    ∃ frames, (emit .data payload tag env node).2.handed = node.handed ++ frames ∧
      CutFrom T.mtu node.mesh.padding (packetsOf payload tag env.msgId node) frames := by
  rw [emit, Method.self_bind, packetsOf]
  rcases fragment .data payload env.msgId node.capacity tag node.mesh.defaultTtl with err | packets
  · rw [Method.bind_of_error (Method.eval_apply _ _)]
    exact ⟨[], (List.append_nil _).symm, .nil _ _⟩
  · rw [Method.bind_of_ok (Method.eval_apply _ _)]
    exact handed_originateAll env.clock packets node

/-- The packets of a text. -/
def textPackets (P : Primitives β X E) (session : Session β X) (text : String) (env : SendEnv β)
    (node : Node T X E) : List (Packet β) :=
  match (Session.encryptTagged P (textPayload env text) env.wallNow session).1 with
  | .ok (blob, tag) => packetsOf blob tag env.msgId node
  | .error _ => []

/-- The frames of a text are those of its packets, or the first of them. -/
lemma handed_sendText {session : Session β X} (hs : node.sessions.sessionFor peer = some session)
    (text : String) (env : SendEnv β) :
    CutFrom T.mtu node.mesh.padding (textPackets P session text env node)
      (handedBy (sendText P peer text env) node) := by
  rw [textPackets]
  rcases htagged : Session.encryptTagged P (textPayload env text) env.wallNow session with
    ⟨err | ⟨blob, tag⟩, session'⟩
  · rw [textPayload] at htagged
    have hhanded : (sendText P peer text env node).2.handed = node.handed ++ [] := by
      rw [sendText, Method.self_bind, hs]
      simp only
      rw [Method.bind_apply, onSession, Method.onField_apply, htagged]
      exact (List.append_nil _).symm
    rw [handedBy_eq hhanded]
    exact .nil _ _
  · obtain ⟨henc, htag⟩ := Session.encryptTagged_ok_iff.mp htagged
    obtain ⟨frames, hhanded, hcut⟩ := handed_emit blob tag env { node with
      sessions := { node.sessions with sessions := node.sessions.sessions.set peer session' } }
    rw [handedBy_eq ((handed_sendText_of_encrypted hs henc htag).trans hhanded)]
    exact hcut

/-- The packets of a cover payload. -/
def coverPackets (env : CoverEnv β) (node : Node T X E) : List (Packet β) :=
  match randint (β := β) 40 node.capacity env.choice with
  | .ok length => packetsOf (randomBytes env.octets length) env.tag env.send.msgId node
  | .error _ => []

/-- So are the frames of cover traffic. -/
lemma handed_sendCover (env : CoverEnv β) (node : Node T X E) :
    CutFrom T.mtu node.mesh.padding (coverPackets env node) (handedBy (sendCover env) node) := by
  rw [coverPackets]
  rcases hlength : randint (β := β) 40 node.capacity env.choice with err | length
  · have hhanded : (sendCover env node).2.handed = node.handed ++ [] := by
      rw [sendCover, Method.self_bind, hlength, Method.bind_of_error (Method.eval_apply _ _)]
      exact (List.append_nil _).symm
    rw [handedBy_eq hhanded]
    exact .nil _ _
  · obtain ⟨frames, hhanded, hcut⟩ := handed_emit (randomBytes env.octets length) env.tag env.send
      node
    have hcover : (sendCover env node).2.handed = node.handed ++ frames := by
      rw [← hhanded, sendCover, Method.self_bind, hlength,
        Method.bind_of_ok (Method.eval_apply _ _), Method.bind_apply]
      rcases emit .data (randomBytes env.octets length) env.tag env.send node with ⟨_ | ⟨⟩, _⟩ <;>
        rfl
    rw [handedBy_eq hcover]
    exact hcut

/-! ## The packets -/

omit [Alphabet β] [DecidableEq β] in
/-- The packets of a payload come from `fragment`. -/
lemma mem_packetsOf {payload tag msgId : Bytes β} {packet : Packet β}
    (h : packet ∈ packetsOf payload tag msgId node) :
    ∃ packets, fragment .data payload msgId node.capacity tag node.mesh.defaultTtl = .ok packets ∧
      packet ∈ packets := by
  rw [packetsOf] at h
  rcases hfragment : fragment .data payload msgId node.capacity tag node.mesh.defaultTtl with
    err | packets
  · rw [hfragment] at h
    exact absurd h List.not_mem_nil
  · rw [hfragment] at h
    exact ⟨packets, rfl, h⟩

omit [Alphabet β] [DecidableEq β] in
/-- What the packets of a message have in common. -/
lemma fields_of_mem_packetsOf {payload tag msgId : Bytes β} {packet : Packet β}
    (h : packet ∈ packetsOf payload tag msgId node) :
    packet.version = VERSION ∧ packet.ptype = .data ∧ packet.ttl = node.mesh.defaultTtl ∧
      packet.payload.length ≤ node.capacity ∧
      (packet.fragCount = 1 → packet.payload = payload) := by
  obtain ⟨packets, hfragment, hp⟩ := mem_packetsOf h
  have hfragments := fragments_of_fragment hfragment
  obtain ⟨-, -, hall⟩ := fragment_ok hfragment
  obtain ⟨hcount, hptype, -⟩ := hfragments.fields packet hp
  refine ⟨(hall packet hp).2, hptype, ttl_of_fragment hfragment hp,
    length_payload_le_of_fragment hfragment hp, fun hone => ?_⟩
  -- a message in one packet is the payload of the packet
  obtain ⟨only, rfl⟩ := List.length_eq_one_iff.mp (hcount.symm.trans hone)
  obtain rfl := List.mem_singleton.mp hp
  simpa using hfragments.payload

omit [Alphabet β] [DecidableEq β] in
/-- A payload that fits a frame is one packet. -/
lemma packetsOf_of_le {payload tag msgId : Bytes β} (h : payload.length ≤ node.capacity) :
    packetsOf payload tag msgId node =
      (Packet.create .data payload msgId tag node.mesh.defaultTtl 0 1).toOption.toList := by
  rw [packetsOf, fragment_of_le (capacityFor_ok node.capacity_eq).2 h]
  rcases Packet.create .data payload msgId tag node.mesh.defaultTtl 0 1 with err | packet <;> rfl

omit [DecidableEq β] in
/-- The ratchet header and the length of an encrypted text. -/
lemma countersOf_encrypt (hP : P.Correct) {session session' : Session β X} {text : String}
    {env : SendEnv β} {blob : Bytes β}
    (h : Session.encrypt P (textPayload env text) session = (.ok blob, session')) :
    countersOf blob = (session.ratchet.pn, session.ratchet.ns) := by
  obtain ⟨header, encoded, ct, st, hratchet, hencode, rfl, -⟩ := Session.encrypt_ok_iff.mp h
  obtain ⟨-, -, -, rfl, -⟩ := (DoubleRatchet.encrypt_ok_iff hP).mp hratchet
  have hpub : (DoubleRatchet.nextHeader P session.ratchet).ratchetPub.length = 32 :=
    hP.length_x25519Public _
  have hlen := MessageHeader.length_of_encode hencode
  obtain ⟨hpn, hn, rfl⟩ := MessageHeader.encode_ok_iff.mp hencode
  rw [countersOf_append (by rw [hlen, hpub]; rfl), countersOf, List.append_assoc,
    List.drop_left' hpub, List.take_left' (length_toBytesBig 4 _), fromBytesBig_toBytesBig hpn,
    ← List.append_assoc, List.drop_left' (by rw [List.length_append, hpub, length_toBytesBig]),
    List.take_of_length_le (Nat.le_of_eq (length_toBytesBig 4 _)), fromBytesBig_toBytesBig hn]
  rfl

omit [Alphabet β] [DecidableEq β] in
/-- Any number of the range may be drawn. -/
lemma randint_ok_iff {low high choice value : ℕ} :
    randint (β := β) low high choice = .ok value ↔
      low ≤ high ∧ value = low + choice % (high + 1 - low) := by
  rw [randint]
  split_ifs with h
  · exact ⟨fun h' => (nomatch h'), fun h' => absurd h'.1 (by omega)⟩
  · rw [Except.ok.injEq, eq_comm]
    exact ⟨fun h' => ⟨by omega, h'⟩, And.right⟩

omit [DecidableEq β] in
@[simp] lemma length_randomBytes (octets : ℕ → UInt8) (length : ℕ) :
    (randomBytes octets length : Bytes β).length = length := by
  simp [randomBytes]

omit [DecidableEq β] in
/-- A cover payload is one packet. -/
lemma mem_coverPackets_iff {env : CoverEnv β} {packet : Packet β} :
    packet ∈ coverPackets env node ↔ ∃ length,
      randint (β := β) 40 node.capacity env.choice = .ok length ∧
      Packet.create .data (randomBytes env.octets length) env.send.msgId env.tag
        node.mesh.defaultTtl 0 1 = .ok packet := by
  rw [coverPackets]
  rcases hlength : randint (β := β) 40 node.capacity env.choice with err | length
  · simp
  · obtain ⟨hle, rfl⟩ := randint_ok_iff.mp hlength
    have hmod := Nat.mod_lt env.choice (show 0 < node.capacity + 1 - 40 by omega)
    simp only [Except.ok.injEq, exists_eq_left']
    rw [packetsOf_of_le (by rw [length_randomBytes]; omega)]
    rcases Packet.create .data (randomBytes env.octets (40 + env.choice % (node.capacity + 1 - 40)))
      env.send.msgId env.tag node.mesh.defaultTtl 0 1 with err | packet' <;>
      simp [Except.toOption, eq_comm]

/-! ## The shapes of texts and of cover traffic -/

/-- A text to the peer, or a turn of the cover loop. -/
inductive Turn (β : Type) where
  | text (text : String) (env : SendEnv β)
  | cover (env : CoverEnv β)

/-- A mean of zero ends the loop before its first turn. -/
def Turn.Drawn (cover : CoverConfig) : Turn β → Prop
  | .text _ env => env.Drawn
  | .cover env => cover.coverIntervalMean ≠ 0 ∧ env.Drawn

section Shapes

variable (P peer) (cover : CoverConfig)

def turn (node : Node T X E) : Turn β → Node T X E
  | .text text env => (sendText P peer text env node).2
  | .cover env => (sendCover env node).2

/-- What texts to the peer and cover traffic lead to. -/
def LeadsTo : Node T X E → Node T X E → Prop :=
  Reaches (fun _ turn => turn.Drawn cover) (turn P peer)

/-- The shapes of the frames that sending texts to the peer can produce. -/
def textShapes (node : Node T X E) : Set Shape :=
  {shape | ∃ node' text env frame, node.LeadsTo P peer cover node' ∧
    (Turn.text text env).Drawn cover ∧ frame ∈ handedBy (sendText P peer text env) node' ∧
      shapeOf frame = shape}

/-- The shapes of the frames that `_cover_loop` can produce. -/
def coverShapes (node : Node T X E) : Set Shape :=
  {shape | ∃ node' env frame, node.LeadsTo P peer cover node' ∧ (Turn.cover env).Drawn cover ∧
    frame ∈ handedBy (sendCover env) node' ∧ shapeOf frame = shape}

end Shapes

/-! ### What runs keep -/

/-- Sending a payload leaves the configuration alone. -/
lemma keeps_mesh_emit (ptype : PacketType) (payload tag : Bytes β) (env : SendEnv β) :
    Method.Keeps Node.mesh (emit ptype payload tag env : Method (Exc β) (Node T X E) Unit) :=
  .bind (.self _) fun _ => .bind (.eval _ _) fun packets =>
    keeps_originateAll (fun _ _ => rfl) (fun _ _ => rfl) (fun _ _ => rfl) env.clock packets

/-- So does sending a text. -/
lemma mesh_sendText (text : String) (env : SendEnv β) (node : Node T X E) :
    (sendText P peer text env node).2.mesh = node.mesh := by
  rcases hs : node.sessions.sessionFor peer with _ | session
  · rw [sendText, Method.self_bind, hs]
    rfl
  rcases htagged : Session.encryptTagged P (textPayload env text) env.wallNow session with
    ⟨err | ⟨blob, tag⟩, session'⟩
  · rw [textPayload] at htagged
    rw [sendText, Method.self_bind, hs]
    simp only
    rw [Method.bind_apply, onSession, Method.onField_apply, htagged]
  · obtain ⟨henc, htag⟩ := Session.encryptTagged_ok_iff.mp htagged
    have hmesh := keeps_mesh_emit .data blob tag env { node with
      sessions := { node.sessions with sessions := node.sessions.sessions.set peer session' } }
    rw [sendText_of_encrypted hs henc htag, Method.bind_apply]
    revert hmesh
    rcases emit .data blob tag env { node with
      sessions := { node.sessions with sessions := node.sessions.sessions.set peer session' } } with
      ⟨_ | ⟨⟩, _⟩
    · exact id
    · exact id

/-- A turn of the cover loop leaves what `_emit` leaves. -/
lemma keeps_sendCover {ρ : Type} {f : Node T X E → ρ} (env : CoverEnv β)
    (hemit : ∀ payload tag env,
      Method.Keeps f (emit .data payload tag env : Method (Exc β) (Node T X E) Unit))
    (hstats : ∀ (stats : NodeStats) (node : Node T X E), f { node with stats := stats } = f node) :
    Method.Keeps f (sendCover env : Method (Exc β) (Node T X E) Unit) :=
  .bind (.self _) fun _ => .bind (.eval _ _) fun _ =>
    .bind (hemit _ _ _) fun _ => .update fun _ => hstats _ _

lemma mesh_turn (turn : Turn β) (node : Node T X E) : (node.turn P peer turn).mesh = node.mesh := by
  cases turn with
  | text text env => exact mesh_sendText text env node
  | cover env => exact keeps_sendCover env (keeps_mesh_emit .data) (fun _ _ => rfl) node

/-- A run keeps the configuration. -/
lemma LeadsTo.mesh {node' : Node T X E} (h : node.LeadsTo P peer cover node') :
    node'.mesh = node.mesh :=
  h.invariant (I := fun node' => node'.mesh = node.mesh) rfl
    fun u turn hu _ => (mesh_turn turn u).trans hu

omit [Alphabet β] [DecidableEq β] in
/-- The transport decides the capacity. -/
lemma capacity_eq_capacity (node node' : Node T X E) : node.capacity = node'.capacity :=
  Except.ok.inj (node.capacity_eq.symm.trans node'.capacity_eq)

/-! ### Cover traffic -/

omit [DecidableEq β] in
/-- Packets with the same fields in the clear have frames of the same shape. -/
lemma shapeOf_frameOf {packet : Packet β} (packet' : Packet β) {mtu : ℕ} {padding : PaddingPolicy}
    {frame : Bytes β} (hframe : frameOf mtu padding packet = .ok frame)
    (hversion : packet.version = packet'.version) (hptype : packet.ptype = packet'.ptype)
    (httl : packet.ttl = packet'.ttl) (hindex : packet.fragIndex = packet'.fragIndex)
    (hcount : packet.fragCount = packet'.fragCount)
    (hlen : packet.payload.length = packet'.payload.length)
    (hcounters : countersOf packet.payload = countersOf packet'.payload) :
    ∃ frame', frameOf mtu padding packet' = .ok frame' ∧ shapeOf frame' = shapeOf frame := by
  obtain ⟨size, hsize, rfl⟩ := frameOf_ok_iff.mp hframe
  refine ⟨_, frameOf_ok_iff.mpr ⟨size, hlen ▸ hsize, rfl⟩, ?_⟩
  rw [Packet.shapeOf_frame, Packet.shapeOf_frame, Packet.shape, Packet.shape, hversion, hptype,
    httl, hindex, hcount, hlen, hcounters]

omit [DecidableEq β] in
/-- Random bytes may have the octets of any byte string. -/
lemma exists_randomBytes (payload : Bytes β) :
    ∃ octets, (randomBytes octets payload.length : Bytes β) =
      payload.map fun b => ofOctet (toOctet b) := by
  refine ⟨fun i => (payload[i]?.map toOctet).getD 0, List.ext_getElem (by simp) fun i h _ => ?_⟩
  have hi : i < payload.length := by simpa using h
  simp [randomBytes, List.getElem?_eq_getElem hi]

omit [DecidableEq β] in
/-- The counters are read from the octets alone. -/
lemma countersOf_map (payload : Bytes β) :
    countersOf (payload.map fun b => (ofOctet (toOctet b) : β)) = countersOf payload := by
  simp [countersOf, fromBytesBig, ← List.map_drop, ← List.map_take, Function.comp_def]

/-- Cover traffic has the shapes of all messages in one packet that it has the sizes for. -/
theorem mem_coverShapes_iff {shape : Shape} :
    shape ∈ node.coverShapes P peer cover ↔ cover.coverIntervalMean ≠ 0 ∧
      ∃ (packet : Packet β) (frame : Bytes β),
        frameOf T.mtu node.mesh.padding packet = .ok frame ∧ shapeOf frame = shape ∧
        packet.version = VERSION ∧ packet.ptype = .data ∧ packet.ttl = node.mesh.defaultTtl ∧
        packet.fragCount = 1 ∧ 40 ≤ packet.payload.length ∧
        packet.payload.length ≤ node.capacity := by
  constructor
  -- a cover payload is one packet, whatever was drawn
  · rintro ⟨node', env, frame, hleads, ⟨hmean, -⟩, hframe, rfl⟩
    obtain ⟨packet, hp, hframe⟩ := (handed_sendCover env node').mem frame hframe
    obtain ⟨length, hlength, hcreate⟩ := mem_coverPackets_iff.mp hp
    obtain ⟨hptype, hpayload, -, -, httl, -, hcount, hversion⟩ := Packet.create_ok_iff.mp hcreate
    obtain ⟨hle, hvalue⟩ := randint_ok_iff.mp hlength
    have hmod := Nat.mod_lt env.choice (show 0 < node'.capacity + 1 - 40 by omega)
    have hlen : packet.payload.length = length := by rw [hpayload, length_randomBytes]
    have hcapacity := capacity_eq_capacity node' node
    rw [hleads.mesh] at hframe httl
    exact ⟨hmean, packet, frame, hframe, rfl, hversion, hptype, httl, hcount, by omega, by omega⟩
  · rintro ⟨hmean, packet, frame, hframe, rfl, hversion, hptype, httl, hcount, hmin, hmax⟩
    have hindex : packet.fragIndex = 0 := by
      have := packet.fragIndex_lt
      omega
    -- draw the length and the octets of the payload
    obtain ⟨octets, hoctets⟩ := exists_randomBytes packet.payload
    let env : CoverEnv β := {
      choice := packet.payload.length - 40, octets := octets, tag := packet.dstTag
      send := .atStart packet.msgId }
    have hlength : randint (β := β) 40 node.capacity env.choice = .ok packet.payload.length := by
      refine randint_ok_iff.mpr ⟨by omega, ?_⟩
      show _ = 40 + (packet.payload.length - 40) % _
      rw [Nat.mod_eq_of_lt (by omega)]
      omega
    obtain ⟨chaff, hcreate⟩ : ∃ chaff, Packet.create .data
        (randomBytes octets packet.payload.length) packet.msgId packet.dstTag
        node.mesh.defaultTtl 0 1 = .ok chaff :=
      Packet.exists_create packet.length_msgId packet.length_dstTag (httl ▸ packet.ttl_le)
        ⟨le_rfl, by decide⟩ Nat.zero_lt_one
        (by rw [length_randomBytes]; exact packet.length_payload)
    obtain ⟨hptype', hpayload', -, -, httl', hindex', hcount', hversion'⟩ :=
      Packet.create_ok_iff.mp hcreate
    obtain ⟨frame', hframe', hshape⟩ := shapeOf_frameOf chaff hframe
      (hversion.trans hversion'.symm) (hptype.trans hptype'.symm) (httl.trans httl'.symm)
      (hindex.trans hindex'.symm) (hcount.trans hcount'.symm)
      (by rw [hpayload', length_randomBytes]) (by rw [hpayload', hoctets, countersOf_map])
    have hcut := handed_sendCover env node
    have hpackets : coverPackets env node = [chaff] := by
      rw [coverPackets, hlength]
      show packetsOf (randomBytes octets packet.payload.length) packet.dstTag packet.msgId node = _
      rw [packetsOf_of_le (by rw [length_randomBytes]; exact hmax), hcreate]
      rfl
    refine ⟨node, env, frame', .refl node, ⟨hmean, packet.length_dstTag, length_zeros 8,
      packet.length_msgId⟩, hcut.first chaff ?_ frame' hframe', hshape⟩
    rw [hpackets]
    exact rfl

end Node

/-! ### Texts -/

namespace Session

variable {P : Primitives β X E} {session : Session β X}

/-- No text can be encrypted: there is no sending chain, or a counter does not fit the header. -/
def CannotSend (session : Session β X) : Prop :=
  session.ratchet.cks = none ∨ 256 ^ 4 ≤ session.ratchet.pn ∨ 256 ^ 4 ≤ session.ratchet.ns

/-- What encrypting texts does to the session: the counter of the chain moves on. -/
structure Continues (session session' : Session β X) : Prop where
  cks : session'.ratchet.cks = none ↔ session.ratchet.cks = none
  pn : session'.ratchet.pn = session.ratchet.pn
  ns : session.ratchet.ns ≤ session'.ratchet.ns

omit [DecidableEq β] in
/-- Encrypting a text lets the session go on, also where it fails. -/
lemma continues_encrypt (session : Session β X) (plaintext : Bytes β) :
    session.Continues (encrypt P plaintext session).2 := by
  rcases hcks : session.ratchet.cks with _ | cks
  · obtain ⟨err, henc⟩ := encrypt_of_none (P := P) hcks plaintext
    rw [henc]
    exact ⟨Iff.rfl, rfl, le_rfl⟩
  · constructor
    · rw [ratchet_encrypt hcks, hcks]
      exact iff_of_false (Option.some_ne_none _) (Option.some_ne_none _)
    · rw [ratchet_encrypt hcks]
      rfl
    · rw [ratchet_encrypt hcks]
      exact Nat.le_succ _

omit [Alphabet β] [DecidableEq β] in
lemma Continues.trans {session session' session'' : Session β X} (h : session.Continues session')
    (h' : session'.Continues session'') : session.Continues session'' :=
  ⟨h'.cks.trans h.cks, h'.pn.trans h.pn, h.ns.trans h'.ns⟩

omit [Alphabet β] [DecidableEq β] in
/-- A session that cannot send does not recover by sending. -/
lemma Continues.cannotSend {session session' : Session β X} (h : session.Continues session')
    (hsend : session.CannotSend) : session'.CannotSend :=
  hsend.imp h.cks.mpr fun hcounters =>
    hcounters.imp h.pn.symm.le.trans' fun hn => hn.trans h.ns

omit [DecidableEq β] in
/-- A session that cannot send raises. -/
lemma encrypt_of_cannotSend (hP : P.Correct) (h : session.CannotSend) (plaintext : Bytes β) :
    ∃ err, (encrypt P plaintext session).1 = .error err := by
  rcases henc : encrypt P plaintext session with ⟨err | blob, session'⟩
  · exact ⟨err, rfl⟩
  · obtain ⟨header, encoded, ct, st, hratchet, hencode, -⟩ := encrypt_ok_iff.mp henc
    obtain ⟨cks, -, hcks, rfl, -⟩ := (DoubleRatchet.encrypt_ok_iff hP).mp hratchet
    obtain ⟨hpn, hn, -⟩ := MessageHeader.encode_ok_iff.mp hencode
    rcases h with hnone | hpn' | hn'
    · rw [hcks] at hnone
      cases hnone
    · exact absurd hpn (Nat.not_lt.mpr hpn')
    · exact absurd hn (Nat.not_lt.mpr hn')

omit [DecidableEq β] in
/-- A session that can send encrypts any text. -/
lemma encrypt_of_not_cannotSend (hP : P.Correct) (h : ¬ session.CannotSend)
    (plaintext : Bytes β) :
    ∃ blob session', encrypt P plaintext session = (.ok blob, session') := by
  obtain ⟨hcks, hpn, hn⟩ : session.ratchet.cks ≠ none ∧ session.ratchet.pn < 256 ^ 4 ∧
      session.ratchet.ns < 256 ^ 4 := by
    simpa [CannotSend] using h
  obtain ⟨cks, hcks⟩ := Option.ne_none_iff_exists'.mp hcks
  obtain ⟨encoded, hencode⟩ :
      ∃ encoded, (DoubleRatchet.nextHeader P session.ratchet).encode = .ok encoded :=
    ⟨_, MessageHeader.encode_ok_iff.mpr ⟨hpn, hn, rfl⟩⟩
  exact ⟨_, _, encrypt_ok_iff.mpr ⟨_, _, _, _, (DoubleRatchet.encrypt_ok_iff hP).mpr
    ⟨_, _, hcks, rfl, hencode, rfl, rfl⟩, hencode, rfl, rfl⟩⟩

omit [DecidableEq β] in
/-- At the beginning of the epochs there is a tag. -/
lemma exists_currentSendTag (hP : P.Correct) (session : Session β X) :
    ∃ tag, session.currentSendTag P 0 = .ok tag ∧ tag.length = 8 := by
  have hepoch : Tags.currentEpoch 0 = 0 := by
    simp [Tags.currentEpoch, Rat.floor_def]
  have hraw : Tags.epochBytes (β := β) (Tags.currentEpoch 0) =
      .ok (toBytesBig 8 (Tags.currentEpoch 0).toNat) :=
    Tags.epochBytes_ok_iff.mpr ⟨hepoch.ge, by rw [hepoch]; decide, rfl⟩
  refine ⟨_, Tags.computeTag_ok_iff.mpr ⟨_, hraw, rfl⟩, ?_⟩
  rw [List.length_take, hP.length_hmac]
  rfl

end Session

namespace Node

variable {P : Primitives β X E} {T : Transport β τ} {node : Node T X E} {peer : Bytes β}
  {cover : CoverConfig}

omit [DecidableEq β] in
/-- The frame of a text in one packet carries the whole text. -/
lemma fields_of_mem_textPackets (hP : P.Correct) {session : Session β X} {text : String}
    {env : SendEnv β} (henv : env.Drawn) {packet : Packet β}
    (h : packet ∈ textPackets P session text env node) :
    packet.version = VERSION ∧ packet.ptype = .data ∧ packet.ttl = node.mesh.defaultTtl ∧
      packet.payload.length ≤ node.capacity ∧
      (packet.fragCount = 1 →
        packet.payload.length = 65 + (encodeUtf8 text : Bytes β).length ∧
        countersOf packet.payload = (session.ratchet.pn, session.ratchet.ns)) := by
  rw [textPackets] at h
  rcases htagged : Session.encryptTagged P (textPayload env text) env.wallNow session with
    ⟨err | ⟨blob, tag⟩, session'⟩
  · rw [htagged] at h
    exact absurd h List.not_mem_nil
  · rw [htagged] at h
    obtain ⟨henc, -⟩ := Session.encryptTagged_ok_iff.mp htagged
    obtain ⟨hversion, hptype, httl, hlen, hone⟩ := fields_of_mem_packetsOf h
    refine ⟨hversion, hptype, httl, hlen, fun hcount => ?_⟩
    have hlength := length_encrypt hP henc
    simp only [RATCHET_HEADER_LEN, henv.1] at hlength
    rw [hone hcount]
    exact ⟨by omega, countersOf_encrypt hP henc⟩

omit [DecidableEq β] in
/-- No packet comes of a session that cannot send. -/
lemma textPackets_of_cannotSend (hP : P.Correct) {session : Session β X}
    (h : session.CannotSend) (text : String) (env : SendEnv β) :
    textPackets P session text env node = [] := by
  obtain ⟨err, herr⟩ := Session.encrypt_of_cannotSend hP h (textPayload env text)
  rw [textPackets]
  rcases htagged : Session.encryptTagged P (textPayload env text) env.wallNow session with
    ⟨_ | ⟨blob, tag⟩, session'⟩
  · rfl
  · obtain ⟨henc, -⟩ := Session.encryptTagged_ok_iff.mp htagged
    rw [henc] at herr
    cases herr

/-- The shape of a text is that of one of its packets. -/
lemma packet_of_mem_textShapes {shape : Shape} (h : shape ∈ node.textShapes P peer cover) :
    ∃ node' session text env packet frame, node.LeadsTo P peer cover node' ∧ env.Drawn ∧
      node'.sessions.sessionFor peer = some session ∧
      packet ∈ textPackets P session text env node' ∧
      frameOf T.mtu node.mesh.padding packet = .ok frame ∧ shapeOf frame = shape := by
  obtain ⟨node', text, env, frame, hleads, henv, hframe, rfl⟩ := h
  rcases hs : node'.sessions.sessionFor peer with _ | session
  · have hsame : (sendText P peer text env node').2.handed = node'.handed ++ [] := by
      rw [sendText, Method.self_bind, hs]
      exact (List.append_nil _).symm
    rw [handedBy_eq hsame] at hframe
    exact absurd hframe List.not_mem_nil
  · obtain ⟨packet, hp, hframe⟩ := (handed_sendText hs text env).mem frame hframe
    rw [hleads.mesh] at hframe
    exact ⟨node', session, text, env, packet, frame, hleads, henv, hs, hp, hframe, rfl⟩

omit [DecidableEq β] in
/-- The shape of a frame is that of its packet, and its size. -/
lemma shape_of_frameOf {packet : Packet β} {mtu : ℕ} {padding : PaddingPolicy} {frame : Bytes β}
    (h : frameOf mtu padding packet = .ok frame) : ∃ size, shapeOf frame = packet.shape size := by
  obtain ⟨size, -, rfl⟩ := frameOf_ok_iff.mp h
  exact ⟨_, packet.shapeOf_frame _⟩

omit [DecidableEq β] in
/-- What fits the capacity has a frame. -/
lemma exists_frame {packet : Packet β} (h : packet.payload.length ≤ node.capacity) :
    ∃ frame, frameOf T.mtu node.mesh.padding packet = .ok frame := by
  have hmtu := (capacityFor_ok node.capacity_eq).1
  have hfits : HEADER_LEN + packet.payload.length ≤ T.mtu := by omega
  obtain ⟨frame, hframe, -⟩ := exists_frameOf hfits
  exact ⟨frame, hframe⟩

/-- Where the loop runs, a frame of a text has the shape of a cover frame exactly when the text is
in one packet. -/
theorem covered_iff (hP : P.Correct) (hmean : cover.coverIntervalMean ≠ 0) {node' : Node T X E}
    {session : Session β X} {text : String} {env : SendEnv β} {packet : Packet β} {frame : Bytes β}
    (hleads : node.LeadsTo P peer cover node') (henv : env.Drawn)
    (hp : packet ∈ textPackets P session text env node')
    (hframe : frameOf T.mtu node.mesh.padding packet = .ok frame) :
    shapeOf frame ∈ node.coverShapes P peer cover ↔ packet.fragCount = 1 := by
  obtain ⟨hversion, hptype, httl, hlen, hone⟩ := fields_of_mem_textPackets hP henv hp
  rw [mem_coverShapes_iff, and_iff_right hmean]
  constructor
  · rintro ⟨chaff, frame', hframe', hshape, -, -, -, hcount, -⟩
    obtain ⟨size, hsize⟩ := shape_of_frameOf hframe
    obtain ⟨size', hsize'⟩ := shape_of_frameOf hframe'
    rw [hsize, hsize'] at hshape
    exact (Packet.ofNat_fragCount_inj (congrArg Shape.fragCount hshape)).symm.trans hcount
  · intro hcount
    obtain ⟨hlength, -⟩ := hone hcount
    rw [hleads.mesh] at httl
    rw [capacity_eq_capacity node' node] at hlen
    exact ⟨packet, frame, hframe, rfl, hversion, hptype, httl, hcount, by omega, hlen⟩

variable (P peer) in
/-- Cover traffic sends 40 bytes where they fit a frame. -/
lemma exists_short_cover (hmean : cover.coverIntervalMean ≠ 0)
    (httl : node.mesh.defaultTtl ≤ MAX_TTL) (hcapacity : 40 ≤ node.capacity) :
    ∃ shape ∈ node.coverShapes P peer cover, shape.fragCount = 1 ∧ shape.payloadLen = 40 := by
  obtain ⟨packet, hcreate⟩ : ∃ packet : Packet β, Packet.create .data (zeros 40) (zeros 8) (zeros 8)
      node.mesh.defaultTtl 0 1 = .ok packet :=
    Packet.exists_create (length_zeros 8) (length_zeros 8) httl ⟨le_rfl, by decide⟩
      Nat.zero_lt_one (by rw [length_zeros]; decide)
  obtain ⟨hptype, hpayload, -, -, httl, -, hcount, hversion⟩ := Packet.create_ok_iff.mp hcreate
  have hlen : packet.payload.length = 40 := by rw [hpayload, length_zeros]
  obtain ⟨frame, hframe⟩ := exists_frame (hlen.trans_le hcapacity)
  obtain ⟨size, hsize⟩ := shape_of_frameOf hframe
  refine ⟨shapeOf frame, mem_coverShapes_iff.mpr ⟨hmean, packet, frame, hframe, rfl, hversion,
    hptype, httl, hcount, hlen.ge, hlen.trans_le hcapacity⟩, ?_, ?_⟩
  · rw [hsize, Packet.shape, hcount]
    rfl
  · rw [hsize, Packet.shape, hlen]

variable (node) in
omit [DecidableEq β] in
/-- A session that can send sends any text. -/
lemma textPackets_of_not_cannotSend (hP : P.Correct) {session : Session β X}
    (hsend : ¬ session.CannotSend) (text : String) (msgId : Bytes β) :
    ∃ blob tag, tag.length = 8 ∧ blob.length = 65 + (encodeUtf8 text : Bytes β).length ∧
      countersOf blob = (session.ratchet.pn, session.ratchet.ns) ∧
      textPackets P session text (.atStart msgId) node = packetsOf blob tag msgId node := by
  obtain ⟨blob, session', henc⟩ :=
    Session.encrypt_of_not_cannotSend hP hsend (textPayload (.atStart msgId) text)
  obtain ⟨tag, htag, hlen⟩ := Session.exists_currentSendTag hP session'
  have htagged : Session.encryptTagged P (textPayload (.atStart msgId) text)
      (SendEnv.atStart msgId).wallNow session = (.ok (blob, tag), session') :=
    Session.encryptTagged_ok_iff.mpr ⟨henc, htag⟩
  refine ⟨blob, tag, hlen, ?_, countersOf_encrypt hP henc, ?_⟩
  · rw [length_encrypt hP henc]
    simp only [RATCHET_HEADER_LEN, SendEnv.atStart, length_zeros]
    omega
  · rw [textPackets, htagged]
    rfl

variable (cover) in
/-- A session that can send has a frame to show, if the TTL is valid. -/
lemma exists_text (hP : P.Correct) {session : Session β X}
    (hs : node.sessions.sessionFor peer = some session) (hsend : ¬ session.CannotSend)
    (httl : node.mesh.defaultTtl ≤ MAX_TTL) : ∃ shape, shape ∈ node.textShapes P peer cover := by
  obtain ⟨blob, tag, hlen, hlength, -, hpackets⟩ :=
    textPackets_of_not_cannotSend node hP hsend "" (zeros 8)
  have hblob : blob.length = 65 := hlength
  -- 65 bytes are at most 65 packets
  obtain ⟨packet, packets, hfragment⟩ : ∃ packet packets,
      fragment .data blob (zeros 8) node.capacity tag node.mesh.defaultTtl =
        .ok (packet :: packets) := by
    rcases le_or_gt blob.length node.capacity with hone | hmany
    · obtain ⟨packet, hcreate⟩ : ∃ packet,
          Packet.create .data blob (zeros 8) tag node.mesh.defaultTtl 0 1 = .ok packet :=
        Packet.exists_create (length_zeros 8) hlen httl ⟨le_rfl, by decide⟩ Nat.zero_lt_one
          (hblob.trans_le (by decide))
      refine ⟨packet, [], ?_⟩
      rw [fragment_of_le (capacityFor_ok node.capacity_eq).2 hone, hcreate]
      rfl
    · have hpos := (capacityFor_ok node.capacity_eq).2
      refine exists_fragment hpos (by omega) (length_zeros 8) hlen httl ?_
      rw [hblob, MAX_FRAGMENTS]
      omega
  rw [packetsOf, hfragment] at hpackets
  have hle := length_payload_le_of_fragment hfragment List.mem_cons_self
  obtain ⟨frame, hframe⟩ := exists_frame hle
  have hcut : CutFrom T.mtu node.mesh.padding (textPackets P session "" (.atStart (zeros 8)) node)
      (handedBy (sendText P peer "" (.atStart (zeros 8))) node) := handed_sendText hs "" _
  rw [hpackets] at hcut
  exact ⟨shapeOf frame, node, "", .atStart (zeros 8), frame, .refl node,
    ⟨length_zeros 8, length_zeros 8⟩, hcut.first packet rfl frame hframe, rfl⟩

/-- In a run of texts and cover traffic the session goes on. -/
lemma LeadsTo.continues {node' : Node T X E} {session : Session β X}
    (hleads : node.LeadsTo P peer cover node') (hs : node.sessions.sessionFor peer = some session) :
    ∃ session', node'.sessions.sessionFor peer = some session' ∧ session.Continues session' := by
  refine hleads.invariant (I := fun node => ∃ session',
    node.sessions.sessionFor peer = some session' ∧ session.Continues session')
    ⟨session, hs, Iff.rfl, rfl, le_rfl⟩ ?_
  rintro u t ⟨session', hs', hcontinues⟩ -
  cases t with
  | text text env =>
    exact ⟨_, sessionFor_sendText hs', hcontinues.trans (session'.continues_encrypt _)⟩
  | cover env =>
    have hsessions := keeps_sendCover (f := Node.sessions) env
      (fun payload tag env => sessions_emit .data payload tag env) (fun _ _ => rfl) u
    exact ⟨session', (congrArg (·.sessionFor peer) hsessions).trans hs', hcontinues⟩

/-- A frame of a text in one packet shows at least the empty text, and the counters of a message
that the session can still send. -/
lemma counters_of_textShapes (hP : P.Correct) {session : Session β X}
    (hs : node.sessions.sessionFor peer = some session) {shape : Shape}
    (h : shape ∈ node.textShapes P peer cover) (hcount : shape.fragCount = 1) :
    session.ratchet.cks ≠ none ∧ 65 ≤ shape.payloadLen ∧
      ∃ n, shape.counters = some (session.ratchet.pn, n) ∧ session.ratchet.ns ≤ n := by
  obtain ⟨node', session', text, env, packet, frame, hleads, henv, hs', hp, hframe, rfl⟩ :=
    packet_of_mem_textShapes h
  obtain ⟨session'', hs'', hcontinues⟩ := hleads.continues hs
  obtain rfl := Option.some.inj (hs''.symm.trans hs')
  obtain ⟨size, hsize⟩ := shape_of_frameOf hframe
  rw [hsize] at hcount ⊢
  have hone : packet.fragCount = 1 := by
    have hle := packet.fragCount_range.2
    simp only [MAX_FRAGMENTS] at hle
    have htoNat := congrArg UInt8.toNat hcount
    have hmod : packet.fragCount % 256 = 1 := by simpa [Packet.shape] using htoNat
    omega
  have hindex : packet.fragIndex = 0 := by
    have := packet.fragIndex_lt
    omega
  obtain ⟨-, -, -, -, hfields⟩ := fields_of_mem_textPackets hP henv hp
  obtain ⟨hlen, hcounters⟩ := hfields hone
  refine ⟨fun hnone => ?_, ?_, session''.ratchet.ns, ?_, hcontinues.ns⟩
  · rw [textPackets_of_cannotSend hP (Or.inl (hcontinues.cks.mpr hnone))] at hp
    exact List.not_mem_nil hp
  · show 65 ≤ packet.payload.length
    omega
  · rw [Packet.shape]
    simp only [hcounters, hindex, true_and, hcontinues.pn]
    exact if_pos (by simp only [RATCHET_HEADER_LEN]; omega)

variable (P cover) in
/-- As many texts as it takes bring the counter to any value. -/
lemma exists_leadsTo {session : Session β X} (hs : node.sessions.sessionFor peer = some session)
    (hcks : session.ratchet.cks ≠ none) (turns : ℕ) :
    ∃ node' session', node.LeadsTo P peer cover node' ∧
      node'.sessions.sessionFor peer = some session' ∧ session'.ratchet.cks ≠ none ∧
      session'.ratchet.pn = session.ratchet.pn ∧
      session'.ratchet.ns = session.ratchet.ns + turns := by
  induction turns with
  | zero => exact ⟨node, session, .refl node, hs, hcks, rfl, rfl⟩
  | succ turns ih =>
    obtain ⟨node', session', hleads, hs', hcks', hpn, hns⟩ := ih
    obtain ⟨cks, hcks'⟩ := Option.ne_none_iff_exists'.mp hcks'
    have hratchet := Session.ratchet_encrypt (P := P) hcks' (textPayload (.atStart (zeros 8)) "")
    refine ⟨node'.turn P peer (.text "" (.atStart (zeros 8))), _,
      hleads.tail ⟨length_zeros 8, length_zeros 8⟩, sessionFor_sendText hs', ?_, ?_, ?_⟩
    · rw [hratchet]
      exact Option.some_ne_none _
    · rw [hratchet]
      exact hpn
    · rw [hratchet]
      exact congrArg Nat.succ hns

omit [DecidableEq β] in
/-- There are texts of every length. -/
lemma exists_text_of_length (length : ℕ) :
    ∃ text, (encodeUtf8 text : Bytes β).length = length := by
  have hsize : ∀ text : String, (encodeUtf8 text : Bytes β).length = text.utf8ByteSize :=
    fun text => by simp [encodeUtf8]
  induction length with
  | zero => exact ⟨"", rfl⟩
  | succ length ih =>
    obtain ⟨text, htext⟩ := ih
    refine ⟨text ++ "a", ?_⟩
    rw [hsize, String.utf8ByteSize_append, ← hsize, htext]
    rfl

/-- A cover frame has the shape of a text exactly when it is long enough, and its random octets show
the counters of a message that the session can still send. -/
theorem texted_iff (hP : P.Correct) {session : Session β X}
    (hs : node.sessions.sessionFor peer = some session) {shape : Shape}
    (h : shape ∈ node.coverShapes P peer cover) :
    shape ∈ node.textShapes P peer cover ↔
      session.ratchet.cks ≠ none ∧ 65 ≤ shape.payloadLen ∧
        ∃ n, shape.counters = some (session.ratchet.pn, n) ∧ session.ratchet.ns ≤ n := by
  obtain ⟨-, chaff, frame, hframe, rfl, hversion, hptype, httl, hcount, hmin, hmax⟩ :=
    mem_coverShapes_iff.mp h
  obtain ⟨size, hsize⟩ := shape_of_frameOf hframe
  have hindex : chaff.fragIndex = 0 := by
    have := chaff.fragIndex_lt
    omega
  constructor
  · intro htext
    refine counters_of_textShapes hP hs htext ?_
    rw [hsize, Packet.shape, hcount]
    rfl
  · rintro ⟨hcks, hlen, n, hcounters, hn⟩
    rw [hsize] at hlen hcounters
    replace hlen : 65 ≤ chaff.payload.length := hlen
    obtain ⟨-, hcounters⟩ : _ ∧ countersOf chaff.payload = (session.ratchet.pn, n) := by
      rw [Packet.shape] at hcounters
      simpa [hindex] using hcounters
    -- bring the counter to `n`, and then send a text of the right length
    obtain ⟨node', session', hleads, hs', hcks', hpn, hns⟩ :=
      exists_leadsTo P cover hs hcks (n - session.ratchet.ns)
    have hn' : session'.ratchet.ns = n := by omega
    obtain ⟨hpnlt, hnlt⟩ := countersOf_lt chaff.payload
    rw [hcounters] at hpnlt hnlt
    have hsend : ¬ session'.CannotSend := by
      rintro (hnone | hpn' | hns')
      · exact hcks' hnone
      · exact absurd hpnlt (Nat.not_lt.mpr (hpn ▸ hpn'))
      · exact absurd hnlt (Nat.not_lt.mpr (hn' ▸ hns'))
    obtain ⟨text, htext⟩ := exists_text_of_length (β := β) (chaff.payload.length - 65)
    obtain ⟨blob, tag, htag, hlength, hblob, hpackets⟩ :=
      textPackets_of_not_cannotSend node' hP hsend text chaff.msgId
    have hcapacity := capacity_eq_capacity node' node
    obtain ⟨packet, hcreate⟩ : ∃ packet, Packet.create .data blob chaff.msgId tag
        node'.mesh.defaultTtl 0 1 = .ok packet := by
      refine Packet.exists_create chaff.length_msgId htag ?_ ⟨le_rfl, by decide⟩ Nat.zero_lt_one ?_
      · rw [hleads.mesh]
        exact httl ▸ chaff.ttl_le
      · exact (by omega : blob.length ≤ chaff.payload.length).trans chaff.length_payload
    rw [packetsOf_of_le (by omega), hcreate] at hpackets
    obtain ⟨hptype', hpayload', -, -, httl', hindex', hcount', hversion'⟩ :=
      Packet.create_ok_iff.mp hcreate
    rw [hleads.mesh] at httl'
    obtain ⟨frame', hframe', hshape⟩ := shapeOf_frameOf packet hframe
      (hversion.trans hversion'.symm) (hptype.trans hptype'.symm) (httl.trans httl'.symm)
      (hindex.trans hindex'.symm) (hcount.trans hcount'.symm) (by rw [hpayload']; omega)
      (by rw [hpayload', hblob, hcounters, hpn, hn'])
    have hcut : CutFrom T.mtu node'.mesh.padding
        (textPackets P session' text (.atStart chaff.msgId) node')
        (handedBy (sendText P peer text (.atStart chaff.msgId)) node') := handed_sendText hs' text _
    rw [hpackets, hleads.mesh] at hcut
    exact ⟨node', text, .atStart chaff.msgId, frame', hleads, ⟨length_zeros 8, chaff.length_msgId⟩,
      hcut.first packet rfl frame' hframe', hshape⟩

/-- No packet has a TTL above the largest, so texts have no shape. -/
lemma textShapes_of_ttl (hP : P.Correct) (httl : MAX_TTL < node.mesh.defaultTtl) :
    node.textShapes P peer cover = ∅ := by
  refine Set.eq_empty_of_forall_notMem fun shape h => ?_
  obtain ⟨node', session, text, env, packet, frame, hleads, henv, -, hp, -⟩ :=
    packet_of_mem_textShapes h
  obtain ⟨-, -, hfield, -⟩ := fields_of_mem_textPackets hP henv hp
  rw [hleads.mesh] at hfield
  exact absurd (hfield ▸ packet.ttl_le) (Nat.not_le.mpr httl)

/-- Nor has cover traffic. -/
lemma coverShapes_of_ttl (httl : MAX_TTL < node.mesh.defaultTtl) :
    node.coverShapes P peer cover = ∅ := by
  refine Set.eq_empty_of_forall_notMem fun shape h => ?_
  obtain ⟨-, packet, -, -, -, -, -, hfield, -⟩ := mem_coverShapes_iff.mp h
  exact absurd (hfield ▸ packet.ttl_le) (Nat.not_le.mpr httl)

/-- There is no cover traffic where the loop has ended, or where the frames have no room for its
shortest payload. -/
lemma coverShapes_of_silent (h : cover.coverIntervalMean = 0 ∨ node.capacity < 40) :
    node.coverShapes P peer cover = ∅ := by
  refine Set.eq_empty_of_forall_notMem fun shape hshape => ?_
  obtain ⟨hmean, packet, -, -, -, -, -, -, -, hmin, hmax⟩ := mem_coverShapes_iff.mp hshape
  rcases h with hzero | hcapacity
  · exact hmean hzero
  · omega

/-- There are no texts of a session that cannot send. -/
lemma textShapes_of_cannotSend (hP : P.Correct) {session : Session β X}
    (hs : node.sessions.sessionFor peer = some session) (hsend : session.CannotSend) :
    node.textShapes P peer cover = ∅ := by
  refine Set.eq_empty_of_forall_notMem fun shape h => ?_
  obtain ⟨node', session', text, env, packet, frame, hleads, -, hs', hp, -⟩ :=
    packet_of_mem_textShapes h
  obtain ⟨session'', hs'', hcontinues⟩ := hleads.continues hs
  obtain rfl := Option.some.inj (hs''.symm.trans hs')
  rw [textPackets_of_cannotSend hP (hcontinues.cannotSend hsend)] at hp
  exact List.not_mem_nil hp

open SessionManager.Meeting

/-- The default delays. -/
def covering : CoverConfig where
  coverTraffic := true

/-- A text that needs two frames. -/
def longText : String := String.ofList (List.replicate 120 'a')

/-- A link with small frames. -/
def smallLink : Transport SymByte Unit where
  mtu := 60
  send _ := pure ()

/-- Bob, who has to wait for Alice's first message. -/
def bobNode : Node smallLink ℕ ℕ where
  transport := ()
  sessions := {
    identity := bob
    trust := (TrustStore.empty none).add
      { signingPublic := alice.signingPublic symbolic, staticPublic := alice.staticPublic symbolic }
    sessions := OrderedDict.empty.set (alice.signingPublic symbolic) bobSession }
  capacity := 37
  capacity_eq := rfl

end Node

end Chatbit
