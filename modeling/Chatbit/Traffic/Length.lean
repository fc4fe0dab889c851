import Chatbit.Crypto.RatchetRunTheorems
import Chatbit.Handshake.Connect
import Chatbit.NodeTheorems

/-!
# What a frame shows of the length of its text

Under `PaddingPolicy.STRICT` all frames have the size of the MTU, but `payload_len` is in the
header: it says where the padding begins, and with it how long the text is
(`paddingStart_of_hands`).
-/

namespace Chatbit

open Lib

variable {β X E τ : Type} [Alphabet β] [DecidableEq β]

/-! ## What a listener reads -/

/-- The offset at which the padding begins, read from `payload_len`. -/
def paddingStart (frame : Bytes β) : ℕ := HEADER_LEN + fromBytesBig ((frame.drop 21).take 2)

namespace Packet

variable {packet packet' : Packet β}

omit [DecidableEq β] in
lemma header_eq_iff (hversion : packet.version = packet'.version)
    (hptype : packet.ptype = packet'.ptype) (hmsgId : packet.msgId = packet'.msgId)
    (hdstTag : packet.dstTag = packet'.dstTag) (httl : packet.ttl = packet'.ttl)
    (hindex : packet.fragIndex = packet'.fragIndex) (hcount : packet.fragCount = packet'.fragCount) :
    packet.header = packet'.header ↔ packet.payload.length = packet'.payload.length := by
  have hlen := packet.length_payload
  have hlen' := packet'.length_payload
  rw [header, header, hversion, hptype, hmsgId, hdstTag, httl, hindex, hcount,
    List.append_cancel_left_eq]
  exact ⟨fun h => toBytesBig_inj (by omega) (by omega) h, fun h => by rw [h]⟩

omit [DecidableEq β] in
lemma paddingStart_header (packet : Packet β) (rest : Bytes β) :
    paddingStart (packet.header ++ rest) = HEADER_LEN + packet.payload.length := by
  rw [paddingStart, payloadLen_header]

end Packet

/-! ## The frame of a text -/

namespace Node

variable {T : Transport β τ} {P : Primitives β X E} {peer : Bytes β} {env : SendEnv β}
  {node : Node T X E} {text : String} {frame : Bytes β}

variable (P peer env node) in
/-- The encrypted text fits one frame. -/
def FitsOneFrame (text : String) : Prop :=
  ∃ session blob session', node.sessions.sessionFor peer = some session ∧
    Session.encrypt P (textPayload env text) session = (.ok blob, session') ∧
    blob.length ≤ node.capacity

variable (P peer env node) in
/-- `send_text` calls `transport.send` with this frame, and with no other. -/
def Hands (text : String) (frame : Bytes β) : Prop :=
  (sendText P peer text env node).2.handed = node.handed ++ [frame]

omit [DecidableEq β] in
/-- An encrypted text is the ratchet header, the envelope, the text and the tag. -/
lemma length_encrypt (hP : P.Correct) {session session' : Session β X} {blob : Bytes β}
    (h : Session.encrypt P (textPayload env text) session = (.ok blob, session')) :
    blob.length =
      RATCHET_HEADER_LEN + (1 + env.timestamp.length + (encodeUtf8 text : Bytes β).length + 16) := by
  obtain ⟨header, encoded, ct, st, hratchet, hencode, rfl, -⟩ := Session.encrypt_ok_iff.mp h
  obtain ⟨cks, encoded', -, rfl, hencode', -, rfl⟩ :=
    (DoubleRatchet.encrypt_ok_iff hP).mp hratchet
  have hheader := MessageHeader.length_of_encode hencode
  rw [show (DoubleRatchet.nextHeader P session.ratchet).ratchetPub.length = 32 from
    hP.length_x25519Public _] at hheader
  rw [List.length_append, hheader, hP.length_encrypt]
  simp [RATCHET_HEADER_LEN, TAGLEN, textPayload, encodeMessage]
  omega

/-- A payload that fits one frame is one packet, and its frame is what is handed over. -/
lemma packet_of_emit {ptype : PacketType} {payload tag : Bytes β}
    (hfits : payload.length ≤ node.capacity)
    (h : (emit ptype payload tag env node).2.handed = node.handed ++ [frame]) :
    ∃ packet, Packet.create ptype payload env.msgId tag node.mesh.defaultTtl 0 1 = .ok packet ∧
      frameOf T.mtu node.mesh.padding packet = .ok frame := by
  have hsame : node.handed ≠ node.handed ++ [frame] := by simp
  have hfragment : fragment ptype payload env.msgId node.capacity tag node.mesh.defaultTtl =
      (Packet.create ptype payload env.msgId tag node.mesh.defaultTtl 0 1).map fun p => [p] :=
    fragment_of_le (capacityFor_ok node.capacity_eq).2 hfits
  rcases hcreate : Packet.create ptype payload env.msgId tag node.mesh.defaultTtl 0 1 with
    err | packet
  · rw [emit, Method.self_bind, hfragment, hcreate, Except.map,
      Method.bind_of_error (Method.eval_apply _ _)] at h
    exact absurd h hsame
  · rw [emit, Method.self_bind, hfragment, hcreate, Except.map,
      Method.bind_of_ok (Method.eval_apply _ _), originateAll] at h
    refine ⟨packet, rfl, ?_⟩
    have hlast : (originate packet (env.clock packet.fragIndex) node).2.handed =
        node.handed ++ [frame] := by
      rw [Method.bind_apply] at h
      rcases horiginate : originate packet (env.clock packet.fragIndex) node with ⟨err | ⟨⟩, node'⟩
      · rwa [horiginate] at h
      · rw [horiginate] at h
        exact h
    rcases hframe : frameOf T.mtu node.mesh.padding packet with err | frame'
    · rw [(originate_of_error hframe _).2] at hlast
      exact absurd hlast hsame
    · rw [handed_originate hframe] at hlast
      rw [(List.cons.inj (List.append_cancel_left hlast)).1]

/-- The frame is that of one packet, which carries the encrypted text. -/
lemma packet_of_hands {session session' : Session β X} {blob : Bytes β}
    (hs : node.sessions.sessionFor peer = some session)
    (henc : Session.encrypt P (textPayload env text) session = (.ok blob, session'))
    (hfits : blob.length ≤ node.capacity) (h : Hands P peer env node text frame) :
    ∃ tag packet, session'.currentSendTag P env.wallNow = .ok tag ∧
      Packet.create .data blob env.msgId tag node.mesh.defaultTtl 0 1 = .ok packet ∧
      frameOf T.mtu node.mesh.padding packet = .ok frame := by
  rcases htag : session'.currentSendTag P env.wallNow with err | tag
  · rw [Hands, handed_sendText_of_tag_error hs henc htag] at h
    simp at h
  · rw [Hands, handed_sendText_of_encrypted hs henc htag] at h
    obtain ⟨packet, hcreate, hframe⟩ := packet_of_emit (by exact hfits) h
    exact ⟨tag, packet, rfl, hcreate, hframe⟩

omit [DecidableEq β] in
/-- What a listener reads of a frame that is padded to the MTU. -/
lemma strict_frame {packet : Packet β} (h : frameOf T.mtu .strict packet = .ok frame) :
    frame.length = T.mtu ∧ frame.take HEADER_LEN = packet.header ∧
      paddingStart frame = HEADER_LEN + packet.payload.length := by
  obtain ⟨size, hsize, rfl⟩ := frameOf_ok_iff.mp h
  obtain ⟨hle, -⟩ := le_paddedSize hsize
  obtain rfl : size = T.mtu := by
    simp only [paddedSize] at hsize
    split_ifs at hsize
    exact (Except.ok.inj hsize).symm
  rw [List.append_assoc]
  refine ⟨?_, List.take_left' packet.length_header, packet.paddingStart_header _⟩
  simp only [List.length_append, Packet.length_header, length_zeros]
  omega

/-- Of two texts that are each sent in one frame from the same state, a listener sees frames that
agree in size, in the header and in where the padding begins exactly when the texts are equally
long. -/
theorem frames_agree_iff (hP : P.Correct) (hstrict : node.mesh.padding = .strict)
    {text₁ text₂ : String} {frame₁ frame₂ : Bytes β} (hfits₁ : FitsOneFrame P peer env node text₁)
    (hfits₂ : FitsOneFrame P peer env node text₂) (h₁ : Hands P peer env node text₁ frame₁)
    (h₂ : Hands P peer env node text₂ frame₂) :
    (frame₁.length = frame₂.length ∧ frame₁.take HEADER_LEN = frame₂.take HEADER_LEN ∧
        paddingStart frame₁ = paddingStart frame₂) ↔
      (encodeUtf8 text₁ : Bytes β).length = (encodeUtf8 text₂ : Bytes β).length := by
  obtain ⟨session, blob₁, session₁, hs₁, henc₁, hle₁⟩ := hfits₁
  obtain ⟨session', blob₂, session₂, hs₂, henc₂, hle₂⟩ := hfits₂
  obtain rfl := Option.some.inj (hs₁.symm.trans hs₂)
  obtain ⟨tag₁, packet₁, htag₁, hcreate₁, hframe₁⟩ := packet_of_hands hs₁ henc₁ hle₁ h₁
  obtain ⟨tag₂, packet₂, htag₂, hcreate₂, hframe₂⟩ := packet_of_hands hs₁ henc₂ hle₂ h₂
  -- encrypting does not change the tag
  have htag : tag₁ = tag₂ := by
    rw [Session.currentSendTag_encrypt henc₁] at htag₁
    rw [Session.currentSendTag_encrypt henc₂] at htag₂
    exact Except.ok.inj (htag₁.symm.trans htag₂)
  obtain ⟨hptype₁, hpayload₁, hmsgId₁, hdstTag₁, httl₁, hindex₁, hcount₁, hversion₁⟩ :=
    Packet.create_ok_iff.mp hcreate₁
  obtain ⟨hptype₂, hpayload₂, hmsgId₂, hdstTag₂, httl₂, hindex₂, hcount₂, hversion₂⟩ :=
    Packet.create_ok_iff.mp hcreate₂
  rw [hstrict] at hframe₁ hframe₂
  obtain ⟨hlen₁, hheader₁, hstart₁⟩ := strict_frame hframe₁
  obtain ⟨hlen₂, hheader₂, hstart₂⟩ := strict_frame hframe₂
  -- of the header, only the length field can differ
  have hheader : packet₁.header = packet₂.header ↔
      packet₁.payload.length = packet₂.payload.length :=
    Packet.header_eq_iff (hversion₁.trans hversion₂.symm) (hptype₁.trans hptype₂.symm)
      (hmsgId₁.trans hmsgId₂.symm) (by rw [hdstTag₁, hdstTag₂, htag]) (httl₁.trans httl₂.symm)
      (hindex₁.trans hindex₂.symm) (hcount₁.trans hcount₂.symm)
  rw [hlen₁, hlen₂, hheader₁, hheader₂, hstart₁, hstart₂, hheader, hpayload₁, hpayload₂,
    length_encrypt hP henc₁, length_encrypt hP henc₂]
  omega

/-! ## Alice answers Bob -/

open SessionManager.Meeting

/-- Alice's end of a session with Bob, before any message. -/
def aliceSession : Session SymByte ℕ where
  peer := 0
  ratchet := greetingStart.ratchet .initiator
  sendTagKey := zeros 32
  recvTagKey := zeros 32
  initiator := true
  establishedAt := 0

/-- Bob's end of it. -/
def bobSession : Session SymByte ℕ :=
  { aliceSession with ratchet := greetingStart.ratchet .responder, initiator := false }

/-- Alice's sessions: the one with Bob. -/
def aliceSessions : SessionManager SymByte ℕ ℕ where
  identity := alice
  trust := (TrustStore.empty none).add
    { signingPublic := bob.signingPublic symbolic, staticPublic := bob.staticPublic symbolic }
  sessions := OrderedDict.empty.set (bob.signingPublic symbolic) aliceSession

/-- A link that takes every frame. -/
def openLink : Transport SymByte Unit where
  mtu := 200
  send _ := pure ()

def aliceNode : Node openLink ℕ ℕ where
  transport := ()
  sessions := aliceSessions
  capacity := 177
  capacity_eq := rfl

def aliceEnv : SendEnv SymByte where
  timestamp := zeros 8
  wallNow := 0
  msgId := zeros 8
  clock _ := 0

/-- The frame of Alice's answer. -/
def answer (text : String) : Bytes SymByte :=
  (sendText symbolic (bob.signingPublic symbolic) text aliceEnv aliceNode).2.handed.flatten

lemma fits_answer {text : String} (h : (encodeUtf8 text : Bytes SymByte).length ≤ 112) :
    FitsOneFrame symbolic (bob.signingPublic symbolic) aliceEnv aliceNode text := by
  let header := DoubleRatchet.nextHeader symbolic aliceSession.ratchet
  have hencode : header.encode =
      .ok (header.ratchetPub ++ toBytesBig 4 header.pn ++ toBytesBig 4 header.n) :=
    MessageHeader.encode_ok_iff.mpr ⟨by decide, by decide, rfl⟩
  obtain ⟨ct, st, hratchet⟩ : ∃ ct st, DoubleRatchet.encrypt symbolic (textPayload aliceEnv text) []
      aliceSession.ratchet = (.ok (header, ct), st) :=
    ⟨_, _, (DoubleRatchet.encrypt_ok_iff symbolic_correct).mpr
      ⟨_, _, rfl, rfl, hencode, rfl, rfl⟩⟩
  have henc := Session.encrypt_ok_iff.mpr ⟨_, _, _, _, hratchet, hencode, rfl, rfl⟩
  refine ⟨aliceSession, _, _, rfl, henc, ?_⟩
  rw [length_encrypt symbolic_correct henc]
  simp only [RATCHET_HEADER_LEN, aliceEnv, length_zeros, aliceNode]
  omega

lemma hands_yes :
    Hands symbolic (bob.signingPublic symbolic) aliceEnv aliceNode "yes" (answer "yes") := by
  rw [Hands]
  decide +kernel

/-- Two answers of three letters. -/
theorem frames_agree_iff_yes_nay :
    (answer "yes").length = (answer "nay").length ∧
      (answer "yes").take HEADER_LEN = (answer "nay").take HEADER_LEN ∧
      paddingStart (answer "yes") = paddingStart (answer "nay") := by
  have hnay :
      Hands symbolic (bob.signingPublic symbolic) aliceEnv aliceNode "nay" (answer "nay") := by
    rw [Hands]
    decide +kernel
  refine (frames_agree_iff symbolic_correct rfl (fits_answer ?_) (fits_answer ?_) hands_yes
    hnay).mpr ?_
  · decide +kernel
  · decide +kernel
  · decide +kernel

/-- The header tells "yes" from "no". -/
theorem yes_no_disagree :
    aliceNode.mesh.padding = .strict ∧
    FitsOneFrame symbolic (bob.signingPublic symbolic) aliceEnv aliceNode "yes" ∧
    FitsOneFrame symbolic (bob.signingPublic symbolic) aliceEnv aliceNode "no" ∧
    Hands symbolic (bob.signingPublic symbolic) aliceEnv aliceNode "yes" (answer "yes") ∧
    Hands symbolic (bob.signingPublic symbolic) aliceEnv aliceNode "no" (answer "no") ∧
    (answer "yes").take HEADER_LEN ≠ (answer "no").take HEADER_LEN ∧
    paddingStart (answer "yes") ≠ paddingStart (answer "no") := by
  refine ⟨rfl, fits_answer ?_, fits_answer ?_, hands_yes, ?_, ?_, ?_⟩
  · decide +kernel
  · decide +kernel
  · rw [Hands]
    decide +kernel
  · decide +kernel
  · decide +kernel

end Node

end Chatbit
