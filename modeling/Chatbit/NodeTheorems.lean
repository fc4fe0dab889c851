import Chatbit.Node
import Chatbit.Traffic.Messages

/-!
# What `send_text` does

Whatever happens after the encryption, `send_text` leaves the session as the encryption left it
(`sessions_sendText`). When it returns, it has handed the transport one frame for each packet, and
the receiver of these frames reads back the encrypted message (`sendText_true`,
`Session.Emits.received`).
-/

namespace Chatbit

open Lib

variable {β X E τ : Type} [Alphabet β] [DecidableEq β] {P : Primitives β X E}

/-! ## Tagged messages -/

namespace Session

omit [DecidableEq β] in
/-- The tag is computed after the session has changed. -/
lemma encryptTagged_snd (plaintext : Bytes β) (now : ℚ) (session : Session β X) :
    (encryptTagged P plaintext now session).2 = (encrypt P plaintext session).2 := by
  rw [encryptTagged, Method.bind_apply]
  rcases encrypt P plaintext session with ⟨err | blob, session'⟩
  · rfl
  · simp only [Method.self_bind]
    rcases htag : currentSendTag P session' now with err | tag <;>
      simp [Method.bind_apply]

omit [DecidableEq β] in
lemma encryptTagged_ok_iff {plaintext blob tag : Bytes β} {now : ℚ}
    {session session' : Session β X} :
    encryptTagged P plaintext now session = (.ok (blob, tag), session') ↔
      encrypt P plaintext session = (.ok blob, session') ∧
        session'.currentSendTag P now = .ok tag := by
  rw [encryptTagged, Method.bind_ok]
  constructor
  · rintro ⟨blob', session₁, henc, h⟩
    simp only [Method.self_bind] at h
    obtain ⟨tag', session₂, heval, h⟩ := Method.bind_ok.mp h
    obtain ⟨htag, rfl⟩ := Method.eval_ok.mp heval
    obtain ⟨heq, rfl⟩ := Prod.mk.inj h
    obtain ⟨rfl, rfl⟩ := Prod.mk.inj (Except.ok.inj heq)
    exact ⟨henc, htag⟩
  · rintro ⟨henc, htag⟩
    refine ⟨blob, session', henc, ?_⟩
    simp only [Method.self_bind]
    exact Method.bind_ok.mpr ⟨tag, session', Method.eval_ok.mpr ⟨htag, rfl⟩, rfl⟩

end Session

/-! ## Frames -/

namespace Node

section Frames

variable {mtu : ℕ} {padding : PaddingPolicy} {packet : Packet β} {frame : Bytes β}

omit [DecidableEq β] in
lemma frameOf_ok_iff :
    frameOf mtu padding packet = .ok frame ↔
      ∃ size, paddedSize (β := β) (HEADER_LEN + packet.payload.length) mtu padding = .ok size ∧
        frame = packet.header ++ packet.payload ++
          zeros (size - (HEADER_LEN + packet.payload.length)) := by
  have hlen : (packet.header ++ packet.payload).length = HEADER_LEN + packet.payload.length := by
    rw [List.length_append, Packet.length_header]
  rcases hsize : paddedSize (β := β) (HEADER_LEN + packet.payload.length) mtu padding with
    err | size
  · simp [frameOf, Packet.encode_zero, bind, Except.bind, hlen, hsize]
  · obtain ⟨hle, -⟩ := le_paddedSize hsize
    have hne : size ≠ 0 := by simp only [HEADER_LEN] at hle; omega
    simp only [frameOf, Packet.encode_zero, bind, Except.bind, hlen, hsize,
      Packet.encode_ok_iff hne, Except.ok.injEq]
    constructor
    · exact fun h => ⟨size, rfl, h.2⟩
    · rintro ⟨_, rfl, h⟩
      exact ⟨hle, h⟩

omit [DecidableEq β] in
/-- What a receiver decodes is the packet. -/
lemma decode_frameOf (h : frameOf mtu padding packet = .ok frame)
    (hversion : packet.version = VERSION) : Packet.decode frame = .ok packet := by
  obtain ⟨size, -, rfl⟩ := frameOf_ok_iff.mp h
  exact Packet.decode_append hversion _

end Frames

/-- What is received of frames that all arrive, in order. -/
def received (frames : List (Bytes β)) : Except (Exc β) (Bytes β) := do
  let packets ← frames.mapM Packet.decode
  return (packets.map Packet.payload).flatten

omit [DecidableEq β] in
/-- The frames of the packets of a payload carry the payload. -/
lemma received_frames {ptype : PacketType} {payload msgId tag : Bytes β} {capacity ttl mtu : ℕ}
    {padding : PaddingPolicy} {packets : List (Packet β)} {frames : List (Bytes β)}
    (hfragment : fragment ptype payload msgId capacity tag ttl = .ok packets)
    (hframes : List.Forall₂ (fun packet frame => frameOf mtu padding packet = .ok frame) packets
      frames) : received frames = .ok payload := by
  obtain ⟨-, -, hall⟩ := fragment_ok hfragment
  have hdecode : frames.mapM Packet.decode = .ok packets := by
    clear hfragment
    induction hframes with
    | nil => rfl
    | cons hframe _ ih =>
      obtain ⟨hfirst, hrest⟩ := List.forall_mem_cons.mp hall
      rw [List.mapM_cons, decode_frameOf hframe hfirst.2, ih hrest]
      rfl
  rw [received, hdecode]
  exact congrArg Except.ok (flatten_fragment hfragment)

end Node

/-! ## The frames of a message -/

variable (P) in
/-- The frames that a message of the session is sent in. -/
def Session.framesOf (mtu : ℕ) (plaintext : Bytes β) (now : ℚ) (msgId : Bytes β) (capacity ttl : ℕ)
    (padding : PaddingPolicy) : Method (Exc β) (Session β X) (List (Bytes β)) := do
  let (blob, tag) ← Session.encryptTagged P plaintext now
  let packets ← Method.eval (fragment .data blob msgId capacity tag ttl)
  Method.eval (packets.mapM (Node.frameOf mtu padding))

variable (P) in
/-- One message of the session is sent in these frames, on a link of this MTU. -/
def Session.Emits (session : Session β X) (mtu : ℕ) (plaintext : Bytes β) (now : ℚ)
    (frames : List (Bytes β)) (session' : Session β X) : Prop :=
  ∃ msgId capacity ttl padding,
    Session.framesOf P mtu plaintext now msgId capacity ttl padding session = (.ok frames, session')

namespace Session.Emits

variable {session session' : Session β X} {mtu : ℕ} {plaintext : Bytes β} {now : ℚ}
  {frames : List (Bytes β)}

omit [DecidableEq β] in
lemma packets (h : session.Emits P mtu plaintext now frames session') :
    ∃ blob tag msgId capacity ttl padding packets,
      Session.encryptTagged P plaintext now session = (.ok (blob, tag), session') ∧
      fragment .data blob msgId capacity tag ttl = .ok packets ∧
      List.Forall₂ (fun packet frame => Node.frameOf mtu padding packet = .ok frame) packets
        frames := by
  obtain ⟨msgId, capacity, ttl, padding, h⟩ := h
  obtain ⟨⟨blob, tag⟩, session₁, htagged, h⟩ := Method.bind_ok.mp h
  obtain ⟨packets, session₂, hfragment, h⟩ := Method.bind_ok.mp h
  obtain ⟨hpackets, rfl⟩ := Method.eval_ok.mp hfragment
  obtain ⟨hframes, rfl⟩ := Method.eval_ok.mp h
  exact ⟨blob, tag, msgId, capacity, ttl, padding, packets, htagged, hpackets,
    mapM_ok_iff.mp hframes⟩

omit [DecidableEq β] in
lemma received (h : session.Emits P mtu plaintext now frames session') :
    ∃ blob, Session.encrypt P plaintext session = (.ok blob, session') ∧
      Node.received frames = .ok blob := by
  obtain ⟨blob, tag, _, _, _, _, packets, htagged, hfragment, hframes⟩ := h.packets
  exact ⟨blob, (Session.encryptTagged_ok_iff.mp htagged).1, Node.received_frames hfragment hframes⟩

end Session.Emits

namespace Node

/-! ## Transmission -/

variable {T : Transport β τ} {node node' : Node T X E} {packet : Packet β}

omit [DecidableEq β] in
lemma keeps_transmit {ρ : Type} {f : Node T X E → ρ}
    (hhanded : ∀ frames node, f { node with handed := frames } = f node)
    (htransport : ∀ t node, f { node with transport := t } = f node) :
    Method.Keeps f (transmit packet) :=
  .bind (.self f) fun _ => .bind (.eval f _) fun _ =>
    .bind (.update fun _ => hhanded _ _) fun _ => .onField htransport _

lemma keeps_originateAll {ρ : Type} {f : Node T X E → ρ}
    (hhanded : ∀ frames node, f { node with handed := frames } = f node)
    (htransport : ∀ t node, f { node with transport := t } = f node)
    (hrouter : ∀ r node, f { node with router := r } = f node) (clock : ℕ → ℚ)
    (packets : List (Packet β)) : Method.Keeps f (originateAll clock packets) := by
  induction packets with
  | nil => exact .pure f ()
  | cons packet packets ih =>
    exact .bind (.bind (.onField hrouter _) fun _ => keeps_transmit hhanded htransport)
      fun _ => ih

/-- Sending a payload leaves the sessions. -/
lemma sessions_emit (ptype : PacketType) (payload dstTag : Bytes β) (env : SendEnv β)
    (node : Node T X E) : (emit ptype payload dstTag env node).2.sessions = node.sessions := by
  have hkeeps : Method.Keeps Node.sessions
      (emit ptype payload dstTag env : Method (Exc β) (Node T X E) Unit) :=
    .bind (.self _) fun _ => .bind (.eval _ _) fun packets =>
      keeps_originateAll (fun _ _ => rfl) (fun _ _ => rfl) (fun _ _ => rfl) env.clock packets
  exact hkeeps node

omit [Alphabet β] in
lemma markSeen_ok (packet : Packet β) (now : ℚ) (router : Router β) :
    ∃ seen router', Router.markSeen packet now router = (.ok seen, router') := by
  rw [Router.markSeen, Method.onField_apply, DedupCache.checkSeen, Method.update_bind,
    Method.self_bind]
  split_ifs
  · exact ⟨_, _, rfl⟩
  · exact ⟨_, _, rfl⟩

omit [DecidableEq β] in
lemma transmit_of_frameOf {frame : Bytes β}
    (h : frameOf T.mtu node.mesh.padding packet = .ok frame) :
    transmit packet node =
      ((T.send frame node.transport).1, { node with
        handed := node.handed ++ [frame], transport := (T.send frame node.transport).2 }) := by
  rw [transmit, Method.self_bind, Method.bind_of_ok (Method.eval_ok.mpr ⟨h, rfl⟩),
    Method.update_bind, Method.onField_apply]

/-- The frame of a packet is handed over, whether or not the transport takes it. -/
lemma handed_originate {frame : Bytes β}
    (h : frameOf T.mtu node.mesh.padding packet = .ok frame) (now : ℚ) :
    (originate packet now node).2.handed = node.handed ++ [frame] := by
  obtain ⟨seen, router', hmark⟩ := markSeen_ok packet now node.router
  have htransmit : transmit packet { node with router := router' } = _ := transmit_of_frameOf h
  rw [originate, Method.bind_of_ok (Method.onField_ok.mpr ⟨router', hmark, rfl⟩), htransmit]

/-- A packet whose frame cannot be built is not handed over. -/
lemma originate_of_error {err : Exc β} (h : frameOf T.mtu node.mesh.padding packet = .error err)
    (now : ℚ) :
    (originate packet now node).1 = .error err ∧
      (originate packet now node).2.handed = node.handed := by
  obtain ⟨seen, router', hmark⟩ := markSeen_ok packet now node.router
  rw [originate, Method.bind_of_ok (Method.onField_ok.mpr ⟨router', hmark, rfl⟩), transmit,
    Method.self_bind]
  simp [Method.bind_apply, h]

/-- Originating packets one after another hands over the frame of each. -/
lemma originateAll_ok {clock : ℕ → ℚ} {packets : List (Packet β)}
    (h : originateAll clock packets node = (.ok (), node')) :
    ∃ frames, node'.handed = node.handed ++ frames ∧
      List.Forall₂ (fun packet frame => frameOf T.mtu node.mesh.padding packet = .ok frame) packets
        frames := by
  induction packets generalizing node with
  | nil =>
    obtain ⟨-, rfl⟩ := Prod.mk.inj h
    exact ⟨[], (List.append_nil _).symm, .nil⟩
  | cons packet packets ih =>
    obtain ⟨⟨⟩, node₁, horiginate, h⟩ := Method.bind_ok.mp h
    have hmesh : node₁.mesh = node.mesh := by
      have := keeps_originateAll (f := Node.mesh) (fun _ _ => rfl) (fun _ _ => rfl)
        (fun _ _ => rfl) (fun _ => clock packet.fragIndex) [packet] node
      rw [originateAll, Method.bind_of_ok horiginate] at this
      exact this
    rcases hframe : frameOf T.mtu node.mesh.padding packet with err | frame
    · have herr := (originate_of_error hframe (clock packet.fragIndex)).1
      rw [horiginate] at herr
      cases herr
    have hhanded := handed_originate hframe (clock packet.fragIndex)
    rw [horiginate] at hhanded
    obtain ⟨frames, hframes, hall⟩ := ih h
    rw [hmesh] at hall
    exact ⟨frame :: frames, by rw [hframes, hhanded]; simp, .cons hframe hall⟩

/-! ## `send_text` -/

section SendText

variable {signingPublic : Bytes β} {text : String} {env : SendEnv β} {session : Session β X}

/-- What a text is encrypted as. -/
def textPayload (env : SendEnv β) (text : String) : Bytes β :=
  encodeMessage .text env.timestamp (encodeUtf8 text)

/-- `send_text` leaves the session as its encryption left it, whether it returns or raises. -/
lemma sessions_sendText (hs : node.sessions.sessionFor signingPublic = some session) :
    (sendText P signingPublic text env node).2.sessions =
      { node.sessions with
        sessions := node.sessions.sessions.set signingPublic
          (Session.encrypt P (textPayload env text) session).2 } := by
  rw [← Session.encryptTagged_snd _ env.wallNow, sendText, Method.self_bind, hs]
  simp only
  rw [Method.bind_apply, onSession, Method.onField_apply]
  rcases henc : Session.encryptTagged P (textPayload env text) env.wallNow session with
    ⟨err | ⟨blob, tag⟩, session'⟩
  · rw [textPayload] at henc
    rw [henc]
  · rw [textPayload] at henc
    rw [henc]
    simp only [Method.bind_apply]
    have hsessions := sessions_emit .data blob tag env { node with
      sessions := { node.sessions with
        sessions := node.sessions.sessions.set signingPublic session' } }
    rcases hemit : emit .data blob tag env { node with
      sessions := { node.sessions with
        sessions := node.sessions.sessions.set signingPublic session' } } with ⟨err | ⟨⟩, node₁⟩
    · rw [hemit] at hsessions
      exact hsessions
    · rw [hemit] at hsessions
      exact hsessions

/-- What `send_text` does when the encryption and the tag have succeeded. -/
lemma sendText_of_encrypted {blob tag : Bytes β} {session' : Session β X}
    (hs : node.sessions.sessionFor signingPublic = some session)
    (henc : Session.encrypt P (textPayload env text) session = (.ok blob, session'))
    (htag : session'.currentSendTag P env.wallNow = .ok tag) :
    sendText P signingPublic text env node =
      (do
        emit .data blob tag env
        Method.update fun node =>
          { node with stats := { node.stats with messagesSent := node.stats.messagesSent + 1 } }
        return true)
      { node with sessions := { node.sessions with
        sessions := node.sessions.sessions.set signingPublic session' } } := by
  have htagged : onSession signingPublic session (Session.encryptTagged P (textPayload env text)
      env.wallNow) node = (.ok (blob, tag), { node with sessions := { node.sessions with
        sessions := node.sessions.sessions.set signingPublic session' } }) := by
    rw [onSession, Method.onField_apply, Session.encryptTagged_ok_iff.mpr ⟨henc, htag⟩]
  rw [textPayload] at htagged
  rw [sendText, Method.self_bind, hs]
  simp only
  rw [Method.bind_of_ok htagged]

lemma handed_sendText_of_encrypted {blob tag : Bytes β} {session' : Session β X}
    (hs : node.sessions.sessionFor signingPublic = some session)
    (henc : Session.encrypt P (textPayload env text) session = (.ok blob, session'))
    (htag : session'.currentSendTag P env.wallNow = .ok tag) :
    (sendText P signingPublic text env node).2.handed =
      (emit .data blob tag env { node with sessions := { node.sessions with
        sessions := node.sessions.sessions.set signingPublic session' } }).2.handed := by
  rw [sendText_of_encrypted hs henc htag, Method.bind_apply]
  rcases emit .data blob tag env { node with sessions := { node.sessions with
    sessions := node.sessions.sessions.set signingPublic session' } } with ⟨err | ⟨⟩, node₁⟩
  · rfl
  · rfl

/-- Without a tag nothing is handed over. -/
lemma handed_sendText_of_tag_error {blob : Bytes β} {session' : Session β X} {err : Exc β}
    (hs : node.sessions.sessionFor signingPublic = some session)
    (henc : Session.encrypt P (textPayload env text) session = (.ok blob, session'))
    (htag : session'.currentSendTag P env.wallNow = .error err) :
    (sendText P signingPublic text env node).2.handed = node.handed := by
  have htagged : Session.encryptTagged P (textPayload env text) env.wallNow session =
      (.error err, session') := by
    rw [Session.encryptTagged, Method.bind_of_ok henc, Method.self_bind, htag,
      Method.bind_of_error (Method.eval_apply _ _)]
  rw [textPayload] at htagged
  rw [sendText, Method.self_bind, hs]
  simp only
  rw [Method.bind_apply, onSession, Method.onField_apply, htagged]

/-- When `send_text` returns `True`, the frames that it has handed over are those of the text. -/
lemma sendText_true {node' : Node T X E}
    (h : sendText P signingPublic text env node = (.ok true, node')) :
    ∃ session session' frames,
      node.sessions.sessionFor signingPublic = some session ∧
      session.Emits P T.mtu (textPayload env text) env.wallNow frames session' ∧
      node'.handed = node.handed ++ frames := by
  rcases hs : node.sessions.sessionFor signingPublic with _ | session
  · rw [sendText, Method.self_bind, hs] at h
    cases h
  rw [sendText, Method.self_bind, hs] at h
  obtain ⟨⟨blob, tag⟩, node₁, hsession, h⟩ := Method.bind_ok.mp h
  obtain ⟨session', htagged, rfl⟩ := Method.onField_ok.mp hsession
  obtain ⟨⟨⟩, node₂, hemit, h⟩ := Method.bind_ok.mp h
  obtain ⟨-, rfl⟩ := Prod.mk.inj h
  rw [emit, Method.self_bind] at hemit
  obtain ⟨packets, node₃, hfragment, hall⟩ := Method.bind_ok.mp hemit
  obtain ⟨hfragment', rfl⟩ := Method.eval_ok.mp hfragment
  obtain ⟨frames, hhanded, hframes⟩ := originateAll_ok hall
  refine ⟨session, session', frames, rfl,
    ⟨env.msgId, node.capacity, node.mesh.defaultTtl, node.mesh.padding, ?_⟩, hhanded⟩
  exact Method.bind_ok.mpr ⟨(blob, tag), session', htagged, Method.bind_ok.mpr ⟨packets, session',
    Method.eval_ok.mpr ⟨hfragment', rfl⟩, Method.eval_ok.mpr ⟨mapM_ok_iff.mpr hframes, rfl⟩⟩⟩

end SendText

end Node

end Chatbit
