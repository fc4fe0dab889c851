import Chatbit.Handshake.Crossing
import Chatbit.OnMessage
import Chatbit.Utf8

/-!
# What a conversation hands over

The sessions of the two nodes go through a run of two ratchets (`Follows.session`), and what is
handed over as a text of the other side is the plaintext of a delivery that the run has accepted. So
every text that an application is handed as the other's was given to `send_text` there, and each is
handed over once at most.
-/

namespace Chatbit

open Lib Method

variable {β X E τ : Type} [Alphabet β] [DecidableEq β] {P : Primitives β X E}

/-! ## Whose record a session refers to -/

namespace TrustStore

omit [Alphabet β] in
/-- Changing a record keeps the signing keys of all of them. -/
lemma object_change {store : TrustStore β} (k : Bytes β) (unknown : String)
    (f : PeerIdentity β → PeerIdentity β) (hf : ∀ p, (f p).signingPublic = p.signingPublic)
    {ref : PeerRef} {p : PeerIdentity β} (hp : store.object ref = some p) :
    ∃ p', (change k unknown f hf store : Except (Exc β) PeerRef × _).2.object ref = some p' ∧
      p'.signingPublic = p.signingPublic := by
  have hends := change_ends store k unknown f hf
  revert hends
  generalize change k unknown f hf store = result
  intro hends
  cases hends with
  | raises => exact ⟨p, hp, rfl⟩
  | changes =>
    rw [object_save, object_modify, hp]
    split_ifs
    · exact ⟨f p, rfl, hf p⟩
    · exact ⟨p, rfl, rfl⟩

end TrustStore

namespace SessionManager

variable {manager manager' : SessionManager β X E}

omit [Alphabet β] in
/-- Sessions stay or go, and the records stay those of the same peers. -/
lemma Owned.of_keeps (h : manager.Owned)
    (hobject : ∀ ref p, manager.trust.object ref = some p →
      ∃ p', manager'.trust.object ref = some p' ∧ p'.signingPublic = p.signingPublic)
    (hsessions : ∀ k session', manager'.sessions.get? k = some session' →
      ∃ session, manager.sessions.get? k = some session ∧ session.peer = session'.peer) :
    manager'.Owned := by
  intro k session' hget
  obtain ⟨session, hold, hpeer⟩ := hsessions k session' hget
  obtain ⟨p, hp, hkey⟩ := h k session hold
  obtain ⟨p', hp', hkey'⟩ := hobject _ p hp
  exact ⟨p', (congrArg manager'.trust.object hpeer).symm.trans hp', hkey'.trans hkey⟩

/-- The store has observed something at most, and the sessions are the same. -/
lemma Owned.of_observes (h : manager.Owned)
    (htrust : TrustStore.Observes P manager.trust manager'.trust)
    (hsessions : manager'.sessions = manager.sessions) : manager'.Owned :=
  h.of_keeps (LabelRun.keepsRecords_of_observes htrust).object
    fun _ session hget => ⟨session, hsessions ▸ hget, rfl⟩

/-- A completed handshake gives a session that refers to the record of its peer. -/
lemma Owned.completed (h : manager.Owned) {k s : Bytes β} {nickname : String} {now : ℚ}
    {session : Session β X} {hsId : Bytes β} {trust' : TrustStore β}
    (hobserve : TrustStore.observe P k s nickname now manager.trust = (.ok session.peer, trust')) :
    (manager.completed hsId k trust' session).Owned := by
  intro k' session' hget
  by_cases hk : k' = k
  · subst hk
    obtain rfl := Option.some.inj ((OrderedDict.get?_set_self _ _ _).symm.trans hget)
    obtain ⟨p, hp, hkey, -⟩ := TrustStore.observe_ok hobserve
    exact ⟨p, hp, hkey⟩
  · have hkeeps := TrustStore.keepsRecords_observe P manager.trust k s nickname now
    rw [hobserve] at hkeeps
    obtain ⟨p, hp, hkey⟩ := h k' session' ((OrderedDict.get?_set_of_ne _ _ hk).symm.trans hget)
    obtain ⟨p', hp', hkey'⟩ := hkeeps.object _ p hp
    exact ⟨p', hp', hkey'.trans hkey⟩

section Calls

variable (hP : P.Correct)
include hP

/-- A RESP files its session under the key of the record that it refers to. -/
lemma Owned.response (h : manager.Owned) (hm : WellFormed P manager) (payload : Bytes β) (fresh : X)
    (now establishedAt : ℚ) :
    (handleResponse P payload fresh now establishedAt manager).2.Owned := by
  let w : LabelRun β X E := ⟨manager, fun _ => none, fun _ => none⟩
  by_cases hok : ∃ result manager',
      handleResponse P payload fresh now establishedAt manager = (.ok (some result), manager')
  · obtain ⟨result, manager', hok⟩ := hok
    obtain ⟨k, s, nickname, trust', -, hobserve, hmanager⟩ :=
      LabelRun.authenticates_response (w := w) hP hm hok
    rw [hok, hmanager]
    exact h.completed hobserve
  · push Not at hok
    refine h.of_observes (observes_handleResponse payload manager) ?_
    rcases handleResponse_of_not_some hP hm hok with ⟨-, heq⟩ | ⟨-, err, manager', heq, hspoiled⟩
    · rw [heq]
    · rw [heq]
      exact hspoiled.sessions

/-- So does a FIN. -/
lemma Owned.fin (h : manager.Owned) (hm : WellFormed P manager) (payload : Bytes β) (fresh : X)
    (now establishedAt : ℚ) : (handleFin P payload fresh now establishedAt manager).2.Owned := by
  let w : LabelRun β X E := ⟨manager, fun _ => none, fun _ => none⟩
  by_cases hok : ∃ session manager',
      handleFin P payload fresh now establishedAt manager = (.ok (some session), manager')
  · obtain ⟨session, manager', hok⟩ := hok
    obtain ⟨k, s, nickname, trust', -, hobserve, hmanager⟩ :=
      LabelRun.authenticates_fin (w := w) hP hm hok
    rw [hok, hmanager]
    exact h.completed hobserve
  · push Not at hok
    refine h.of_observes (observes_handleFin payload manager) ?_
    rcases handleFin_of_not_some hP hm hok with ⟨-, heq⟩ | ⟨-, err, manager', heq, hspoiled⟩
    · rw [heq]
    · rw [heq]
      exact hspoiled.sessions

/-- No call mixes up whose record a session refers to. -/
lemma Owned.call (h : manager.Owned) (hm : WellFormed P manager) (c : Call β X) :
    (manager.call P c).Owned := by
  have hsame : ∀ ref p, manager.trust.object ref = some p →
      ∃ p', manager.trust.object ref = some p' ∧ p'.signingPublic = p.signingPublic :=
    fun _ p hp => ⟨p, hp, rfl⟩
  cases c with
  | start peerStatic hsId e now startedAt wallNow =>
    have hsnd := startHandshake_snd (P := P) manager peerStatic hsId e now startedAt wallNow
    rw [SessionManager.call, hsnd]
    exact h.of_keeps hsame fun _ session hget => ⟨session, hget, rfl⟩
  | init payload e r now startedAt =>
    rw [SessionManager.call, handleInit_eq hP manager payload e r now startedAt]
    split_ifs <;> exact h.of_keeps hsame fun _ session hget => ⟨session, hget, rfl⟩
  | response payload fresh now establishedAt => exact h.response hP hm payload fresh now _
  | fin payload fresh now establishedAt => exact h.fin hP hm payload fresh now _
  | encrypt k plaintext =>
    refine h.of_keeps ?_ fun k' session' => LabelRun.peer_onSession (LabelRun.keeps_encrypt _) _
    rw [SessionManager.call, onSession]
    split <;> exact hsame
  | decrypt k blob fresh =>
    refine h.of_keeps ?_ fun k' session' => LabelRun.peer_onSession (LabelRun.keeps_decrypt _ _) _
    rw [SessionManager.call, onSession]
    split <;> exact hsame
  | drop k =>
    refine h.of_keeps hsame fun k' session' hget => ⟨session', ?_, rfl⟩
    have hmem := OrderedDict.mem_erase.mp (OrderedDict.get?_eq_some_iff.mp hget)
    exact OrderedDict.get?_eq_some_iff.mpr hmem.2
  | markVerified k =>
    exact h.of_keeps (fun _ _ => TrustStore.object_change _ _ _ _) fun _ session hget =>
      ⟨session, hget, rfl⟩
  | repin k s =>
    exact h.of_keeps (fun _ _ => TrustStore.object_change _ _ _ _) fun _ session hget =>
      ⟨session, hget, rfl⟩
  | forget k =>
    refine h.of_keeps (fun ref p hp => ⟨p, ?_, rfl⟩) fun _ session hget => ⟨session, hget, rfl⟩
    show (manager.trust.erase k).save.object ref = some p
    rw [TrustStore.object_save]
    exact hp

/-- In a reachable manager every session refers to the record of its peer. -/
lemma Reachable.owned (hm : Reachable P manager) : manager.Owned := by
  obtain ⟨identity, trust, hreach⟩ := hm
  have hstart : ({ identity := identity, trust := trust } : SessionManager β X E).Owned := by
    intro k session hget
    cases hget
  have hboth := hreach.invariant (I := fun m => WellFormed P m ∧ m.Owned)
    ⟨Reachable.wellFormed hP ⟨identity, trust, .refl _⟩, hstart⟩
    fun m c h _ => ⟨h.1.call hP c, h.2.call hP h.1 c⟩
  exact hboth.2

end Calls

end SessionManager

/-! ## The ratchet of a session -/

namespace Session

variable {session : Session β X} {blob : Bytes β} {header : MessageHeader β} {fresh : X}

omit [DecidableEq β] in
/-- Encrypting is encrypting with the ratchet. -/
lemma ratchet_encrypt_eq (plaintext : Bytes β) (session : Session β X) :
    (encrypt P plaintext session).2.ratchet =
      (DoubleRatchet.encrypt P plaintext [] session.ratchet).2 := by
  refine (Keeps.after (f := Session.ratchet) (fun sent => ?_) session).trans rfl
  exact .bind (.update fun _ => rfl) fun _ => .bind (.eval _ _) fun _ => .pure _ _

omit [DecidableEq β] in
/-- A blob that begins with a header is as long as the header. -/
lemma le_length_of_header
    (h : MessageHeader.decode (blob.take RATCHET_HEADER_LEN) = .ok header) :
    RATCHET_HEADER_LEN ≤ blob.length := by
  by_contra hlen
  rw [MessageHeader.decode, if_pos (by rw [List.length_take]; omega)] at h
  cases h

/-- Decrypting is decrypting with the ratchet. -/
lemma ratchet_decrypt_eq (h : MessageHeader.decode (blob.take RATCHET_HEADER_LEN) = .ok header)
    (fresh : X) (session : Session β X) :
    (decrypt P blob fresh session).2.ratchet =
      (DoubleRatchet.decrypt P header (blob.drop RATCHET_HEADER_LEN) [] fresh
        session.ratchet).2 := by
  rw [decrypt_eq (le_length_of_header h) h]
  rcases DoubleRatchet.decrypt P header (blob.drop RATCHET_HEADER_LEN) [] fresh session.ratchet with
    ⟨err | plaintext, st⟩ <;> rfl

/-- What the ratchet decrypts is what the session returns. -/
lemma toOption_decrypt (h : MessageHeader.decode (blob.take RATCHET_HEADER_LEN) = .ok header)
    (fresh : X) (session : Session β X) :
    (decrypt P blob fresh session).1.toOption =
      (DoubleRatchet.decrypt P header (blob.drop RATCHET_HEADER_LEN) [] fresh
        session.ratchet).1.toOption := by
  rw [decrypt_eq (le_length_of_header h) h]
  rcases DoubleRatchet.decrypt P header (blob.drop RATCHET_HEADER_LEN) [] fresh session.ratchet with
    ⟨err | plaintext, st⟩ <;> rfl

end Session

/-! ## What an event hands over -/

omit [DecidableEq β] in
/-- What is sent as a text says the text. -/
lemma textOf_textPayload {env : SendEnv β} (h : env.timestamp.length = 8) (text : String) :
    textOf (Node.textPayload env text) = some (env.timestamp, text) := by
  have hdecode : decodeMessage (Node.textPayload env text) =
      .ok (.text, env.timestamp, encodeUtf8 text) := by
    rw [decodeMessage, Node.textPayload, encodeMessage, if_neg (by simp [h])]
    simp [MessageKind.toInt, MessageKind.ofInt, h]
  rw [textOf, hdecode]
  show some (env.timestamp, decodeReplace (encodeUtf8 text : Bytes β)) = _
  rw [decodeReplace_encodeUtf8]

namespace Node

variable {T : Transport β τ} {node : Node T X E}

/-- The manager is asked to encrypt by `send_text`. -/
lemma callOf_eq_encrypt {event : NodeEvent β X} {k plaintext : Bytes β}
    (h : node.callOf P event = some (.encrypt k plaintext)) :
    ∃ text env, event = .sendText k text env ∧ plaintext = textPayload env text := by
  unfold callOf at h
  split at h
  · obtain ⟨⟨packet, payload⟩, -, h⟩ := Option.bind_eq_some_iff.mp h
    dsimp only [callOfPayload] at h
    split at h
    · cases h
    · cases h
    · cases h
    · split at h <;> cases h
    · cases h
    · cases h
    · cases h
  · cases h
  · cases h
  · cases h
  · cases h
    exact ⟨_, _, rfl, rfl⟩
  all_goals cases h

/-- The manager is asked to decrypt when a data frame completes a payload. -/
lemma callOf_eq_decrypt_iff {event : NodeEvent β X} {k blob : Bytes β} {fresh : X} :
    node.callOf P event = some (.decrypt k blob fresh) ↔
      ∃ data rssi env packet session,
        event = .inbound (.frame data rssi env) ∧ node.arrives P data env = some (packet, blob) ∧
        packet.ptype = .data ∧
        node.sessions.sessionByTag P packet.dstTag env.dataNow = .ok (some (k, session)) ∧
        fresh = env.fresh := by
  constructor
  · intro h
    unfold callOf at h
    split at h
    · rename_i data rssi env
      obtain ⟨⟨packet, payload⟩, harrives, h⟩ := Option.bind_eq_some_iff.mp h
      dsimp only [callOfPayload] at h
      split at h
      · cases h
      · cases h
      · cases h
      · rename_i hptype
        split at h
        · rename_i htag
          cases h
          exact ⟨data, rssi, env, packet, _, rfl, harrives, hptype, htag, rfl⟩
        · cases h
      · cases h
      · cases h
      · cases h
    all_goals cases h
  · rintro ⟨data, rssi, env, packet, session, rfl, harrives, hptype, htag, rfl⟩
    simp only [callOf, harrives, Option.bind_some, callOfPayload, hptype, htag]

/-- What is handed over as a text of a peer is what the session with this peer decrypts. -/
lemma hands_text_iff (howned : node.sessions.Owned) {k : Bytes β} {session : Session β X}
    (hs : node.sessions.sessionFor k = some session) {event : NodeEvent β X}
    {content : Bytes β × String} :
    (∃ message, node.hands P event = some message ∧ message.peer.signingPublic = k ∧
        message.content = content) ↔
      ∃ blob fresh plaintext, node.callOf P event = some (.decrypt k blob fresh) ∧
        (Session.decrypt P blob fresh session).1 = .ok plaintext ∧
        textOf plaintext = some content := by
  constructor
  · rintro ⟨message, h, hkey, rfl⟩
    obtain ⟨data, rssi, env, packet, payload, rfl, harrives, hptype, h⟩ := hands_eq_some_iff.mp h
    obtain ⟨k', session', plaintext, timestamp, body, peer, htag, hdecrypt, hdecode, hpeer, rfl⟩ :=
      incoming_eq_some_iff.mp h
    -- the session of the tag is the one with the peer of its record
    have hs' : node.sessions.sessionFor k' = some session' :=
      OrderedDict.get?_eq_some_iff.mpr (mem_of_sessionByTagIn htag)
    obtain ⟨peer', hpeer', hkey'⟩ := howned k' session' hs'
    obtain rfl := Option.some.inj (hpeer'.symm.trans hpeer)
    obtain rfl : k' = k := hkey'.symm.trans hkey
    obtain rfl := Option.some.inj (hs'.symm.trans hs)
    refine ⟨payload, env.fresh, plaintext, callOf_eq_decrypt_iff.mpr
      ⟨data, rssi, env, packet, session', rfl, harrives, hptype, htag, rfl⟩, hdecrypt, ?_⟩
    rw [textOf, hdecode]
    rfl
  · rintro ⟨blob, fresh, plaintext, hcall, hdecrypt, htext⟩
    obtain ⟨data, rssi, env, packet, session', rfl, harrives, hptype, htag, rfl⟩ :=
      callOf_eq_decrypt_iff.mp hcall
    have hs' : node.sessions.sessionFor k = some session' :=
      OrderedDict.get?_eq_some_iff.mpr (mem_of_sessionByTagIn htag)
    obtain rfl := Option.some.inj (hs'.symm.trans hs)
    obtain ⟨peer, hpeer, hkey⟩ := howned k session' hs
    unfold textOf at htext
    split at htext
    · rename_i timestamp body hdecode
      obtain rfl := Option.some.inj htext
      exact ⟨_, hands_eq_some_iff.mpr ⟨data, rssi, env, packet, blob, rfl, harrives, hptype,
        incoming_eq_some_iff.mpr ⟨k, session', plaintext, timestamp, body, peer, htag, hdecrypt,
          hdecode, hpeer, rfl⟩⟩, hkey, rfl⟩
    · cases htext

end Node

/-! ## The texts of a run -/

namespace RatchetRun

/-- The texts that a side has sealed. -/
def sentTexts (s : RatchetRun β X) (side : Side) : List (Bytes β × String) :=
  (s.sent.filter fun m => m.side = side).filterMap fun m => textOf m.plaintext

/-- The texts that a side has accepted. -/
def acceptedTexts (s : RatchetRun β X) (side : Side) : List (Bytes β × String) :=
  (s.accepted.filter fun d => d.side = side).filterMap fun d => textOf d.plaintext

omit [DecidableEq β] in
/-- A text counts as sent by the side that encrypts it, if that succeeds. -/
lemma sentTexts_afterEncrypt (s : RatchetRun β X) (side side' : Side) (plaintext ad : Bytes β) :
    ((s.afterEncrypt P side plaintext ad).sentTexts side').Sublist
      (s.sentTexts side' ++ if side = side' then (textOf plaintext).toList else []) := by
  unfold sentTexts afterEncrypt
  rcases DoubleRatchet.encrypt P plaintext ad (s.ratchet side) with ⟨err | ⟨header, ct⟩, st⟩
  · exact List.sublist_append_left _ _
  · simp only [List.filter_append, List.filterMap_append]
    by_cases h : side = side' <;>
      rcases htext : textOf plaintext with _ | text <;> simp [h, htext]

lemma ratchet_afterDeliver (s : RatchetRun β X) (side : Side) (header : MessageHeader β)
    (ct ad : Bytes β) (fresh : X) :
    (s.afterDeliver P side header ct ad fresh).ratchet = Function.update s.ratchet side
      (DoubleRatchet.decrypt P header ct ad fresh (s.ratchet side)).2 := rfl

omit [DecidableEq β] in
/-- A sealed message is new or old. -/
lemma mem_sent_afterEncrypt {s : RatchetRun β X} {side : Side} {plaintext ad : Bytes β}
    {m : Sent β} (hm : m ∈ (s.afterEncrypt P side plaintext ad).sent) :
    m ∈ s.sent ∨ m.ad = ad := by
  unfold afterEncrypt at hm
  revert hm
  rcases DoubleRatchet.encrypt P plaintext ad (s.ratchet side) with ⟨err | ⟨header, ct⟩, st⟩
  · exact Or.inl
  · intro hm
    rcases List.mem_append.mp hm with hm | hm
    · exact Or.inl hm
    · exact Or.inr (by rw [List.mem_singleton.mp hm])

/-- A text counts as accepted when its delivery decrypts to it. -/
lemma acceptedTexts_afterDeliver (s : RatchetRun β X) (side side' : Side)
    (header : MessageHeader β) (ct ad : Bytes β) (fresh : X) :
    (s.afterDeliver P side header ct ad fresh).acceptedTexts side' =
      s.acceptedTexts side' ++ if side = side' then
        ((DoubleRatchet.decrypt P header ct ad fresh (s.ratchet side)).1.toOption.bind
          textOf).toList
      else [] := by
  unfold acceptedTexts afterDeliver
  rcases DoubleRatchet.decrypt P header ct ad fresh (s.ratchet side) with ⟨err | plaintext, st⟩
  · simp [Except.toOption]
  · simp only [List.filter_append, List.filterMap_append]
    by_cases h : side = side' <;>
      rcases htext : textOf plaintext with _ | text <;> simp [h, htext, Except.toOption]

omit [DecidableEq β] in
/-- A side accepts each text of the other once at most, and no other texts. -/
lemma acceptedTexts_subperm {σ : Schedule β X} {s : RatchetRun β X} (h : RunOk P σ s)
    (side : Side) : (s.acceptedTexts side).Subperm (s.sentTexts side.peer) := by
  have hnodup : (s.accepted.filter fun d => d.side = side).Nodup :=
    (List.Nodup.of_map _ h.accepted_nodup).filter _
  have hsubset : (s.accepted.filter fun d => d.side = side) ⊆
      (s.sent.filter fun m => m.side = side.peer).map Sent.delivery := by
    intro d hd
    obtain ⟨hd, hside⟩ := List.mem_filter.mp hd
    obtain ⟨m, hm, rfl⟩ := h.accepted_sent d hd
    have hpeer : m.side = side.peer := by
      rw [← of_decide_eq_true hside, Sent.delivery, Side.peer_peer]
    exact List.mem_map_of_mem (List.mem_filter.mpr ⟨hm, decide_eq_true hpeer⟩)
  obtain ⟨deliveries, hperm, hsub⟩ := List.subperm_of_subset hnodup hsubset
  have htexts : s.sentTexts side.peer =
      ((s.sent.filter fun m => m.side = side.peer).map Sent.delivery).filterMap fun d =>
        textOf d.plaintext := by
    rw [sentTexts, List.filterMap_map]
    rfl
  rw [htexts]
  exact ⟨_, hperm.filterMap _, hsub.filterMap _⟩

end RatchetRun

/-! ## What a step preserves -/

namespace Conversation

variable {T : Side → Transport β τ} {key : Side → Bytes β} {k : Bytes β} {a r : X}
  {c : Conversation T X E}

/-- The sessions of the two nodes are those of the run, and so are the texts. -/
structure Follows (P : Primitives β X E) (key : Side → Bytes β) (k : Bytes β) (a r : X)
    (c : Conversation T X E) : Prop where
  manager : ∀ side, (c.node side).sessions.Reachable P
  run : c.run.Reachable P k a r
  no_ad : ∀ m ∈ c.run.sent, m.ad = []
  session : ∀ side, ∃ session, (c.node side).sessions.sessionFor (key side.peer) = some session ∧
    session.ratchet = c.run.ratchet side
  said : ∀ side, (c.run.sentTexts side).Sublist (c.said side)
  heard : ∀ side, (c.heard key side).map IncomingMessage.content = c.run.acceptedTexts side

/-- An event of the run is a call on the session for the other side. -/
lemma ratchetEvent_some {side : Side} {event : NodeEvent β X} {e : RatchetEvent β X}
    (h : c.ratchetEvent P key side event = some e) :
    (∃ plaintext, (c.node side).callOf P event = some (.encrypt (key side.peer) plaintext) ∧
      e = .encrypt side plaintext []) ∨
    ∃ blob fresh header,
      (c.node side).callOf P event = some (.decrypt (key side.peer) blob fresh) ∧
      MessageHeader.decode (blob.take RATCHET_HEADER_LEN) = .ok header ∧
      e = .deliver side header (blob.drop RATCHET_HEADER_LEN) [] fresh := by
  obtain ⟨call, hcall, h⟩ := Option.bind_eq_some_iff.mp h
  rw [hcall]
  cases call with
  | encrypt signingPublic plaintext =>
    rw [Call.ratchetEvent] at h
    split_ifs at h with hkey
    subst hkey
    exact Or.inl ⟨plaintext, rfl, (Option.some.inj h).symm⟩
  | decrypt signingPublic blob fresh =>
    rw [Call.ratchetEvent] at h
    split_ifs at h with hkey
    subst hkey
    rcases hheader : MessageHeader.decode (blob.take RATCHET_HEADER_LEN) with err | header
    · rw [hheader] at h
      cases h
    · rw [hheader] at h
      exact Or.inr ⟨blob, fresh, header, rfl, hheader, (Option.some.inj h).symm⟩
  | _ => cases h

/-- A side is handed a text of the other when the run accepts one. -/
lemma Follows.handed_text_iff (h : c.Follows P key k a r) (hP : P.Correct) (side : Side)
    (event : NodeEvent β X) (content : Bytes β × String) :
    (∃ message, (c.node side).hands P event = some message ∧
        message.peer.signingPublic = key side.peer ∧ message.content = content) ↔
      ∃ header ct fresh,
        c.ratchetEvent P key side event = some (.deliver side header ct [] fresh) ∧
        (DoubleRatchet.decrypt P header ct [] fresh (c.run.ratchet side)).1.toOption.bind textOf =
          some content := by
  obtain ⟨session, hs, hratchet⟩ := h.session side
  rw [Node.hands_text_iff ((h.manager side).owned hP) hs, ← hratchet]
  constructor
  · rintro ⟨blob, fresh, plaintext, hcall, hdecrypt, htext⟩
    obtain ⟨header, st, -, hheader, -, -⟩ := Session.decrypt_ok_iff.mp (Prod.ext hdecrypt rfl)
    refine ⟨header, blob.drop RATCHET_HEADER_LEN, fresh, ?_, ?_⟩
    · rw [ratchetEvent, hcall, Option.bind_some, Call.ratchetEvent, if_pos rfl, hheader]
    · rw [← Session.toOption_decrypt hheader, hdecrypt]
      exact htext
  · rintro ⟨header, ct, fresh, hevent, htext⟩
    rcases ratchetEvent_some hevent with
      ⟨plaintext, -, he⟩ | ⟨blob, fresh', header', hcall, hheader, he⟩
    · cases he
    · cases he
      rw [← Session.toOption_decrypt hheader] at htext
      obtain ⟨plaintext, hdecrypt, htext⟩ := Option.bind_eq_some_iff.mp htext
      refine ⟨blob, fresh, plaintext, hcall, ?_, htext⟩
      rcases hresult : (Session.decrypt P blob fresh session).1 with err | plaintext'
      · rw [hresult] at hdecrypt
        cases hdecrypt
      · rw [hresult] at hdecrypt
        rw [Option.some.inj hdecrypt]

/-- Sending a text to the other side is an encryption of the run. -/
lemma ratchetEvent_sendText (c : Conversation T X E) (side : Side) (text : String)
    (env : SendEnv β) :
    c.ratchetEvent P key side (.sendText (key side.peer) text env) =
      some (.encrypt side (Node.textPayload env text) []) := by
  rw [ratchetEvent, Node.callOf, Option.bind_some, Call.ratchetEvent, if_pos rfl]

/-- Texts for the other side may be sent at any time. -/
lemma admissible_sendText (c : Conversation T X E) (side : Side) (text : String)
    {env : SendEnv β} (h : env.timestamp.length = 8) :
    c.Admissible P key (side, .sendText (key side.peer) text env) := by
  constructor
  · intro signingPublic text' env' he
    cases he
    exact h
  · rw [ratchetEvent_sendText]
    trivial

/-- What comes in without a call of the session manager is admissible. -/
lemma admissible_of_callOf_none {c : Conversation T X E} {side : Side} (inbound : InboundEvent β X)
    (h : (c.node side).callOf P (.inbound inbound) = none) :
    c.Admissible P key (side, .inbound inbound) := by
  constructor
  · intro signingPublic text env he
    cases he
  · rw [ratchetEvent, h]
    show ((c.node side).step P (.inbound inbound)).sessions.sessionFor _ = _
    rw [Node.sessions_step, h]
    rfl

/-- What the step adds to the texts that a side has heard. -/
lemma heard_step (side side' : Side) (event : NodeEvent β X) :
    ((c.step P key (side, event)).heard key side').map IncomingMessage.content =
      (c.heard key side').map IncomingMessage.content ++
        if side = side' then
          (((c.node side).hands P event).toList.filter fun message =>
            message.peer.signingPublic = key side.peer).map IncomingMessage.content
        else [] := by
  rw [heard, step_handed, heard]
  by_cases h : side = side'
  · subst h
    rw [Function.update_self, List.filter_append, List.map_append, if_pos rfl]
  · rw [Function.update_of_ne (Ne.symm h), if_neg h, List.append_nil]

/-- A filter and a map of one value at most. -/
lemma filter_map_toList {α γ : Type} {o : Option α} {p : α → Prop} [DecidablePred p] {f : α → γ}
    {o' : Option γ} (h : ∀ b, (∃ a, o = some a ∧ p a ∧ f a = b) ↔ o' = some b) :
    (o.toList.filter fun a => p a).map f = o'.toList := by
  have ho' : o' = (o.filter fun a => p a).map f := by
    ext b
    rw [← h b]
    simp [Option.filter_eq_some_iff, and_assoc]
  rw [ho']
  rcases o with _ | a
  · rfl
  · by_cases hp : p a <;> simp [hp, Option.filter]

omit [Alphabet β] in
/-- A call on a session leaves it where it is. -/
lemma sessionFor_onSession (manager : SessionManager β X E) {k : Bytes β} {session : Session β X}
    (hs : manager.sessionFor k = some session) {α : Type} (m : Method (Exc β) (Session β X) α) :
    (manager.onSession k m).sessionFor k = some (m session).2 := by
  rw [SessionManager.onSession, hs]
  exact OrderedDict.get?_set_self _ _ _

/-- The session for the other side after a step of this side. -/
lemma Follows.session_step (h : c.Follows P key k a r) {side : Side} {event : NodeEvent β X}
    (hadm : c.Admissible P key (side, event)) :
    ∃ session, ((c.node side).step P event).sessions.sessionFor (key side.peer) = some session ∧
      session.ratchet = (c.step P key (side, event)).run.ratchet side := by
  obtain ⟨session, hs, hratchet⟩ := h.session side
  have hadm := hadm.2
  rw [step_run]
  rcases hevent : c.ratchetEvent P key side event with _ | e
  · rw [hevent] at hadm
    exact ⟨session, hadm.trans hs, hratchet⟩
  rw [Node.sessions_step]
  rcases ratchetEvent_some hevent with
    ⟨plaintext, hcall, rfl⟩ | ⟨blob, fresh, header, hcall, hheader, rfl⟩
  · rw [hcall]
    refine ⟨_, sessionFor_onSession _ hs _, ?_⟩
    show _ = (c.run.afterEncrypt P side plaintext []).ratchet side
    rw [Session.ratchet_encrypt_eq, hratchet, RatchetRun.ratchet_afterEncrypt, Function.update_self]
  · rw [hcall]
    refine ⟨_, sessionFor_onSession _ hs _, ?_⟩
    show _ = (c.run.afterDeliver P side header _ [] fresh).ratchet side
    rw [Session.ratchet_decrypt_eq hheader, hratchet, RatchetRun.ratchet_afterDeliver,
      Function.update_self]

/-- The ratchet of the other side stays. -/
lemma ratchet_step_peer {side side' : Side} (hside : side' ≠ side) (event : NodeEvent β X) :
    (c.step P key (side, event)).run.ratchet side' = c.run.ratchet side' := by
  rw [step_run]
  rcases hevent : c.ratchetEvent P key side event with _ | e
  · rfl
  · rcases ratchetEvent_some hevent with ⟨plaintext, -, rfl⟩ | ⟨blob, fresh, header, -, -, rfl⟩ <;>
      exact Function.update_of_ne hside _ _

/-- What the run counts as sent has been said. -/
lemma Follows.said_step (h : c.Follows P key k a r) {side : Side} {event : NodeEvent β X}
    (hadm : c.Admissible P key (side, event)) (side' : Side) :
    ((c.step P key (side, event)).run.sentTexts side').Sublist
      ((c.step P key (side, event)).said side') := by
  have hgrows : (c.said side').Sublist ((c.step P key (side, event)).said side') := by
    rw [step_said]
    by_cases hside : side' = side
    · subst hside
      rw [Function.update_self]
      exact List.sublist_append_left _ _
    · rw [Function.update_of_ne hside]
  rw [step_run]
  rcases hevent : c.ratchetEvent P key side event with _ | e
  · exact (h.said side').trans hgrows
  rcases ratchetEvent_some hevent with ⟨plaintext, hcall, rfl⟩ | ⟨blob, fresh, header, -, -, rfl⟩
  · obtain ⟨text, env, rfl, rfl⟩ := Node.callOf_eq_encrypt hcall
    refine (RatchetRun.sentTexts_afterEncrypt c.run side side' _ []).trans ?_
    rw [textOf_textPayload (hadm.1 _ _ _ rfl), step_said, tells, if_pos rfl]
    by_cases hside : side = side'
    · subst hside
      rw [if_pos rfl, Function.update_self]
      exact (h.said side).append (List.Sublist.refl _)
    · rw [if_neg hside, List.append_nil, Function.update_of_ne (Ne.symm hside)]
      exact h.said side'
  · exact (h.said side').trans hgrows

/-- What is handed over as the other side's is what the run has accepted. -/
lemma Follows.heard_step (h : c.Follows P key k a r) (hP : P.Correct) (side side' : Side)
    (event : NodeEvent β X) :
    ((c.step P key (side, event)).heard key side').map IncomingMessage.content =
      (c.step P key (side, event)).run.acceptedTexts side' := by
  rw [Conversation.heard_step, h.heard side', step_run]
  have hiff := h.handed_text_iff hP side event
  rcases hevent : c.ratchetEvent P key side event with _ | e
  · rw [hevent] at hiff
    have hnone : ∀ content, _ ↔ none = some content :=
      fun content => (hiff content).trans (by simp)
    rw [filter_map_toList hnone]
    simp
  rcases ratchetEvent_some hevent with ⟨plaintext, -, rfl⟩ | ⟨blob, fresh, header, -, -, rfl⟩
  · rw [hevent] at hiff
    have hnone : ∀ content, _ ↔ none = some content :=
      fun content => (hiff content).trans (by simp)
    rw [filter_map_toList hnone]
    show _ = (c.run.afterEncrypt P side plaintext []).acceptedTexts side'
    simp [RatchetRun.acceptedTexts, RatchetRun.afterEncrypt]
  · rw [hevent] at hiff
    show _ = (c.run.afterDeliver P side header _ [] fresh).acceptedTexts side'
    rw [RatchetRun.acceptedTexts_afterDeliver, filter_map_toList fun content =>
      (hiff content).trans ?_]
    constructor
    · rintro ⟨header', ct', fresh', he, htext⟩
      cases he
      exact htext
    · intro htext
      exact ⟨_, _, _, rfl, htext⟩

/-- A step of a conversation keeps it a run of the ratchets. -/
lemma Follows.step (h : c.Follows P key k a r) (hP : P.Correct) {event : Side × NodeEvent β X}
    (hadm : c.Admissible P key event) : (c.step P key event).Follows P key k a r := by
  obtain ⟨side, event⟩ := event
  constructor
  · intro side'
    rw [step_node]
    by_cases hside : side' = side
    · subst hside
      rw [Function.update_self, Node.sessions_step]
      obtain ⟨identity, trust, hreach⟩ := h.manager side'
      rcases (c.node side').callOf P event with _ | call
      · exact ⟨identity, trust, hreach⟩
      · exact ⟨identity, trust, hreach.tail trivial⟩
    · rw [Function.update_of_ne hside]
      exact h.manager side'
  · rw [step_run]
    have hadm := hadm.2
    rcases hevent : c.ratchetEvent P key side event with _ | e
    · exact h.run
    · rw [hevent] at hadm
      obtain ⟨initiator, responder, hne, hsender, hreceiver, hreach⟩ := h.run
      exact ⟨initiator, responder, hne, hsender, hreceiver, hreach.tail hadm⟩
  · rw [step_run]
    rcases hevent : c.ratchetEvent P key side event with _ | e
    · exact h.no_ad
    rcases ratchetEvent_some hevent with ⟨plaintext, -, rfl⟩ | ⟨blob, fresh, header, -, -, rfl⟩
    · intro m hm
      exact (RatchetRun.mem_sent_afterEncrypt hm).elim (h.no_ad m) id
    · exact h.no_ad
  · intro side'
    by_cases hside : side' = side
    · subst hside
      rw [step_node, Function.update_self]
      exact h.session_step hadm
    · rw [step_node, Function.update_of_ne hside, ratchet_step_peer hside]
      exact h.session side'
  · exact h.said_step hadm
  · exact fun side' => h.heard_step hP side side' event

/-- So does a run. -/
lemma Follows.reaches (h : c.Follows P key k a r) (hP : P.Correct) {c' : Conversation T X E}
    (hrun : Reaches (Admissible P key) (Conversation.step P key) c c') :
    c'.Follows P key k a r :=
  hrun.invariant h fun _ _ h hadm => h.step hP hadm

section Start

variable {node : (side : Side) → Node (T side) X E}
  {keys : Bytes β × Bytes β × Bytes β} {initiator responder : Session β X}

/-- Two nodes that have met. -/
structure Met (P : Primitives β X E) (key : Side → Bytes β)
    (node : (side : Side) → Node (T side) X E) (keys : Bytes β × Bytes β × Bytes β) (a r : X)
    (initiator responder : Session β X) : Prop where
  manager : ∀ side, (node side).sessions.Reachable P
  session_initiator : (node .initiator).sessions.sessionFor (key .responder) = some initiator
  session_responder : (node .responder).sessions.sessionFor (key .initiator) = some responder
  paired : Session.Paired P keys r a initiator responder
  ne : P.x25519PublicBytes a ≠ P.x25519PublicBytes r

/-- Two nodes that have met follow the run of their ratchets. -/
lemma Met.follows (h : Met P key node keys a r initiator responder) :
    (begin P node a r initiator responder).Follows P key keys.1 a r where
  manager := h.manager
  run := ⟨_, _, h.ne, h.paired.sender, h.paired.receiver, .refl _⟩
  no_ad m hm := absurd hm List.not_mem_nil
  session side := by
    cases side with
    | initiator => exact ⟨initiator, h.session_initiator, rfl⟩
    | responder => exact ⟨responder, h.session_responder, rfl⟩
  said _ := .refl _
  heard _ := rfl

/-- Whatever the network does, and whatever else the two nodes do: what the application of a side
has been handed as texts of the other side has been given to `send_text` there, with these times of
sending, and every such call accounts for one message at most. -/
theorem heard_subperm_said (hP : P.Correct) (hH : P.HashIdeal) (hD : P.DhIdeal)
    (h : Met P key node keys a r initiator responder)
    (hrun : Reaches (Admissible P key) (Conversation.step P key)
      (begin P node a r initiator responder) c) (side : Side) :
    ((c.heard key side).map IncomingMessage.content).Subperm (c.said side.peer) := by
  have hfollows := h.follows.reaches hP hrun
  obtain ⟨σ, hok⟩ := hfollows.run.runOk hP hH hD
  rw [hfollows.heard side]
  exact (RatchetRun.acceptedTexts_subperm hok side).trans (hfollows.said side.peer).subperm

end Start

/-! ## Bob greets Alice -/

open LabelRun SessionManager.Meeting

/-- Bob after the handshake that he began. -/
def bobsManager : SessionManager SymByte ℕ ℕ :=
  asked.call symbolic (.response (responseOf alice) 13 0 0)

def meetingKey : Side → Bytes SymByte
  | .initiator => bobsKey
  | .responder => alice.signingPublic symbolic

def meetingNode : (side : Side) → Node Node.openLink ℕ ℕ
  | .initiator => { aliceNode met with sessions := bobsManager }
  | .responder => aliceNode met

def bobsSession : Session SymByte ℕ :=
  (bobsManager.sessionFor (meetingKey .responder)).get (by decide +kernel)

def alicesSession : Session SymByte ℕ :=
  (met.manager.sessionFor bobsKey).get (by decide +kernel)

def meeting : Conversation (fun _ => Node.openLink) ℕ ℕ :=
  begin symbolic meetingNode 13 23 bobsSession alicesSession

def bobsEnv : SendEnv SymByte where
  timestamp := zeros 8
  wallNow := 6000
  msgId := zeros 8
  clock _ := 0

/-- What Bob's second call of `send_text` reads and draws. -/
def laterEnv : SendEnv SymByte := { bobsEnv with msgId := ascii "followed" }

/-- He says two things. -/
def greeted : Conversation (fun _ => Node.openLink) ℕ ℕ :=
  meeting.step symbolic meetingKey (.initiator, .sendText (meetingKey .responder) "hi" bobsEnv)

def followed : Conversation (fun _ => Node.openLink) ℕ ℕ :=
  greeted.step symbolic meetingKey
    (.initiator, .sendText (meetingKey .responder) "there" laterEnv)

/-- The packets of Bob's texts. -/
def texts : List (Packet SymByte) :=
  ((followed.node .initiator).handed.mapM Packet.decode).toOption.getD []

/-- The clocks when Alice hears a packet, and the key that she then generates. -/
def arrivalAt (now : ℚ) (fresh : ℕ) : ReceiveEnv SymByte ℕ :=
  { arrival with now := now, reassemblyNow := now, fresh := fresh }

/-- Alice hears a packet. -/
def hears (packet : Packet SymByte) (now : ℚ) (fresh : ℕ) : Side × NodeEvent SymByte ℕ :=
  (.responder, .inbound (.frame (packet.header ++ packet.payload) none (arrivalAt now fresh)))

/-- The first text under another message id, which the dedup cache does not know. -/
def replay : Packet SymByte :=
  .ofFields .data (texts.getD 0 greetingPacket).payload (ascii "replayed")
    (texts.getD 0 greetingPacket).dstTag 7 0 1 (by decide +kernel)

/-- The second text comes first, then the first one, and then its replay. -/
def overtaken : Conversation (fun _ => Node.openLink) ℕ ℕ :=
  followed.step symbolic meetingKey (hears (texts.getD 1 greetingPacket) 1 43)

def answered : Conversation (fun _ => Node.openLink) ℕ ℕ :=
  overtaken.step symbolic meetingKey (hears (texts.getD 0 greetingPacket) 2 44)

def replayed : Conversation (fun _ => Node.openLink) ℕ ℕ :=
  answered.step symbolic meetingKey (hears replay 3 45)

/-- What a call decrypts. -/
def decrypts : Call SymByte ℕ → Option (Bytes SymByte × ℕ)
  | .decrypt _ blob fresh => some (blob, fresh)
  | _ => none

def meetingKeys : Bytes SymByte × Bytes SymByte × Bytes SymByte :=
  (alicesSession.ratchet.rk, bobsSession.sendTagKey, alicesSession.sendTagKey)

/-- Bob's manager has gone through the handshake. -/
lemma reachable_bobsManager : bobsManager.Reachable symbolic :=
  ⟨bob, .empty none, ((Reaches.refl _).tail
    (e := Call.start (alice.staticPublic symbolic) hsId 12 0 0 0) trivial).tail
    (e := Call.response (responseOf alice) 13 0 0) trivial⟩

/-- So has Alice's. -/
lemma reachable_met : met.manager.Reachable symbolic :=
  ⟨alice, .empty none, ((Reaches.refl _).tail
    (e := Call.init (hsId ++ SymByte.publicKey 12) 22 23 0 0) trivial).tail
    (e := Call.fin bobsEnd.1 33 0 0) trivial⟩

/-- Their sessions are the two halves of one. -/
lemma paired_meeting : Session.Paired symbolic meetingKeys 23 13 bobsSession alicesSession where
  sender := by decide +kernel
  receiver := by decide +kernel
  initiator_sends := rfl
  responder_receives := by decide +kernel
  responder_sends := rfl
  initiator_receives := by decide +kernel

/-- So they have met. -/
lemma met_meeting : Met symbolic meetingKey meetingNode meetingKeys 13 23 bobsSession
    alicesSession where
  manager side := by
    cases side with
    | initiator => exact reachable_bobsManager
    | responder => exact reachable_met
  session_initiator := (Option.some_get _).symm
  session_responder := (Option.some_get _).symm
  paired := paired_meeting
  ne := by decide

/-- In a symbolic run, the ciphertexts that have been sealed are admissible wherever they come. -/
lemma admissible_of_sealed {T : Side → Transport SymByte τ} {key : Side → Bytes SymByte}
    {k : Bytes SymByte} {a r : ℕ} {c : Conversation T ℕ ℕ} (hfollows : c.Follows symbolic key k a r)
    {side : Side} {event : InboundEvent SymByte ℕ}
    (hsome : (c.ratchetEvent symbolic key side (.inbound event)).isSome = true)
    (hall : ∀ call ∈ ((c.node side).callOf symbolic (.inbound event)).bind decrypts,
      call.1.drop RATCHET_HEADER_LEN ∈ c.run.sent.map Sent.ciphertext ∧
        symbolic.x25519PublicBytes call.2 ∉ c.run.minted) :
    c.Admissible symbolic key (side, .inbound event) := by
  constructor
  · intro signingPublic text env h
    cases h
  obtain ⟨σ, hok⟩ := hfollows.run.runOk symbolic_correct symbolic_hashIdeal symbolic_dhIdeal
  rcases hevent : c.ratchetEvent symbolic key side (.inbound event) with _ | e
  · rw [hevent] at hsome
    cases hsome
  rcases ratchetEvent_some hevent with
    ⟨plaintext, hcall, rfl⟩ | ⟨blob, fresh, header, hcall, -, rfl⟩
  · obtain ⟨_, _, h, -⟩ := Node.callOf_eq_encrypt hcall
    cases h
  obtain ⟨hct, hfresh⟩ := hall (blob, fresh) (by rw [hcall]; rfl)
  obtain ⟨m, hm, hct⟩ := List.mem_map.mp hct
  obtain ⟨j, hj⟩ := hok.sent_at m hm
  refine ⟨hfresh, ?_⟩
  rw [← hct]
  exact Sent.authentic hm hj _ _ _ _

lemma reaches_followed : Reaches (Admissible symbolic meetingKey)
    (Conversation.step symbolic meetingKey) meeting followed :=
  ((Reaches.refl _).tail (admissible_sendText meeting .initiator "hi" rfl)).tail
    (admissible_sendText greeted .initiator "there" rfl)

lemma reaches_replayed : Reaches (Admissible symbolic meetingKey)
    (Conversation.step symbolic meetingKey) meeting replayed := by
  have hovertaken : Reaches (Admissible symbolic meetingKey)
      (Conversation.step symbolic meetingKey) meeting overtaken :=
    reaches_followed.tail (admissible_of_sealed
      (met_meeting.follows.reaches symbolic_correct reaches_followed) (by decide +kernel)
      (by decide +kernel))
  have hanswered : Reaches (Admissible symbolic meetingKey)
      (Conversation.step symbolic meetingKey) meeting answered :=
    hovertaken.tail (admissible_of_sealed
      (met_meeting.follows.reaches symbolic_correct hovertaken) (by decide +kernel)
      (by decide +kernel))
  exact hanswered.tail (admissible_of_sealed
    (met_meeting.follows.reaches symbolic_correct hanswered) (by decide +kernel)
    (by decide +kernel))

/-- Alice is handed both texts of Bob's, each of them once. -/
theorem heard_subperm_said_meeting :
    (replayed.heard meetingKey .responder).map IncomingMessage.content =
      [(zeros 8, "there"), (zeros 8, "hi")] ∧
    ((replayed.heard meetingKey .responder).map IncomingMessage.content).Subperm
      (replayed.said .initiator) :=
  ⟨by decide +kernel, heard_subperm_said symbolic_correct symbolic_hashIdeal symbolic_dhIdeal
    met_meeting reaches_replayed .responder⟩

end Conversation

end Chatbit
