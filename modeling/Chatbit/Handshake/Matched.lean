import Chatbit.Handshake.Connect
import Chatbit.Handshake.Lockstep
import Chatbit.Wire.TagTheorems

/-!
# Matched sessions

What an honest responder answers to an honest initiator is valid for the initiator, and in one way
only (`honestResponse`); the same holds of the FIN that the initiator answers (`honestFin`). Both
ends then derive the same keys, so their sessions are paired.
-/

namespace Chatbit

open Lib HandshakeState

variable {β X E : Type} [Alphabet β] [DecidableEq β] {P : Primitives β X E}

/-! ## What the honest parties read -/

/-- What the owner of `e` reads in the RESP of `responder` with keys `eR` and `r`. -/
def honestResponse (P : Primitives β X E) (responder : Identity X E) (eR r e : X) :
    ReceivedResponse β where
  re := P.x25519PublicBytes eR
  encS := respEncStatic P responder eR (P.x25519PublicBytes e)
  encPayload := respEncPayload P responder eR r (P.x25519PublicBytes e)
  rs := responder.staticPublic P
  payload := encodeIdentityPayload P responder (some (P.x25519PublicBytes r))
    (builderHash2 P PROLOGUE responder.staticPrivate eR (P.x25519PublicBytes e))
  claim := {
    signingPub := responder.signingPublic P
    signature := responder.signTranscript P
      (builderHash2 P PROLOGUE responder.staticPrivate eR (P.x25519PublicBytes e))
    ratchetPub := some (P.x25519PublicBytes r)
    nickname := decodeReplace (sentNickname responder : Bytes β) }

/-- What the responder reads in the FIN that `initiator` with key `e` answers to `m`. -/
def honestFin (P : Primitives β X E) (initiator : Identity X E) (e : X) (m : ReceivedResponse β) :
    ReceivedFin β where
  encS := encStatic3 P PROLOGUE initiator.staticPrivate e m.re m.rs m.encS m.encPayload
  encPayload := encPayload3 P PROLOGUE initiator.staticPrivate e m.re m.rs m.encS m.encPayload
    (m.finPayload P initiator e)
  rs := initiator.staticPublic P
  payload := m.finPayload P initiator e
  claim := {
    signingPub := initiator.signingPublic P
    signature := initiator.signTranscript P
      (builderHash3 P PROLOGUE initiator.staticPrivate e m.re m.rs m.encS m.encPayload)
    ratchetPub := none
    nickname := decodeReplace (sentNickname initiator : Bytes β) }

section Honest

variable (hP : P.Correct)
include hP

omit [DecidableEq β] in
lemma length_respEncStatic (responder : Identity X E) (eR : X) (re : Bytes β) :
    (respEncStatic P responder eR re).length = DHLEN + TAGLEN := by
  rw [respEncStatic, encStatic2, SymmetricState.length_sealAfter hP, hP.length_x25519Public]

omit [DecidableEq β] in
lemma verify_signTranscript (identity : Identity X E) (h : Bytes β) :
    P.verify (identity.signingPublic P) (identity.signTranscript P h) (SIG_DOMAIN ++ h) = true := by
  simp [Primitives.verify, Identity.signingPublic, Identity.signTranscript,
    hP.length_ed25519Public, hP.verify_sign]

omit [DecidableEq β] in
/-- The RESP of an honest responder is valid. -/
lemma honestResponse_valid (responder : Identity X E) (eR r e : X) :
    (honestResponse P responder eR r e).Valid P e
      (respMessage P responder eR r (P.x25519PublicBytes e)) where
  body_eq := rfl
  length_re := hP.length_x25519Public eR
  length_encS := length_respEncStatic hP responder eR _
  opens := opens2_of_sent hP ..
  claim_eq := decodeIdentityPayload_encode hP responder _ (by
    rintro _ ⟨⟩
    exact hP.length_x25519Public r)
  verified := verify_signTranscript hP responder _

omit [DecidableEq β] in
/-- The FIN of an honest initiator is valid. -/
lemma honestFin_valid (initiator responder : Identity X E) (eR r e : X) :
    (honestFin P initiator e (honestResponse P responder eR r e)).Valid P responder.staticPrivate eR
      (P.x25519PublicBytes e) (respEncStatic P responder eR (P.x25519PublicBytes e))
      (respEncPayload P responder eR r (P.x25519PublicBytes e))
      ((honestResponse P responder eR r e).fin P initiator e) where
  body_eq := rfl
  length_encS := by
    rw [honestFin, encStatic3, SymmetricState.length_sealAfter hP, hP.length_x25519Public]
  opens := opens3_of_sent hP ..
  claim_eq := decodeIdentityPayload_encode hP initiator _ (by simp)
  verified := verify_signTranscript hP initiator _

omit [DecidableEq β] in
/-- A RESP is read in one way. -/
lemma ReceivedResponse.Valid.unique {e : X} {body : Bytes β} {m m' : ReceivedResponse β}
    (h : m.Valid P e body) (h' : m'.Valid P e body) : m = m' := by
  obtain ⟨re, encS, encPayload, rs, payload, claim⟩ := m
  obtain ⟨re', encS', encPayload', rs', payload', claim'⟩ := m'
  have hbody := h.body_eq.symm.trans h'.body_eq
  simp only [List.append_assoc] at hbody
  obtain ⟨rfl, hrest⟩ := List.append_inj hbody (h.length_re.trans h'.length_re.symm)
  obtain ⟨rfl, rfl⟩ := List.append_inj hrest (h.length_encS.trans h'.length_encS.symm)
  obtain rfl : rs = rs' := hP.encrypt_inj (h.opens.static.symm.trans h'.opens.static)
  obtain rfl : payload = payload' :=
    hP.encrypt_inj (h.opens.identity.symm.trans h'.opens.identity)
  obtain rfl : claim = claim' := Except.ok.inj (h.claim_eq.symm.trans h'.claim_eq)
  rfl

omit [DecidableEq β] in
/-- A FIN is read in one way. -/
lemma ReceivedFin.Valid.unique {s e : X} {re encS encPayload body : Bytes β} {m m' : ReceivedFin β}
    (h : m.Valid P s e re encS encPayload body) (h' : m'.Valid P s e re encS encPayload body) :
    m = m' := by
  obtain ⟨encS₃, encPayload₃, rs, payload, claim⟩ := m
  obtain ⟨encS₃', encPayload₃', rs', payload', claim'⟩ := m'
  obtain ⟨rfl, rfl⟩ := List.append_inj (h.body_eq.symm.trans h'.body_eq)
    (h.length_encS.trans h'.length_encS.symm)
  obtain rfl : rs = rs' := hP.encrypt_inj (h.opens.static.symm.trans h'.opens.static)
  obtain rfl : payload = payload' :=
    hP.encrypt_inj (h.opens.identity.symm.trans h'.opens.identity)
  obtain rfl : claim = claim' := Except.ok.inj (h.claim_eq.symm.trans h'.claim_eq)
  rfl

end Honest

/-! ## Paired sessions -/

/-- The sessions of an initiator and a responder with the keys of one handshake: an `init_sender` /
`init_receiver` pair on one root key and the ratchet key `r`, and mirrored tag keys. -/
structure Session.Paired (P : Primitives β X E) (keys : Bytes β × Bytes β × Bytes β) (r fresh : X)
    (initiator responder : Session β X) : Prop where
  sender : DoubleRatchet.initSender P keys.1 (P.x25519PublicBytes r) fresh = .ok initiator.ratchet
  receiver : DoubleRatchet.initReceiver keys.1 r = .ok responder.ratchet
  initiator_sends : initiator.sendTagKey = keys.2.1
  responder_receives : responder.recvTagKey = keys.2.1
  responder_sends : responder.sendTagKey = keys.2.2
  initiator_receives : initiator.recvTagKey = keys.2.2

lemma initSender_of_length (hP : P.Correct) {k : Bytes β} (hk : k.length = 32) (r fresh : X) :
    ∃ ratchet, DoubleRatchet.initSender P k (P.x25519PublicBytes r) fresh = .ok ratchet :=
  (initSender_iff hk (hP.length_x25519Public r)).mpr (hP.exchange_ne_zero fresh r)

namespace SessionManager

/-- The initiator's entry when `_finalise` gets it. -/
def startedDone (P : Primitives β X E) (initiator responder : Identity X E)
    (peerStatic hsId : Bytes β) (e eR r : X) (startedAt : ℚ) : PendingHandshake β X :=
  { startPending P initiator peerStatic hsId e startedAt with
    handshake := (honestResponse P responder eR r e).finState P initiator e }

/-- The responder's entry when `_finalise` gets it. -/
def answeredDone (P : Primitives β X E) (initiator responder : Identity X E) (hsId : Bytes β)
    (e eR r : X) (startedAt : ℚ) : PendingHandshake β X :=
  { respPending P responder hsId (P.x25519PublicBytes e) eR r startedAt with
    handshake := (honestFin P initiator e (honestResponse P responder eR r e)).state P
      responder.staticPrivate eR (P.x25519PublicBytes e)
      (respEncStatic P responder eR (P.x25519PublicBytes e))
      (respEncPayload P responder eR r (P.x25519PublicBytes e)) }

section Completed

variable (hP : P.Correct)
include hP

omit [DecidableEq β] in
/-- The two ends derive the same keys. -/
lemma sessionKeys_done (initiator responder : Identity X E) (peerStatic hsId : Bytes β)
    (e eR r : X) (startedAt answeredAt : ℚ) :
    sessionKeys P (answeredDone P initiator responder hsId e eR r answeredAt).handshake =
      sessionKeys P (startedDone P initiator responder peerStatic hsId e eR r
        startedAt).handshake :=
  congrArg (fun st : SymmetricState β => deriveSessionKeys P st.ck st.h)
    (received3_symmetric hP ..)

/-- What `_finalise` makes at the two ends is paired. -/
lemma paired_of_finaliseKeys {initiator responder : Identity X E} {hsId peerStatic : Bytes β}
    {e eR r fresh freshR : X} {startedAt answeredAt estI estR : ℚ} {refI refR : PeerRef}
    {keysI keysR : DoubleRatchet β X × Bytes β × Bytes β}
    (hI : finaliseKeys P (startedDone P initiator responder peerStatic hsId e eR r startedAt)
      (some (P.x25519PublicBytes r)) fresh = .ok keysI)
    (hR : finaliseKeys P (answeredDone P initiator responder hsId e eR r answeredAt) none freshR =
      .ok keysR) :
    Session.Paired P
      (sessionKeys P (startedDone P initiator responder peerStatic hsId e eR r startedAt).handshake)
      r fresh (newSession (startPending P initiator peerStatic hsId e startedAt) refI keysI estI)
      (newSession (respPending P responder hsId (P.x25519PublicBytes e) eR r answeredAt) refR keysR
        estR) := by
  obtain ⟨ratchetI, sendI, recvI⟩ := keysI
  obtain ⟨ratchetR, sendR, recvR⟩ := keysR
  have hkeys := sessionKeys_done hP initiator responder peerStatic hsId e eR r startedAt answeredAt
  obtain ⟨pub, hpub, hsender, rfl, rfl⟩ := (finaliseKeys_initiator rfl rfl).mp hI
  obtain ⟨hreceiver, rfl, rfl⟩ := (finaliseKeys_responder rfl rfl rfl).mp hR
  obtain rfl := Option.some.inj hpub
  exact ⟨hsender, hkeys ▸ hreceiver, rfl, congrArg (fun k => k.2.1) hkeys,
    congrArg (fun k => k.2.2) hkeys, rfl⟩

lemma finaliseKeys_startedDone (initiator responder : Identity X E) (peerStatic hsId : Bytes β)
    (e eR r fresh : X) (startedAt : ℚ) :
    ∃ keys, finaliseKeys P (startedDone P initiator responder peerStatic hsId e eR r startedAt)
      (some (P.x25519PublicBytes r)) fresh = .ok keys := by
  have hlen : (sessionKeys P (startedDone P initiator responder peerStatic hsId e eR r
    startedAt).handshake).1.length = 32 := length_rootKey hP _ _
  obtain ⟨ratchet, hratchet⟩ := initSender_of_length hP hlen r fresh
  exact ⟨_, (finaliseKeys_initiator rfl rfl).mpr ⟨_, rfl, hratchet, rfl, rfl⟩⟩

lemma finaliseKeys_answeredDone (initiator responder : Identity X E) (hsId : Bytes β)
    (e eR r fresh : X) (answeredAt : ℚ) :
    ∃ keys, finaliseKeys P (answeredDone P initiator responder hsId e eR r answeredAt) none fresh =
      .ok keys := by
  have hlen : (sessionKeys P (answeredDone P initiator responder hsId e eR r
    answeredAt).handshake).1.length = 32 := length_rootKey hP _ _
  exact ⟨_, (finaliseKeys_responder rfl rfl rfl).mpr ⟨initReceiver_of_length hlen r, rfl, rfl⟩⟩

/-- A RESP from an honest responder completes the handshake that it answers, if the initiator's
trust store has no other static key for it. -/
lemma handleResponse_honest {manager : SessionManager β X E} {responder : Identity X E}
    {hsId peerStatic : Bytes β} {e : X} {startedAt : ℚ} (hid : hsId.length = HS_ID_LEN)
    (hget : manager.pending.get? hsId =
      some (startPending P manager.identity peerStatic hsId e startedAt))
    (hc : manager.trust.Compatible (responder.signingPublic P) (responder.staticPublic P))
    (eR r fresh : X) (now establishedAt : ℚ) :
    ∃ ref trust' keys session,
      TrustStore.observe P (responder.signingPublic P) (responder.staticPublic P)
        (decodeReplace (sentNickname responder : Bytes β)) now manager.trust = (.ok ref, trust') ∧
      finaliseKeys P (startedDone P manager.identity responder peerStatic hsId e eR r startedAt)
        (some (P.x25519PublicBytes r)) fresh = .ok keys ∧
      session = newSession (startPending P manager.identity peerStatic hsId e startedAt) ref keys
        establishedAt ∧
      handleResponse P (hsId ++ respMessage P responder eR r (P.x25519PublicBytes e)) fresh now
        establishedAt manager =
        (.ok (some (hsId ++ (honestResponse P responder eR r e).fin P manager.identity e, session)),
          manager.completed hsId (responder.signingPublic P) trust' session) := by
  obtain ⟨ref, trust', hobserve⟩ := TrustStore.observe_of_compatible (P := P) hc
    (decodeReplace (sentNickname responder : Bytes β)) now
  obtain ⟨keys, hkeys⟩ := finaliseKeys_startedDone hP manager.identity responder peerStatic hsId e
    eR r fresh startedAt
  refine ⟨ref, trust', keys, _, hobserve, hkeys, rfl, ?_⟩
  have htake : (hsId ++ respMessage P responder eR r (P.x25519PublicBytes e)).take HS_ID_LEN =
      hsId := List.take_left' hid
  have hdrop : (hsId ++ respMessage P responder eR r (P.x25519PublicBytes e)).drop HS_ID_LEN =
      respMessage P responder eR r (P.x25519PublicBytes e) := List.drop_left' hid
  rw [handleResponse_of_pending (htake.symm ▸ hget) rfl, htake, hdrop, Method.map_ok]
  exact ⟨_, (completeInitiator_ok_iff hP rfl).mpr ⟨honestResponse P responder eR r e, ref, trust',
    _, honestResponse_valid hP responder eR r e, hobserve, hP.exchange_ne_zero _ eR, rfl, hkeys,
    rfl, rfl⟩, rfl⟩

/-- The FIN that the initiator answers completes the handshake for the responder, if its trust
store has no other static key for the initiator. -/
lemma handleFin_honest {manager : SessionManager β X E} {initiator : Identity X E}
    {hsId : Bytes β} {e eR r : X} {answeredAt : ℚ} (hid : hsId.length = HS_ID_LEN)
    (hget : manager.pending.get? hsId =
      some (respPending P manager.identity hsId (P.x25519PublicBytes e) eR r answeredAt))
    (hc : manager.trust.Compatible (initiator.signingPublic P) (initiator.staticPublic P))
    (fresh : X) (now establishedAt : ℚ) :
    ∃ ref trust' keys session,
      TrustStore.observe P (initiator.signingPublic P) (initiator.staticPublic P)
        (decodeReplace (sentNickname initiator : Bytes β)) now manager.trust = (.ok ref, trust') ∧
      finaliseKeys P (answeredDone P initiator manager.identity hsId e eR r answeredAt) none fresh =
        .ok keys ∧
      session = newSession (respPending P manager.identity hsId (P.x25519PublicBytes e) eR r
        answeredAt) ref keys establishedAt ∧
      handleFin P (hsId ++ (honestResponse P manager.identity eR r e).fin P initiator e) fresh now
        establishedAt manager =
        (.ok (some session), manager.completed hsId (initiator.signingPublic P) trust' session) := by
  obtain ⟨ref, trust', hobserve⟩ := TrustStore.observe_of_compatible (P := P) hc
    (decodeReplace (sentNickname initiator : Bytes β)) now
  obtain ⟨keys, hkeys⟩ := finaliseKeys_answeredDone hP initiator manager.identity hsId e eR r fresh
    answeredAt
  refine ⟨ref, trust', keys, _, hobserve, hkeys, rfl, ?_⟩
  have htake : (hsId ++ (honestResponse P manager.identity eR r e).fin P initiator e).take
      HS_ID_LEN = hsId := List.take_left' hid
  have hdrop : (hsId ++ (honestResponse P manager.identity eR r e).fin P initiator e).drop
      HS_ID_LEN = (honestResponse P manager.identity eR r e).fin P initiator e :=
    List.drop_left' hid
  rw [handleFin_of_pending (htake.symm ▸ hget) rfl, htake, hdrop, Method.map_ok]
  exact ⟨_, (completeResponder_ok_iff hP rfl).mpr ⟨honestFin P initiator e
    (honestResponse P manager.identity eR r e), ref, trust', _,
    honestFin_valid hP initiator manager.identity eR r e, hobserve, hkeys, rfl, rfl⟩, rfl⟩

omit hP [DecidableEq β] in
lemma handshakeTag_ok (peerStatic : Bytes β) {epoch : ℤ} (h : 0 ≤ epoch) (h' : epoch < 256 ^ 8) :
    ∃ tag, Tags.handshakeTag P peerStatic epoch = .ok tag := by
  show ∃ tag, Tags.tagAt P true peerStatic epoch = .ok tag
  exact Tags.exists_tagAt_iff.mpr ⟨h, h'⟩

omit hP in
/-- The session that was made is the one under the peer's signing key, and its peer is the object
that the trust store returned. -/
lemma completed_session {manager : SessionManager β X E} {hsId : Bytes β} {ref : PeerRef}
    {trust trust' : TrustStore β} {signingPublic staticPublic : Bytes β} {nickname : String}
    {now : ℚ} {session : Session β X} (href : session.peer = ref)
    (h : TrustStore.observe P signingPublic staticPublic nickname now trust = (.ok ref, trust')) :
    (manager.completed hsId signingPublic trust' session).sessionFor signingPublic =
        some session ∧
      ∃ peer, (manager.completed hsId signingPublic trust' session).peerOf session = some peer ∧
        peer.signingPublic = signingPublic ∧ peer.staticPublic = staticPublic := by
  obtain ⟨peer, hobj, hsigning, hstatic⟩ := TrustStore.observe_ok h
  refine ⟨OrderedDict.get?_set_self _ _ _, peer, ?_, hsigning, hstatic⟩
  rw [peerOf, href]
  exact hobj

/-- The four calls of a handshake give two matched sessions. The handshake objects of the two ends
go through the pattern in lockstep, each end learns the true keys of the other, and the sessions
are paired on the keys of that run. -/
theorem handshake_matched (initiator responder : SessionManager β X E) {hsId : Bytes β}
    (hid : hsId.length = HS_ID_LEN) (peerStatic : Bytes β) (e eR r fresh freshR : X)
    (now startedAt nowR answeredAt pinnedI pinnedR estI estR : ℚ) {wallNow : ℚ}
    (hclock : 0 ≤ Tags.currentEpoch wallNow) (hclock' : Tags.currentEpoch wallNow < 256 ^ 8)
    (hroom : (responder.expire nowR).pending.length < MAX_PENDING_HANDSHAKES)
    (hnew : hsId ∉ (responder.expire nowR).pending.keys)
    (hcI : initiator.trust.Compatible (responder.identity.signingPublic P)
      (responder.identity.staticPublic P))
    (hcR : responder.trust.Compatible (initiator.identity.signingPublic P)
      (initiator.identity.staticPublic P)) :
    ∃ (run : PatternRun β X) (tag : Bytes β) (initiator₁ initiator₂ responder₁ responder₂ :
        SessionManager β X E) (sessionI sessionR : Session β X),
      run.Lockstep P PROLOGUE initiator.identity.staticPrivate responder.identity.staticPrivate e eR
        (encodeIdentityPayload P responder.identity (some (P.x25519PublicBytes r)))
        (encodeIdentityPayload P initiator.identity none) ∧
      startHandshake P peerStatic hsId e now startedAt wallNow initiator =
        (.ok (hsId ++ run.message₁, tag), initiator₁) ∧
      (initiator₁.pending.get? hsId).map PendingHandshake.handshake = some run.initiator₁ ∧
      handleInit P (hsId ++ run.message₁) eR r nowR answeredAt responder =
        (.ok (some (hsId ++ run.message₂)), responder₁) ∧
      (responder₁.pending.get? hsId).map PendingHandshake.handshake = some run.responder₂ ∧
      handleResponse P (hsId ++ run.message₂) fresh pinnedI estI initiator₁ =
        (.ok (some (hsId ++ run.message₃, sessionI)), initiator₂) ∧
      handleFin P (hsId ++ run.message₃) freshR pinnedR estR responder₁ =
        (.ok (some sessionR), responder₂) ∧
      initiator₂.sessionFor (responder.identity.signingPublic P) = some sessionI ∧
      responder₂.sessionFor (initiator.identity.signingPublic P) = some sessionR ∧
      (∃ peer, initiator₂.peerOf sessionI = some peer ∧
        peer.signingPublic = responder.identity.signingPublic P ∧
        peer.staticPublic = responder.identity.staticPublic P) ∧
      (∃ peer, responder₂.peerOf sessionR = some peer ∧
        peer.signingPublic = initiator.identity.signingPublic P ∧
        peer.staticPublic = initiator.identity.staticPublic P) ∧
      sessionKeys P run.responder₃ = sessionKeys P run.initiator₃ ∧
      Session.Paired P (sessionKeys P run.initiator₃) r fresh sessionI sessionR := by
  obtain ⟨tag, htag⟩ := handshakeTag_ok (P := P) peerStatic hclock hclock'
  have hstart := startHandshake_eq (P := P) initiator peerStatic hsId e now startedAt wallNow
  rw [htag] at hstart
  -- the responder answers the INIT
  have hanswers : Answers P (responder.expire nowR) (hsId ++ P.x25519PublicBytes e) eR := by
    refine ⟨hroom, by rwa [List.take_left' hid], ?_⟩
    rw [List.drop_left' hid]
    exact ⟨hP.length_x25519Public e, hP.exchange_ne_zero eR e, hP.exchange_ne_zero _ e⟩
  have hinit := handleInit_eq hP responder (hsId ++ P.x25519PublicBytes e) eR r nowR answeredAt
  rw [if_pos hanswers, List.take_left' hid, List.drop_left' hid] at hinit
  -- what each end has pending before the other's answer comes
  have hgetI : (startHandshake P peerStatic hsId e now startedAt wallNow
      initiator).2.pending.get? hsId =
        some (startPending P initiator.identity peerStatic hsId e startedAt) := by
    rw [hstart]
    exact OrderedDict.get?_set_self _ _ _
  have hgetR : (handleInit P (hsId ++ P.x25519PublicBytes e) eR r nowR answeredAt
      responder).2.pending.get? hsId =
        some (respPending P responder.identity hsId (P.x25519PublicBytes e) eR r answeredAt) := by
    rw [hinit]
    exact OrderedDict.get?_set_self _ _ _
  rw [hstart] at hgetI
  rw [hinit] at hgetR
  -- each end completes, with keys that `finaliseKeys` derives from the one pattern run
  obtain ⟨refI, trustI, keysI, sessionI, hobserveI, hkeysI, hsI, hresponse⟩ :=
    handleResponse_honest hP hid hgetI hcI eR r fresh pinnedI estI
  obtain ⟨refR, trustR, keysR, sessionR, hobserveR, hkeysR, hsR, hfin⟩ :=
    handleFin_honest hP hid hgetR hcR freshR pinnedR estR
  have hrefI : sessionI.peer = refI := by rw [hsI]; rfl
  have hrefR : sessionR.peer = refR := by rw [hsR]; rfl
  obtain ⟨hforI, hpeerI⟩ := completed_session hrefI hobserveI
  obtain ⟨hforR, hpeerR⟩ := completed_session hrefR hobserveR
  subst hsI hsR
  exact ⟨.between P PROLOGUE _ _ e eR _ _, tag, _, _, _, _, _, _,
    PatternRun.between_lockstep _ _ _ _ _ _ _ hP, hstart, congrArg _ hgetI, hinit,
    congrArg _ hgetR, hresponse, hfin, hforI, hforR, hpeerI, hpeerR,
    sessionKeys_done hP _ _ peerStatic hsId e eR r startedAt answeredAt,
    paired_of_finaliseKeys hP hkeysI hkeysR⟩

omit hP in
open Meeting in
/-- Alice and Bob meet. -/
theorem handshake_matched_meeting :
    ∃ (aliceAfter bobAfter : SessionManager SymByte ℕ ℕ) (sessionI sessionR : Session SymByte ℕ)
      (keys : Bytes SymByte × Bytes SymByte × Bytes SymByte),
      aliceAfter.sessionFor (bob.signingPublic symbolic) = some sessionI ∧
      bobAfter.sessionFor (alice.signingPublic symbolic) = some sessionR ∧
      Session.Paired symbolic keys 23 13 sessionI sessionR := by
  have hempty : ∀ a b, (TrustStore.empty none : TrustStore SymByte).Compatible a b :=
    fun _ _ _ h => nomatch h
  obtain ⟨run, tag, alice₁, alice₂, bob₁, bob₂, sessionI, sessionR, -, -, -, -, -, -, -, hI, hR, -,
    -, -, hpaired⟩ := handshake_matched symbolic_correct
      { identity := alice, trust := .empty none } { identity := bob, trust := .empty none }
      (show hsId.length = HS_ID_LEN by decide) (bob.staticPublic symbolic) 12 22 23 13 0 0 0 0 0 0 0
      0 0 (show 0 ≤ Tags.currentEpoch 0 by decide +kernel) (by decide +kernel) (by decide)
      (by decide) (hempty _ _) (hempty _ _)
  exact ⟨alice₂, bob₂, sessionI, sessionR, _, hI, hR, hpaired⟩

end Completed

end SessionManager

end Chatbit
