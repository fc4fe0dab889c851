import Chatbit.Session
import Chatbit.Crypto.IdentityTheorems
import Chatbit.Crypto.NoiseTheorems

/-!
# What the session manager does

One lemma for each handshake method says what a call that completes has checked and leaves
(`completeInitiator_ok_iff`, `handleInit_eq`, `completeResponder_ok_iff`).
-/

namespace Chatbit

open Lib HandshakeState

variable {β X E : Type} [Alphabet β] [DecidableEq β] {P : Primitives β X E}

/-! ## Identity payloads -/

/-- The nickname that goes out with a handshake. -/
def sentNickname (identity : Identity X E) : Bytes β := (encodeUtf8 identity.nickname).take 64

omit [DecidableEq β] in
/-- What is sent of a nickname is 64 bytes at most. -/
lemma length_sentNickname (identity : Identity X E) :
    (sentNickname identity : Bytes β).length ≤ 64 := by
  rw [sentNickname, List.length_take]
  exact Nat.min_le_left _ _

omit [DecidableEq β] in
/-- The reader of an identity payload gets what its writer put in. -/
lemma decodeIdentityPayload_encode (hP : P.Correct) (identity : Identity X E) (h : Bytes β)
    {ratchetPub : Option (Bytes β)} (hr : ∀ r ∈ ratchetPub, r.length = PUBKEY_LEN) :
    decodeIdentityPayload (encodeIdentityPayload P identity ratchetPub h) ratchetPub.isSome =
      .ok { signingPub := identity.signingPublic P, signature := identity.signTranscript P h
            ratchetPub := ratchetPub
            nickname := decodeReplace (sentNickname identity : Bytes β) } := by
  have hpub : (identity.signingPublic P).length = PUBKEY_LEN := hP.length_ed25519Public _
  have hsig : (identity.signTranscript P h).length = SIG_LEN := hP.length_sign _ _
  have hrlen : (ratchetPub.getD []).length = if ratchetPub.isSome then PUBKEY_LEN else 0 := by
    cases ratchetPub with
    | none => rfl
    | some r => exact hr r rfl
  have hnick := length_sentNickname (β := β) identity
  have hlen : (UInt8.ofNat (sentNickname identity : Bytes β).length).toNat =
      (sentNickname identity : Bytes β).length := by
    rw [UInt8.toNat_ofNat']; omega
  have henc : encodeIdentityPayload P identity ratchetPub h =
      identity.signingPublic P ++ (identity.signTranscript P h ++ (ratchetPub.getD [] ++
        (ofOctet (UInt8.ofNat (sentNickname identity : Bytes β).length) ::
          sentNickname identity))) := by
    simp [encodeIdentityPayload, sentNickname]
  -- the fields that the reader slices off, from the left
  have hdrop : ∀ t : Bytes β, (identity.signingPublic P ++ (identity.signTranscript P h ++ t)).drop
      (PUBKEY_LEN + SIG_LEN) = t := fun t => by
    rw [← List.append_assoc]
    exact List.drop_left' (by rw [List.length_append, hpub, hsig])
  have hdrop₁ : ∀ t : Bytes β, (identity.signingPublic P ++ (identity.signTranscript P h ++
      (ratchetPub.getD [] ++ t))).drop
        (PUBKEY_LEN + SIG_LEN + if ratchetPub.isSome then PUBKEY_LEN else 0) = t := fun t => by
    rw [← List.drop_drop, hdrop]
    exact List.drop_left' hrlen
  have hdrop₂ : ∀ (b : β) (t : Bytes β),
      (identity.signingPublic P ++ (identity.signTranscript P h ++
        (ratchetPub.getD [] ++ b :: t))).drop
          ((PUBKEY_LEN + SIG_LEN + if ratchetPub.isSome then PUBKEY_LEN else 0) + 1) = t :=
    fun b t => by
      rw [← List.drop_drop, hdrop₁]; rfl
  have hratchet : ∀ t : Bytes β, (if ratchetPub.isSome then
      some ((ratchetPub.getD [] ++ t).take PUBKEY_LEN) else none) = ratchetPub := fun t => by
    cases ratchetPub with
    | none => rfl
    | some r => exact congrArg some (List.take_left' (hr r rfl))
  rw [decodeIdentityPayload, henc]
  simp only
  rw [if_neg (by simp only [List.length_append, List.length_cons, hpub, hsig, hrlen]; omega),
    hdrop₁, hdrop₂, hdrop, hratchet, List.take_left' hpub, List.drop_left' hpub,
    List.take_left' hsig]
  simp [hlen]

omit [DecidableEq β] in
/-- A payload that decodes is at least as long as its fixed part, and has the ratchet key that was
expected. -/
lemma decodeIdentityPayload_ok {payload : Bytes β} {expectRatchet : Bool}
    {claim : IdentityPayload β} (h : decodeIdentityPayload payload expectRatchet = .ok claim) :
    PUBKEY_LEN + SIG_LEN + (if expectRatchet then PUBKEY_LEN else 0) + 1 ≤ payload.length ∧
      (expectRatchet = true → ∃ r, claim.ratchetPub = some r ∧ r.length = PUBKEY_LEN) := by
  simp only [decodeIdentityPayload] at h
  rcases Nat.lt_or_ge payload.length
    (PUBKEY_LEN + SIG_LEN + (if expectRatchet then PUBKEY_LEN else 0) + 1) with hlt | hge
  · rw [if_pos hlt] at h
    cases h
  · rw [if_neg (by omega)] at h
    refine ⟨hge, fun hr => ?_⟩
    obtain rfl := Except.ok.inj h
    refine ⟨_, if_pos hr, ?_⟩
    rw [hr, if_pos rfl] at hge
    rw [List.length_take, List.length_drop]
    omega

/-! ## Root keys -/

omit [DecidableEq β] in
/-- HKDF gives the 96 bytes of the session keys. -/
lemma length_hkdf_96 (hP : P.Correct) (ikm salt info : Bytes β) :
    (P.hkdf ikm salt info 96).length = 96 := by
  have hblocks : ∀ count i prev,
      (P.hkdfBlocks (P.hmacSha256 salt ikm) info count i prev).length = HASHLEN * count := by
    intro count
    induction count with
    | zero => intro i prev; rfl
    | succ count ih =>
      intro i prev
      rw [Primitives.hkdfBlocks, List.length_append, hP.length_hmac, ih]
      ring
  rw [Primitives.hkdf, List.length_take, hblocks]
  rfl

omit [DecidableEq β] in
/-- The root key is 32 bytes. -/
lemma length_rootKey (hP : P.Correct) (chainingKey handshakeHash : Bytes β) :
    (deriveSessionKeys P chainingKey handshakeHash).1.length = 32 := by
  simp [deriveSessionKeys, length_hkdf_96 hP]

omit [Alphabet β] [DecidableEq β] in
/-- A receiver starts from a root key of the right length. -/
lemma initReceiver_of_length {k : Bytes β} (hk : k.length = 32) (r : X) :
    DoubleRatchet.initReceiver k r = .ok { dhsPriv := r, dhrPub := none, rk := k } := by
  simp [DoubleRatchet.initReceiver, hk]

/-- `init_sender` returns when the key of the peer is not of low order. -/
lemma initSender_iff {k pub : Bytes β} {fresh : X} (hk : k.length = 32)
    (hpub : pub.length = DHLEN) :
    (∃ ratchet, DoubleRatchet.initSender P k pub fresh = .ok ratchet) ↔
      P.exchange fresh pub ≠ zeros DHLEN := by
  constructor
  · rintro ⟨ratchet, h⟩ hz
    simp [DoubleRatchet.initSender, hk, loadX25519Public, hpub, Primitives.dh, hz, bind,
      Except.bind] at h
  · intro hz
    simp [DoubleRatchet.initSender, hk, loadX25519Public, hpub, Primitives.dh_eq_ok hpub hz, bind,
      Except.bind, pure, Except.pure]

/-! ## INIT -/

section Respond

variable (P : Primitives β X E) (identity : Identity X E) (e r : X) (re : Bytes β)

/-- The encrypted static key in the message 2 that answers `re`. -/
def respEncStatic : Bytes β := encStatic2 P PROLOGUE identity.staticPrivate e re

/-- The encrypted payload in that message. -/
def respEncPayload : Bytes β :=
  encPayload2 P PROLOGUE identity.staticPrivate e re
    (encodeIdentityPayload P identity (some (P.x25519PublicBytes r))
      (builderHash2 P PROLOGUE identity.staticPrivate e re))

def respMessage : Bytes β :=
  P.x25519PublicBytes e ++ respEncStatic P identity e re ++ respEncPayload P identity e r re

/-- The handshake object that this leaves. -/
def respState : HandshakeState β X :=
  sent2 P PROLOGUE identity.staticPrivate e re (respEncStatic P identity e re)
    (respEncPayload P identity e r re)

end Respond

/-- A responder with ephemeral key `e` can answer `re`. -/
def Answerable (P : Primitives β X E) (identity : Identity X E) (e : X) (re : Bytes β) : Prop :=
  re.length = DHLEN ∧ P.exchange e re ≠ zeros DHLEN ∧
    P.exchange identity.staticPrivate re ≠ zeros DHLEN

instance (identity : Identity X E) (e : X) (re : Bytes β) :
    Decidable (Answerable P identity e re) :=
  inferInstanceAs (Decidable (_ ∧ _ ∧ _))

/-- The responder answers exactly the messages that it can answer. -/
lemma respond_eq (hP : P.Correct) (identity : Identity X E) (body : Bytes β) (e r : X) :
    SessionManager.respond P identity body e r =
      .ok (if Answerable P identity e body then
        some (respMessage P identity e r body, respState P identity e r body) else none) := by
  by_cases hlen : body.length = DHLEN
  swap
  · rw [if_neg fun h => hlen h.1, SessionManager.respond, readMessage1_new, if_neg hlen]
    rfl
  rw [SessionManager.respond, readMessage1_new, if_pos hlen]
  simp only
  by_cases ha : Answerable P identity e body
  · rw [if_pos ha, (writeMessage2_ok_iff hP hlen).mpr ⟨ha.2.1, ha.2.2, rfl, rfl⟩]
    rfl
  · rw [if_neg ha]
    rcases hw : writeMessage2 P (encodeIdentityPayload P identity (some (P.x25519PublicBytes r))) e
      (received1 P PROLOGUE identity.staticPrivate body) with ⟨err | message, st'⟩
    · simp [writeMessage2_error hP hlen hw]
    · obtain ⟨hz, hz', -, -⟩ := (writeMessage2_ok_iff hP hlen).mp hw
      exact absurd ⟨hlen, hz, hz'⟩ ha

/-- The handshake object is past the message that the entry waits for. -/
def PendingHandshake.Past (pending : PendingHandshake β X) : Prop :=
  pending.handshake.msgIndex ≠ if pending.initiator then 1 else 2

instance (pending : PendingHandshake β X) : Decidable pending.Past :=
  inferInstanceAs (Decidable (_ ≠ _))

namespace SessionManager

/-- The manager that accepting a RESP or a FIN leaves. -/
def completed (manager : SessionManager β X E) (hsId signingPublic : Bytes β)
    (trust' : TrustStore β) (session : Session β X) : SessionManager β X E :=
  { manager with
    trust := trust'
    sessions := manager.sessions.set signingPublic session
    pending := manager.pending.erase hsId }

/-- The entry that a responder adds. -/
def respPending (P : Primitives β X E) (identity : Identity X E) (hsId re : Bytes β) (e r : X)
    (startedAt : ℚ) : PendingHandshake β X where
  handshake := respState P identity e r re
  hsId := hsId
  startedAt := startedAt
  initiator := false
  ratchetPrivate := some r

/-- The entry that an initiator adds. -/
def startPending (P : Primitives β X E) (identity : Identity X E) (peerStatic hsId : Bytes β)
    (e : X) (startedAt : ℚ) : PendingHandshake β X where
  handshake := sent1 P PROLOGUE identity.staticPrivate e
  hsId := hsId
  startedAt := startedAt
  initiator := true
  peerStatic := some peerStatic

/-- A manager answers an INIT when it has room, the id is not in use and the key can be answered. -/
def Answers (P : Primitives β X E) (manager : SessionManager β X E) (payload : Bytes β) (e : X) :
    Prop :=
  manager.pending.length < MAX_PENDING_HANDSHAKES ∧
    payload.take HS_ID_LEN ∉ manager.pending.keys ∧
    Answerable P manager.identity e (payload.drop HS_ID_LEN)

instance (manager : SessionManager β X E) (payload : Bytes β) (e : X) :
    Decidable (Answers P manager payload e) :=
  inferInstanceAs (Decidable (_ ∧ _ ∧ _))

/-- Everything about a `handle_init` call; it never raises. -/
lemma handleInit_eq (hP : P.Correct) (manager : SessionManager β X E) (payload : Bytes β)
    (e r : X) (now startedAt : ℚ) :
    handleInit P payload e r now startedAt manager =
      if Answers P (manager.expire now) payload e then
        (.ok (some (payload.take HS_ID_LEN ++
            respMessage P manager.identity e r (payload.drop HS_ID_LEN))),
          { manager.expire now with
            pending := (manager.expire now).pending.set (payload.take HS_ID_LEN)
              (respPending P manager.identity (payload.take HS_ID_LEN) (payload.drop HS_ID_LEN)
                e r startedAt) })
      else (.ok none, manager.expire now) := by
  have hid : (manager.expire now).identity = manager.identity := rfl
  rw [handleInit, expirePending, Method.update_bind, Method.self_bind]
  generalize manager.expire now = m at *
  by_cases hroom : m.pending.length < MAX_PENDING_HANDSHAKES
  swap
  · rw [if_pos (by omega), if_neg fun h => hroom h.1]; rfl
  rw [if_neg (by omega)]
  by_cases hkey : payload.take HS_ID_LEN ∈ m.pending.keys
  · rw [if_pos hkey, if_neg fun h => h.2.1 hkey]; rfl
  rw [if_neg hkey, respond_eq hP]
  by_cases ha : Answerable P m.identity e (payload.drop HS_ID_LEN)
  · rw [if_pos ha, if_pos (show Answers P m payload e from ⟨hroom, hkey, ha⟩), ← hid]
    rfl
  · rw [if_neg ha, if_neg fun h => ha h.2.2]; rfl

/-- Everything about `start_handshake`. -/
lemma startHandshake_eq (manager : SessionManager β X E) (peerStatic hsId : Bytes β) (e : X)
    (now startedAt wallNow : ℚ) :
    startHandshake P peerStatic hsId e now startedAt wallNow manager =
      ((Tags.handshakeTag P peerStatic (Tags.currentEpoch wallNow)).map
        fun tag => (hsId ++ P.x25519PublicBytes e, tag),
      { manager.expire now with
        pending := (manager.expire now).pending.set hsId
          (startPending P manager.identity peerStatic hsId e startedAt) }) := by
  have hid : (manager.expire now).identity = manager.identity := rfl
  rw [startHandshake, expirePending, Method.update_bind, Method.self_bind, writeMessage1_new]
  rcases Tags.handshakeTag P peerStatic (Tags.currentEpoch wallNow) with err | tag <;>
    simp [Method.bind_apply, setPending, startPending, hid, Except.map]

/-- The entry is there whether or not the tag can be computed. -/
lemma startHandshake_snd (manager : SessionManager β X E) (peerStatic hsId : Bytes β) (e : X)
    (now startedAt wallNow : ℚ) :
    (startHandshake P peerStatic hsId e now startedAt wallNow manager).2 =
      { manager.expire now with
        pending := (manager.expire now).pending.set hsId
          (startPending P manager.identity peerStatic hsId e startedAt) } :=
  congrArg Prod.snd (startHandshake_eq manager peerStatic hsId e now startedAt wallNow)

/-! ## Shared steps of RESP and FIN -/

section Steps

variable {manager manager' : SessionManager β X E} {hsId : Bytes β}
  {pending pending' : PendingHandshake β X}

omit [Alphabet β] in
/-- A step of the handshake that succeeds is filed. -/
lemma onHandshake_ok_iff {α : Type} {m : Method (Exc β) (HandshakeState β X) α} {a : α} :
    onHandshake hsId pending m manager = (.ok (a, pending'), manager') ↔
      ∃ hs, m pending.handshake = (.ok a, hs) ∧ pending' = { pending with handshake := hs } ∧
        manager' = { manager with pending := manager.pending.set hsId pending' } := by
  rcases hm : m pending.handshake with ⟨err | a', hs⟩
  · simp [onHandshake, hm, setPending, Method.bind_apply]
  · simp only [onHandshake, hm, setPending, Method.bind_apply, Method.update_apply,
      Method.eval_apply, Method.pure_apply, Prod.mk.injEq, Except.ok.injEq]
    constructor
    · rintro ⟨⟨rfl, rfl⟩, rfl⟩
      exact ⟨hs, ⟨rfl, rfl⟩, rfl, rfl⟩
    · rintro ⟨hs', ⟨rfl, rfl⟩, rfl, rfl⟩
      exact ⟨⟨rfl, rfl⟩, rfl⟩

omit [Alphabet β] in
/-- One that raises is filed, too. -/
lemma onHandshake_error {α : Type} {m : Method (Exc β) (HandshakeState β X) α} {err : Exc β}
    (h : onHandshake hsId pending m manager = (.error err, manager')) :
    ∃ hs, m pending.handshake = (.error err, hs) ∧
      manager' = { manager with
        pending := manager.pending.set hsId { pending with handshake := hs } } := by
  rcases hm : m pending.handshake with ⟨err' | a', hs⟩
  · simp only [onHandshake, hm, setPending, Method.bind_apply, Method.update_apply,
      Method.eval_apply, Prod.mk.injEq, Except.error.injEq] at h
    exact ⟨hs, by rw [h.1], h.2.symm⟩
  · simp [onHandshake, hm, setPending, Method.bind_apply] at h

omit [Alphabet β] in
/-- A message that is read moves the handshake on. -/
lemma readHandshake_ok_iff {α : Type} {read : Method (Exc β) (HandshakeState β X) α} {a : α}
    {rejected : String} :
    readHandshake hsId pending rejected read manager = (.ok (a, pending'), manager') ↔
      ∃ hs, read pending.handshake = (.ok a, hs) ∧ pending' = { pending with handshake := hs } ∧
        manager' = { manager with pending := manager.pending.set hsId pending' } := by
  rw [← onHandshake_ok_iff, readHandshake]
  rcases h : onHandshake hsId pending read manager with ⟨err | ⟨a', p⟩, m⟩
  · by_cases hc : err.isNoiseOrValueError = true <;>
      simp [hc, delPending]
  · simp

omit [Alphabet β] in
/-- A read that fails with what the handler catches deletes the entry. -/
lemma readHandshake_of_error {α : Type} {read : Method (Exc β) (HandshakeState β X) α}
    {err : Exc β} {hs : HandshakeState β X} {rejected : String}
    (hread : read pending.handshake = (.error err, hs)) (hcaught : err.isNoiseOrValueError = true) :
    readHandshake hsId pending rejected read manager =
      (.error (.sessionError s!"{rejected}: {err.msg}"),
        { manager with pending := manager.pending.erase hsId }) := by
  simp [readHandshake, onHandshake, hread, setPending, Method.bind_apply, hcaught, delPending,
    OrderedDict.erase_set_self]

/-- The peer is who signed the hash. -/
lemma verifyPeer_ok_iff {rs signedHash : Bytes β} {claim : IdentityPayload β} {invalid : String}
    {peer : PeerIdentity β} :
    verifyPeer P hsId rs signedHash claim invalid manager = (.ok peer, manager') ↔
      P.verify claim.signingPub claim.signature (SIG_DOMAIN ++ signedHash) = true ∧
        peer = { signingPublic := claim.signingPub, staticPublic := rs
                 nickname := claim.nickname } ∧ manager' = manager := by
  by_cases hv : P.verify claim.signingPub claim.signature (SIG_DOMAIN ++ signedHash) = true
  · simp [verifyPeer, PeerIdentity.verifyTranscript, hv, eq_comm]
  · simp [verifyPeer, PeerIdentity.verifyTranscript, hv, delPending]

/-- A bad signature ends the handshake. -/
lemma verifyPeer_error {rs signedHash : Bytes β} {claim : IdentityPayload β} {invalid : String}
    {err : Exc β}
    (h : verifyPeer P hsId rs signedHash claim invalid manager = (.error err, manager')) :
    manager' = { manager with pending := manager.pending.erase hsId } := by
  by_cases hv : P.verify claim.signingPub claim.signature (SIG_DOMAIN ++ signedHash) = true
  · simp [verifyPeer, PeerIdentity.verifyTranscript, hv] at h
  · simp only [verifyPeer, PeerIdentity.verifyTranscript, hv, Bool.false_eq_true, if_false,
      delPending, Method.update_bind, Method.raise_apply, Prod.mk.injEq] at h
    exact h.2.symm

/-- Pinning is `observe` of the trust store. -/
lemma pin_ok_iff {peer : PeerIdentity β} {now : ℚ} {ref : PeerRef} :
    pin P peer now manager = (.ok ref, manager') ↔
      ∃ trust', TrustStore.observe P peer.signingPublic peer.staticPublic peer.nickname now
          manager.trust = (.ok ref, trust') ∧ manager' = { manager with trust := trust' } :=
  Method.onField_ok

/-- The statements that `handle_response` and `handle_fin` share, between the read and `rest`. -/
def identifyPeer (P : Primitives β X E) {α : Type} (hsId rs signedHash payload : Bytes β)
    (expectRatchet : Bool) (invalid : String) (now : ℚ)
    (rest : PeerRef → IdentityPayload β → Method (Exc β) (SessionManager β X E) α) :
    Method (Exc β) (SessionManager β X E) α := do
  let claim ← Method.eval (decodeIdentityPayload payload expectRatchet)
  let peer ← verifyPeer P hsId rs signedHash claim invalid
  let peer ← pin P peer now
  rest peer claim

/-- What a peer has shown by the time the rest of the method runs. -/
lemma identifyPeer_ok_iff {α : Type} {rs signedHash payload : Bytes β} {expectRatchet : Bool}
    {invalid : String} {now : ℚ}
    {rest : PeerRef → IdentityPayload β → Method (Exc β) (SessionManager β X E) α} {a : α} :
    identifyPeer P hsId rs signedHash payload expectRatchet invalid now rest manager =
        (.ok a, manager') ↔
      ∃ (claim : IdentityPayload β) (ref : PeerRef) (trust' : TrustStore β),
        decodeIdentityPayload payload expectRatchet = .ok claim ∧
        P.verify claim.signingPub claim.signature (SIG_DOMAIN ++ signedHash) = true ∧
        TrustStore.observe P claim.signingPub rs claim.nickname now manager.trust =
          (.ok ref, trust') ∧
        rest ref claim { manager with trust := trust' } = (.ok a, manager') := by
  constructor
  · intro h
    obtain ⟨claim, m₁, hc, hclaimed⟩ := Method.bind_ok.mp h
    obtain ⟨hclaim, rfl⟩ := Method.eval_ok.mp hc
    obtain ⟨peer, m₂, hv, hpinned⟩ := Method.bind_ok.mp hclaimed
    obtain ⟨hverified, rfl, rfl⟩ := verifyPeer_ok_iff.mp hv
    obtain ⟨ref, m₃, hpin, hrest⟩ := Method.bind_ok.mp hpinned
    obtain ⟨trust', hobserve, rfl⟩ := pin_ok_iff.mp hpin
    exact ⟨claim, ref, trust', hclaim, hverified, hobserve, hrest⟩
  · rintro ⟨claim, ref, trust', hclaim, hverified, hobserve, h⟩
    refine Method.bind_ok.mpr ⟨_, _, Method.eval_ok.mpr ⟨hclaim, rfl⟩, ?_⟩
    refine Method.bind_ok.mpr ⟨_, _, verifyPeer_ok_iff.mpr ⟨hverified, rfl, rfl⟩, ?_⟩
    exact Method.bind_ok.mpr ⟨_, _, pin_ok_iff.mpr ⟨trust', hobserve, rfl⟩, h⟩

/-- The session that `_finalise` creates. -/
def newSession (pending : PendingHandshake β X) (ref : PeerRef)
    (keys : DoubleRatchet β X × Bytes β × Bytes β) (establishedAt : ℚ) : Session β X where
  peer := ref
  ratchet := keys.1
  sendTagKey := keys.2.1
  recvTagKey := keys.2.2
  initiator := pending.initiator
  establishedAt := establishedAt

/-- A session is filed under the key of its peer. -/
lemma finalise_ok_iff {ref : PeerRef} {ratchetPub : Option (Bytes β)} {establishedAt : ℚ}
    {fresh : X} {session : Session β X} {p : PeerIdentity β}
    (href : manager.trust.object ref = some p) :
    finalise P pending ref ratchetPub establishedAt fresh manager = (.ok session, manager') ↔
      ∃ keys, finaliseKeys P pending ratchetPub fresh = .ok keys ∧
        session = newSession pending ref keys establishedAt ∧
        manager' = { manager with sessions := manager.sessions.set p.signingPublic session } := by
  rcases hkeys : finaliseKeys P pending ratchetPub fresh with err | ⟨ratchet, send, recv⟩
  · simp [finalise, hkeys, Method.bind_apply]
  · simp only [finalise, hkeys, Method.bind_apply, Method.eval_apply, Method.self_apply, peerOf,
      href, Method.update_apply, Method.pure_apply, Prod.mk.injEq, Except.ok.injEq]
    constructor
    · rintro ⟨rfl, rfl⟩
      exact ⟨_, rfl, rfl, rfl⟩
    · rintro ⟨_, rfl, rfl, rfl⟩
      exact ⟨rfl, rfl⟩

/-- Where its keys cannot be made, nothing is filed. -/
lemma finalise_error {ref : PeerRef} {ratchetPub : Option (Bytes β)} {establishedAt : ℚ}
    {fresh : X} {err : Exc β}
    (h : finalise P pending ref ratchetPub establishedAt fresh manager = (.error err, manager')) :
    manager' = manager := by
  rcases hkeys : finaliseKeys P pending ratchetPub fresh with err' | ⟨ratchet, send, recv⟩
  · simp [finalise, hkeys, Method.bind_apply] at h
    exact h.2.symm
  · rcases href : manager.trust.object ref with _ | p <;>
      simp [finalise, hkeys, Method.bind_apply, peerOf, href] at h
    exact h.2.symm

end Steps

/-! ## Session keys -/

section Keys

variable {pending : PendingHandshake β X} {pair : CipherState β × CipherState β} {fresh : X}
  {ratchet : DoubleRatchet β X} {sendTagKey recvTagKey : Bytes β}

/-- The keys of the two ends of a handshake. -/
def sessionKeys (P : Primitives β X E) (hs : HandshakeState β X) : Bytes β × Bytes β × Bytes β :=
  deriveSessionKeys P hs.symmetric.ck hs.symmetric.h

/-- The initiator starts the ratchet as its sender. -/
lemma finaliseKeys_initiator (hi : pending.initiator = true)
    (hsplit : pending.handshake.splitPair = some pair) {ratchetPub : Option (Bytes β)} :
    finaliseKeys P pending ratchetPub fresh = .ok (ratchet, sendTagKey, recvTagKey) ↔
      ∃ pub, ratchetPub = some pub ∧
        DoubleRatchet.initSender P (sessionKeys P pending.handshake).1 pub fresh = .ok ratchet ∧
        sendTagKey = (sessionKeys P pending.handshake).2.1 ∧
        recvTagKey = (sessionKeys P pending.handshake).2.2 := by
  rcases ratchetPub with _ | pub
  · simp [finaliseKeys, chainingKey, hsplit, hi, bind, Except.bind, throw, throwThe,
      MonadExceptOf.throw]
  · rcases hr : DoubleRatchet.initSender P (sessionKeys P pending.handshake).1 pub fresh with
      err | ratchet'
    · simp only [sessionKeys] at hr
      simp [finaliseKeys, chainingKey, hsplit, hi, bind, Except.bind, hr, sessionKeys]
    · simp only [sessionKeys] at hr
      simp [finaliseKeys, chainingKey, hsplit, hi, bind, Except.bind, hr, sessionKeys, pure,
        Except.pure, eq_comm]
      exact fun _ => ⟨fun h => ⟨(congrArg Prod.fst h).symm, (congrArg Prod.snd h).symm⟩,
        fun h => Prod.ext h.1.symm h.2.symm⟩

/-- The responder starts it as its receiver. -/
lemma finaliseKeys_responder (hi : pending.initiator = false)
    (hsplit : pending.handshake.splitPair = some pair) {r : X}
    (hr : pending.ratchetPrivate = some r) {ratchetPub : Option (Bytes β)} :
    finaliseKeys P pending ratchetPub fresh = .ok (ratchet, sendTagKey, recvTagKey) ↔
      DoubleRatchet.initReceiver (sessionKeys P pending.handshake).1 r = .ok ratchet ∧
        sendTagKey = (sessionKeys P pending.handshake).2.2 ∧
        recvTagKey = (sessionKeys P pending.handshake).2.1 := by
  rcases hrec : DoubleRatchet.initReceiver (sessionKeys P pending.handshake).1 r with err | ratchet'
  · simp only [sessionKeys] at hrec
    simp [finaliseKeys, chainingKey, hsplit, hi, bind, Except.bind, hr, hrec, sessionKeys]
  · simp only [sessionKeys] at hrec
    simp [finaliseKeys, chainingKey, hsplit, hi, bind, Except.bind, hr, hrec, sessionKeys, pure,
      Except.pure, eq_comm]

end Keys

end SessionManager

/-! ## RESP -/

/-- What an initiator reads in a RESP. -/
structure ReceivedResponse (β : Type) where
  re : Bytes β
  encS : Bytes β
  encPayload : Bytes β
  rs : Bytes β
  payload : Bytes β
  claim : IdentityPayload β

namespace ReceivedResponse

/-- The RESP opens for the initiator with ephemeral key `e`, and the identity it claims has signed
the transcript. -/
structure Valid (P : Primitives β X E) (e : X) (body : Bytes β) (m : ReceivedResponse β) :
    Prop where
  body_eq : body = m.re ++ m.encS ++ m.encPayload
  length_re : m.re.length = DHLEN
  length_encS : m.encS.length = DHLEN + TAGLEN
  opens : Opens2 P PROLOGUE e m.re m.encS m.encPayload m.rs m.payload
  claim_eq : decodeIdentityPayload m.payload true = .ok m.claim
  verified : P.verify m.claim.signingPub m.claim.signature
    (SIG_DOMAIN ++ transcript P [PROLOGUE, P.x25519PublicBytes e, m.re, m.encS]) = true

/-- What `read_message_2` returns on it. -/
lemma Valid.read (hP : P.Correct) {e : X} {body : Bytes β} {m : ReceivedResponse β}
    (hm : m.Valid P e body) (s : X) :
    readMessage2 P body (sent1 P PROLOGUE s e) =
      (.ok (m.rs, transcript P [PROLOGUE, P.x25519PublicBytes e, m.re, m.encS], m.payload),
        received2 P PROLOGUE s e m.re m.rs m.encS m.encPayload) :=
  (readMessage2_ok_iff hP).mpr
    ⟨m.re, m.encS, m.encPayload, hm.body_eq, hm.length_re, hm.length_encS, hm.opens, rfl, rfl⟩

variable (P : Primitives β X E) (identity : Identity X E) (e : X) (m : ReceivedResponse β)

/-- The payload of message 3 that answers it. -/
def finPayload : Bytes β :=
  encodeIdentityPayload P identity none
    (builderHash3 P PROLOGUE identity.staticPrivate e m.re m.rs m.encS m.encPayload)

def fin : Bytes β :=
  encStatic3 P PROLOGUE identity.staticPrivate e m.re m.rs m.encS m.encPayload ++
    encPayload3 P PROLOGUE identity.staticPrivate e m.re m.rs m.encS m.encPayload
      (m.finPayload P identity e)

/-- The handshake object that this leaves. -/
def finState : HandshakeState β X :=
  sent3 P PROLOGUE identity.staticPrivate e m.re m.rs m.encS m.encPayload
    (encStatic3 P PROLOGUE identity.staticPrivate e m.re m.rs m.encS m.encPayload)
    (encPayload3 P PROLOGUE identity.staticPrivate e m.re m.rs m.encS m.encPayload
      (m.finPayload P identity e))

end ReceivedResponse

namespace SessionManager

section Response

variable (hP : P.Correct) {manager manager' : SessionManager β X E} {hsId body : Bytes β}
  {pending : PendingHandshake β X} {e fresh : X} {now establishedAt : ℚ}
include hP

/-- Everything about a RESP that the initiator accepts. -/
lemma acceptResponse_ok_iff {s : X} {ref : PeerRef} {claim : IdentityPayload β}
    {pending' : PendingHandshake β X} (hs : pending.handshake = sent1 P PROLOGUE s e) :
    acceptResponse P hsId body pending now manager = (.ok (ref, claim, pending'), manager') ↔
      ∃ (m : ReceivedResponse β) (trust' : TrustStore β), m.Valid P e body ∧
        TrustStore.observe P m.claim.signingPub m.rs m.claim.nickname now manager.trust =
          (.ok ref, trust') ∧
        claim = m.claim ∧
        pending' = { pending with
          handshake := received2 P PROLOGUE s e m.re m.rs m.encS m.encPayload } ∧
        manager' = { manager with
          trust := trust', pending := manager.pending.set hsId pending' } := by
  constructor
  · -- from the call to what it has checked, one statement at a time
    intro h
    obtain ⟨⟨⟨rs, signedHash, payload⟩, pending₁⟩, m₁, hr, h⟩ := Method.bind_ok.mp h
    obtain ⟨hs₁, hread, rfl, rfl⟩ := readHandshake_ok_iff.mp hr
    rw [hs] at hread
    obtain ⟨re, encS, encPayload, rfl, hre, hS, hopens, rfl, rfl⟩ :=
      (readMessage2_ok_iff hP).mp hread
    obtain ⟨claim₁, ref₁, trust', hclaim, hverified, hobserve, h⟩ := identifyPeer_ok_iff.mp h
    simp only [Method.pure_apply, Prod.mk.injEq, Except.ok.injEq] at h
    obtain ⟨⟨rfl, rfl, rfl⟩, rfl⟩ := h
    exact ⟨⟨re, encS, encPayload, rs, payload, claim₁⟩, trust',
      ⟨rfl, hre, hS, hopens, hclaim, hverified⟩, hobserve, rfl, rfl, rfl⟩
  · rintro ⟨m, trust', hm, hobserve, rfl, rfl, rfl⟩
    have hread := hm.read hP s
    rw [← hs] at hread
    refine Method.bind_ok.mpr ⟨_, _, readHandshake_ok_iff.mpr ⟨_, hread, rfl, rfl⟩, ?_⟩
    exact identifyPeer_ok_iff.mpr ⟨m.claim, ref, trust', hm.claim_eq, hm.verified, hobserve, rfl⟩

/-- Everything about a RESP that completes a handshake. -/
lemma completeInitiator_ok_iff {fin : Bytes β} {session : Session β X}
    (hs : pending.handshake = sent1 P PROLOGUE manager.identity.staticPrivate e) :
    completeInitiator P hsId body pending fresh now establishedAt manager =
        (.ok (fin, session), manager') ↔
      ∃ (m : ReceivedResponse β) (ref : PeerRef) (trust' : TrustStore β)
        (keys : DoubleRatchet β X × Bytes β × Bytes β),
        m.Valid P e body ∧
        TrustStore.observe P m.claim.signingPub m.rs m.claim.nickname now manager.trust =
          (.ok ref, trust') ∧
        P.exchange manager.identity.staticPrivate m.re ≠ zeros DHLEN ∧
        fin = hsId ++ m.fin P manager.identity e ∧
        finaliseKeys P { pending with handshake := m.finState P manager.identity e }
          m.claim.ratchetPub fresh = .ok keys ∧
        session = newSession pending ref keys establishedAt ∧
        manager' = manager.completed hsId m.claim.signingPub trust' session := by
  constructor
  · intro h
    -- the statements of the source, in their order
    obtain ⟨⟨ref, claim, pending₁⟩, m₁, ha, h⟩ := Method.bind_ok.mp h
    obtain ⟨m, trust', hm, hobserve, rfl, rfl, rfl⟩ := (acceptResponse_ok_iff hP hs).mp ha
    simp only [Method.self_bind] at h
    obtain ⟨⟨fin₁, pending₂⟩, m₂, hw, h⟩ := Method.bind_ok.mp h
    obtain ⟨hs₂, hwrite, rfl, rfl⟩ := onHandshake_ok_iff.mp hw
    obtain ⟨hz, rfl, rfl⟩ := (writeMessage3_ok_iff hP hm.length_re).mp hwrite
    obtain ⟨session₁, m₃, hf, h⟩ := Method.bind_ok.mp h
    obtain ⟨p, hobj, hkey, -⟩ := TrustStore.observe_ok hobserve
    obtain ⟨keys, hkeys, rfl, rfl⟩ := (finalise_ok_iff hobj).mp hf
    simp only [delPending, Method.update_bind, Method.pure_apply, Prod.mk.injEq,
      Except.ok.injEq, OrderedDict.erase_set_self] at h
    obtain ⟨⟨rfl, rfl⟩, rfl⟩ := h
    refine ⟨m, ref, trust', keys, hm, hobserve, hz, rfl, hkeys, rfl, ?_⟩
    rw [hkey]
    rfl
  · rintro ⟨m, ref, trust', keys, hm, hobserve, hz, rfl, hkeys, rfl, rfl⟩
    obtain ⟨p, hobj, hkey, -⟩ := TrustStore.observe_ok hobserve
    have hwrite : writeMessage3 P (encodeIdentityPayload P manager.identity none)
        (received2 P PROLOGUE manager.identity.staticPrivate e m.re m.rs m.encS m.encPayload) =
          (.ok (m.fin P manager.identity e), m.finState P manager.identity e) :=
      (writeMessage3_ok_iff hP hm.length_re).mpr ⟨hz, rfl, rfl⟩
    refine Method.bind_ok.mpr ⟨_, _, (acceptResponse_ok_iff hP hs).mpr
      ⟨m, trust', hm, hobserve, rfl, rfl, rfl⟩, ?_⟩
    simp only [Method.self_bind]
    refine Method.bind_ok.mpr ⟨_, _, onHandshake_ok_iff.mpr ⟨_, hwrite, rfl, rfl⟩, ?_⟩
    refine Method.bind_ok.mpr ⟨_, _, (finalise_ok_iff hobj).mpr ⟨keys, hkeys, rfl, rfl⟩, ?_⟩
    simp only [delPending, Method.update_bind, Method.pure_apply, OrderedDict.erase_set_self, hkey]
    rfl

end Response

end SessionManager

/-! ## FIN -/

/-- What a responder reads in a FIN. -/
structure ReceivedFin (β : Type) where
  encS : Bytes β
  encPayload : Bytes β
  rs : Bytes β
  payload : Bytes β
  claim : IdentityPayload β

namespace ReceivedFin

variable (P : Primitives β X E) (s e : X) (re encS encPayload body : Bytes β) (m : ReceivedFin β)

/-- The FIN opens for the responder with keys `s` and `e`, and the identity it claims has signed
the transcript. -/
structure Valid : Prop where
  body_eq : body = m.encS ++ m.encPayload
  length_encS : m.encS.length = DHLEN + TAGLEN
  opens : Opens3 P PROLOGUE s e re encS encPayload m.encS m.encPayload m.rs m.payload
  claim_eq : decodeIdentityPayload m.payload false = .ok m.claim
  verified : P.verify m.claim.signingPub m.claim.signature (SIG_DOMAIN ++
    transcript P [PROLOGUE, re, P.x25519PublicBytes e, encS, encPayload, m.encS]) = true

/-- The handshake object that this leaves. -/
def state : HandshakeState β X :=
  received3 P PROLOGUE s e re m.rs encS encPayload m.encS m.encPayload

variable {P s e re encS encPayload body m}

/-- What `read_message_3` returns on it. -/
lemma Valid.read (hP : P.Correct) (hm : m.Valid P s e re encS encPayload body) :
    readMessage3 P body (sent2 P PROLOGUE s e re encS encPayload) =
      (.ok (m.rs, transcript P [PROLOGUE, re, P.x25519PublicBytes e, encS, encPayload, m.encS],
        m.payload), m.state P s e re encS encPayload) :=
  (readMessage3_ok_iff hP).mpr
    ⟨m.encS, m.encPayload, hm.body_eq, hm.length_encS, hm.opens, rfl, rfl⟩

end ReceivedFin

namespace SessionManager

section Fin

variable (hP : P.Correct) {manager manager' : SessionManager β X E}
  {hsId body re encS encPayload : Bytes β} {pending : PendingHandshake β X} {s e fresh : X}
  {now establishedAt : ℚ}
include hP

/-- Everything about a FIN that completes a handshake. -/
lemma completeResponder_ok_iff {session : Session β X}
    (hs : pending.handshake = sent2 P PROLOGUE s e re encS encPayload) :
    completeResponder P hsId body pending fresh now establishedAt manager =
        (.ok session, manager') ↔
      ∃ (m : ReceivedFin β) (ref : PeerRef) (trust' : TrustStore β)
        (keys : DoubleRatchet β X × Bytes β × Bytes β),
        m.Valid P s e re encS encPayload body ∧
        TrustStore.observe P m.claim.signingPub m.rs m.claim.nickname now manager.trust =
          (.ok ref, trust') ∧
        finaliseKeys P { pending with handshake := m.state P s e re encS encPayload }
          none fresh = .ok keys ∧
        session = newSession pending ref keys establishedAt ∧
        manager' = manager.completed hsId m.claim.signingPub trust' session := by
  constructor
  · intro h
    obtain ⟨⟨⟨rs, signedHash, payload⟩, pending₁⟩, m₁, hr, h⟩ := Method.bind_ok.mp h
    obtain ⟨hs₁, hread, rfl, rfl⟩ := readHandshake_ok_iff.mp hr
    rw [hs] at hread
    obtain ⟨encS3, encPayload3, rfl, hS, hopens, rfl, rfl⟩ := (readMessage3_ok_iff hP).mp hread
    obtain ⟨claim, ref, trust', hclaim, hverified, hobserve, h⟩ := identifyPeer_ok_iff.mp h
    obtain ⟨session₁, m₂, hf, h⟩ := Method.bind_ok.mp h
    obtain ⟨p, hobj, hkey, -⟩ := TrustStore.observe_ok hobserve
    obtain ⟨keys, hkeys, rfl, rfl⟩ := (finalise_ok_iff hobj).mp hf
    simp only [delPending, Method.update_bind, Method.pure_apply, Prod.mk.injEq,
      Except.ok.injEq, OrderedDict.erase_set_self] at h
    obtain ⟨rfl, rfl⟩ := h
    -- the session is kept under the key of the record that the pin returned
    refine ⟨⟨encS3, encPayload3, rs, payload, claim⟩, ref, trust', keys,
      ⟨rfl, hS, hopens, hclaim, hverified⟩, hobserve, hkeys, rfl, ?_⟩
    rw [hkey]
    rfl
  · rintro ⟨m, ref, trust', keys, hm, hobserve, hkeys, rfl, rfl⟩
    obtain ⟨p, hobj, hkey, -⟩ := TrustStore.observe_ok hobserve
    have hread := hm.read hP
    rw [← hs] at hread
    refine Method.bind_ok.mpr ⟨_, _, readHandshake_ok_iff.mpr ⟨_, hread, rfl, rfl⟩, ?_⟩
    refine identifyPeer_ok_iff.mpr
      ⟨m.claim, ref, trust', hm.claim_eq, hm.verified, hobserve, ?_⟩
    refine Method.bind_ok.mpr ⟨_, _, (finalise_ok_iff hobj).mpr ⟨keys, hkeys, rfl, rfl⟩, ?_⟩
    simp only [delPending, Method.update_bind, Method.pure_apply, OrderedDict.erase_set_self, hkey]
    rfl

end Fin

/-! ## Entries that are past their message -/

section Past

variable {manager manager' : SessionManager β X E} {hsId body : Bytes β}
  {pending : PendingHandshake β X} {fresh : X} {now establishedAt : ℚ}

/-- Reading raises, and the entry goes. -/
lemma acceptResponse_past (hi : pending.initiator = true) (hpast : pending.Past) :
    ∃ err, acceptResponse P hsId body pending now manager =
      (.error err, { manager with pending := manager.pending.erase hsId }) := by
  have h1 : pending.handshake.msgIndex ≠ 1 := by simpa [PendingHandshake.Past, hi] using hpast
  exact ⟨_, Method.bind_of_error (readHandshake_of_error (readMessage2_of_index h1 body) rfl)⟩

/-- A RESP for a handshake that is past its message ends it. -/
lemma completeInitiator_past {result : Except (Exc β) (Bytes β × Session β X)}
    (hi : pending.initiator = true) (hpast : pending.Past)
    (h : completeInitiator P hsId body pending fresh now establishedAt manager =
      (result, manager')) :
    (∃ err, result = .error err) ∧
      manager' = { manager with pending := manager.pending.erase hsId } := by
  obtain ⟨err, ha⟩ := acceptResponse_past hi hpast
  rw [completeInitiator, Method.bind_of_error ha] at h
  obtain ⟨rfl, rfl⟩ := Prod.mk.inj h
  exact ⟨⟨_, rfl⟩, rfl⟩

/-- So does a FIN. -/
lemma completeResponder_past {result : Except (Exc β) (Session β X)}
    (hi : pending.initiator = false) (hpast : pending.Past)
    (h : completeResponder P hsId body pending fresh now establishedAt manager =
      (result, manager')) :
    (∃ err, result = .error err) ∧
      manager' = { manager with pending := manager.pending.erase hsId } := by
  have h2 : pending.handshake.msgIndex ≠ 2 := by simpa [PendingHandshake.Past, hi] using hpast
  rw [completeResponder,
    Method.bind_of_error (readHandshake_of_error (readMessage3_of_index h2 body) rfl)] at h
  obtain ⟨rfl, rfl⟩ := Prod.mk.inj h
  exact ⟨⟨_, rfl⟩, rfl⟩

end Past

/-! ## The handlers -/

section Handlers

variable {manager manager' : SessionManager β X E} {payload : Bytes β}
  {pending : PendingHandshake β X} {fresh : X} {now establishedAt : ℚ}

/-- A RESP for which no initiator waits is ignored. -/
lemma handleResponse_of_not
    (h : ∀ p, manager.pending.get? (payload.take HS_ID_LEN) = some p → p.initiator = false) :
    handleResponse P payload fresh now establishedAt manager = (.ok none, manager) := by
  rw [handleResponse, Method.self_bind]
  rcases hget : manager.pending.get? (payload.take HS_ID_LEN) with _ | p
  · rfl
  · simp [h p hget]

/-- A RESP for a handshake that we have begun completes it. -/
lemma handleResponse_of_pending
    (h : manager.pending.get? (payload.take HS_ID_LEN) = some pending)
    (hi : pending.initiator = true) :
    handleResponse P payload fresh now establishedAt manager =
      (some <$> completeInitiator P (payload.take HS_ID_LEN) (payload.drop HS_ID_LEN) pending fresh
        now establishedAt) manager := by
  rw [handleResponse, Method.self_bind, h]
  simp [hi]

/-- A RESP that gives a session is handled by an initiator's entry. -/
lemma handleResponse_some {result : Bytes β × Session β X}
    (h : handleResponse P payload fresh now establishedAt manager = (.ok (some result), manager')) :
    ∃ pending, manager.pending.get? (payload.take HS_ID_LEN) = some pending ∧
      pending.initiator = true ∧
      completeInitiator P (payload.take HS_ID_LEN) (payload.drop HS_ID_LEN) pending fresh now
        establishedAt manager = (.ok result, manager') := by
  rcases hget : manager.pending.get? (payload.take HS_ID_LEN) with _ | pending
  · rw [handleResponse_of_not (by simp [hget])] at h
    cases h
  rcases hi : pending.initiator
  · rw [handleResponse_of_not (by simp [hget, hi])] at h
    cases h
  · rw [handleResponse_of_pending hget hi, Method.map_ok] at h
    obtain ⟨result', h, heq⟩ := h
    obtain rfl := Option.some.inj heq
    exact ⟨pending, rfl, hi, h⟩

/-- A FIN for which no responder waits is ignored. -/
lemma handleFin_of_not
    (h : ∀ p, manager.pending.get? (payload.take HS_ID_LEN) = some p → p.initiator = true) :
    handleFin P payload fresh now establishedAt manager = (.ok none, manager) := by
  rw [handleFin, Method.self_bind]
  rcases hget : manager.pending.get? (payload.take HS_ID_LEN) with _ | p
  · rfl
  · simp [h p hget]

/-- A FIN for a handshake that we have answered completes it. -/
lemma handleFin_of_pending
    (h : manager.pending.get? (payload.take HS_ID_LEN) = some pending)
    (hi : pending.initiator = false) :
    handleFin P payload fresh now establishedAt manager =
      (some <$> completeResponder P (payload.take HS_ID_LEN) (payload.drop HS_ID_LEN) pending fresh
        now establishedAt) manager := by
  rw [handleFin, Method.self_bind, h]
  simp [hi]

/-- A FIN that gives a session is handled by a responder's entry. -/
lemma handleFin_some {session : Session β X}
    (h : handleFin P payload fresh now establishedAt manager = (.ok (some session), manager')) :
    ∃ pending, manager.pending.get? (payload.take HS_ID_LEN) = some pending ∧
      pending.initiator = false ∧
      completeResponder P (payload.take HS_ID_LEN) (payload.drop HS_ID_LEN) pending fresh now
        establishedAt manager = (.ok session, manager') := by
  rcases hget : manager.pending.get? (payload.take HS_ID_LEN) with _ | pending
  · rw [handleFin_of_not (by simp [hget])] at h
    cases h
  rcases hi : pending.initiator
  · rw [handleFin_of_pending hget hi, Method.map_ok] at h
    obtain ⟨session', h, heq⟩ := h
    obtain rfl := Option.some.inj heq
    exact ⟨pending, rfl, hi, h⟩
  · rw [handleFin_of_not (by simp [hget, hi])] at h
    cases h

end Handlers

end SessionManager

end Chatbit
