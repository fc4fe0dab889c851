import Chatbit.Crypto.Identity
import Chatbit.Crypto.Noise
import Chatbit.Crypto.Ratchet
import Chatbit.Wire.Tags

/-!
# Sessions

`chatbit/session.py`. The methods of `SessionManager` change the manager, the pending handshake
objects it holds and the trust store, and what they changed before an exception stays changed.
Random values (handshake ids, keys that `generate_x25519` returns) and clock readings are
arguments.
-/

namespace Chatbit

open Lib

variable {β X E : Type} [Alphabet β] [DecidableEq β]

def PROLOGUE : Bytes β := ascii "chatbit/v1"
def sessionInfo : Bytes β := ascii "chatbit/v1 session"

def HS_ID_LEN : ℕ := 4
def SIG_LEN : ℕ := 64
def PUBKEY_LEN : ℕ := 32
def HANDSHAKE_TIMEOUT : ℚ := 120
def MAX_PENDING_HANDSHAKES : ℕ := 32

/-! ## Identity payloads -/

/-- `signing_pub || sig(transcript) [|| ratchet_pub] || len(nick) || nick` -/
def encodeIdentityPayload (P : Primitives β X E) (identity : Identity X E)
    (ratchetPub : Option (Bytes β)) (handshakeHash : Bytes β) : Bytes β :=
  let nickname := (encodeUtf8 identity.nickname).take 64
  let body := identity.signingPublic P ++ identity.signTranscript P handshakeHash
  let body := body ++ ratchetPub.getD []
  body ++ [ofOctet (UInt8.ofNat nickname.length)] ++ nickname

/-- What `_decode_identity_payload` returns. -/
structure IdentityPayload (β : Type) where
  signingPub : Bytes β
  signature : Bytes β
  ratchetPub : Option (Bytes β)
  nickname : String
deriving DecidableEq

def decodeIdentityPayload (payload : Bytes β) (expectRatchet : Bool) :
    Except (Exc β) (IdentityPayload β) :=
  let ratchetLen := if expectRatchet then PUBKEY_LEN else 0
  if payload.length < PUBKEY_LEN + SIG_LEN + ratchetLen + 1 then
    .error (.sessionError "handshake identity payload is truncated")
  else
    let offset := PUBKEY_LEN + SIG_LEN
    let nickLen := ((payload.drop (offset + ratchetLen)).head?.map toOctet).getD 0
    .ok {
      signingPub := payload.take PUBKEY_LEN
      signature := (payload.drop PUBKEY_LEN).take SIG_LEN
      ratchetPub := if expectRatchet then some ((payload.drop offset).take PUBKEY_LEN) else none
      nickname := decodeReplace ((payload.drop (offset + ratchetLen + 1)).take nickLen.toNat) }

/-- Root key, initiator-to-responder and responder-to-initiator tag keys. -/
def deriveSessionKeys (P : Primitives β X E) (chainingKey handshakeHash : Bytes β) :
    Bytes β × Bytes β × Bytes β :=
  let okm := P.hkdf chainingKey handshakeHash sessionInfo 96
  (okm.take 32, (okm.drop 32).take 32, (okm.drop 64).take 32)

/-! ## Established sessions -/

structure Session (β X : Type) where
  peer : PeerRef
  ratchet : DoubleRatchet β X
  sendTagKey : Bytes β
  recvTagKey : Bytes β
  initiator : Bool
  establishedAt : ℚ
  messagesSent : ℕ := 0
  messagesReceived : ℕ := 0

namespace Session

variable (P : Primitives β X E)

def currentSendTag (session : Session β X) (now : ℚ) : Except (Exc β) (Bytes β) :=
  Tags.computeTag P session.sendTagKey (Tags.currentEpoch now)

/-- A call on the `ratchet` field. -/
def onRatchet {α : Type} (m : Method (Exc β) (DoubleRatchet β X) α) :
    Method (Exc β) (Session β X) α :=
  Method.onField ratchet (fun r session => { session with ratchet := r }) m

/-- Ratchet-encrypt one message into `header || ciphertext`. -/
def encrypt (plaintext : Bytes β) : Method (Exc β) (Session β X) (Bytes β) := do
  let (header, ciphertext) ← onRatchet (DoubleRatchet.encrypt P plaintext [])
  Method.update fun session => { session with messagesSent := session.messagesSent + 1 }
  let encoded ← Method.eval header.encode
  return encoded ++ ciphertext

/-- `except RatchetError` -/
def decryptError : Exc β → Exc β
  | .ratchetError m => .sessionError s!"decryption failed: {m}"
  | .skippedKeyLimit m => .sessionError s!"decryption failed: {m}"
  | e => e

/-- `keygen` returns `fresh`, if it is asked. -/
def decrypt (blob : Bytes β) (fresh : X) : Method (Exc β) (Session β X) (Bytes β) := do
  let session ← Method.self
  if blob.length < RATCHET_HEADER_LEN then
    Method.raise (.sessionError "data frame is too short to contain a ratchet header")
  else
    let header ← Method.eval (MessageHeader.decode (blob.take RATCHET_HEADER_LEN))
    match DoubleRatchet.decrypt P header (blob.drop RATCHET_HEADER_LEN) [] fresh session.ratchet with
    | (.error e, ratchet) =>
      Method.update fun session => { session with ratchet := ratchet }
      Method.raise (decryptError e)
    | (.ok plaintext, ratchet) =>
      Method.update fun session => { session with
        ratchet := ratchet, messagesReceived := session.messagesReceived + 1 }
      return plaintext

end Session

/-! ## Handshakes -/

structure PendingHandshake (β X : Type) where
  handshake : HandshakeState β X
  hsId : Bytes β
  startedAt : ℚ
  initiator : Bool
  ratchetPrivate : Option X := none
  peerStatic : Option (Bytes β) := none

structure SessionManager (β X E : Type) where
  identity : Identity X E
  trust : TrustStore β
  sessions : OrderedDict (Bytes β) (Session β X) := .empty
  pending : OrderedDict (Bytes β) (PendingHandshake β X) := .empty

namespace SessionManager

variable (P : Primitives β X E)

def sessionFor (manager : SessionManager β X E) (signingPublic : Bytes β) :
    Option (Session β X) := manager.sessions.get? signingPublic

/-- `drop` -/
def dropSession (signingPublic : Bytes β) : Method (Exc β) (SessionManager β X E) Unit :=
  Method.update fun manager => { manager with sessions := manager.sessions.erase signingPublic }

/-- `session.peer` -/
def peerOf (manager : SessionManager β X E) (session : Session β X) : Option (PeerIdentity β) :=
  manager.trust.object session.peer

/-- `self._pending[hs_id] = pending` -/
def setPending (hsId : Bytes β) (pending : PendingHandshake β X) :
    Method (Exc β) (SessionManager β X E) Unit :=
  Method.update fun manager => { manager with pending := manager.pending.set hsId pending }

/-- `del self._pending[hs_id]` -/
def delPending (hsId : Bytes β) : Method (Exc β) (SessionManager β X E) Unit :=
  Method.update fun manager => { manager with pending := manager.pending.erase hsId }

/-- What `_expire_pending` leaves. -/
def expire (now : ℚ) (manager : SessionManager β X E) : SessionManager β X E :=
  { manager with
    pending := manager.pending.filter fun _ p => !decide (now - p.startedAt > HANDSHAKE_TIMEOUT) }

def expirePending (now : ℚ) : Method (Exc β) (SessionManager β X E) Unit :=
  Method.update (expire now)

/-- A call on the handshake object of a pending entry. The entry's object changes in place; with
the result comes the changed entry. -/
def onHandshake {α : Type} (hsId : Bytes β) (pending : PendingHandshake β X)
    (m : Method (Exc β) (HandshakeState β X) α) :
    Method (Exc β) (SessionManager β X E) (α × PendingHandshake β X) := do
  let (result, handshake) := m pending.handshake
  let pending := { pending with handshake := handshake }
  setPending hsId pending
  let value ← Method.eval result
  return (value, pending)

/-- The `try` block around `read_message_2` and `read_message_3`. -/
def readHandshake {α : Type} (hsId : Bytes β) (pending : PendingHandshake β X) (rejected : String)
    (read : Method (Exc β) (HandshakeState β X) α) :
    Method (Exc β) (SessionManager β X E) (α × PendingHandshake β X) := fun manager =>
  match onHandshake hsId pending read manager with
  | (.error e, manager) =>
    if e.isNoiseOrValueError then
      (delPending hsId >>= fun _ => Method.raise (.sessionError s!"{rejected}: {e.msg}")) manager
    else (.error e, manager)
  | (.ok result, manager) => (.ok result, manager)

/-- `_pin` -/
def pin (peer : PeerIdentity β) (now : ℚ) : Method (Exc β) (SessionManager β X E) PeerRef :=
  Method.onField trust (fun trust manager => { manager with trust := trust })
    (TrustStore.observe P peer.signingPublic peer.staticPublic peer.nickname now)

/-- The ratchet and the tag keys (send, receive) of `_finalise`. -/
def finaliseKeys (pending : PendingHandshake β X) (ratchetPub : Option (Bytes β)) (fresh : X) :
    Except (Exc β) (DoubleRatchet β X × Bytes β × Bytes β) := do
  let chainingKey ← pending.handshake.chainingKey
  let (rootKey, i2r, r2i) := deriveSessionKeys P chainingKey pending.handshake.symmetric.h
  if pending.initiator then
    match ratchetPub with
    | none => throw .assertionError
    | some ratchetPub =>
      let ratchet ← DoubleRatchet.initSender P rootKey ratchetPub fresh
      return (ratchet, i2r, r2i)
  else
    match pending.ratchetPrivate with
    | none => throw .assertionError
    | some ratchetPrivate =>
      let ratchet ← DoubleRatchet.initReceiver rootKey ratchetPrivate
      return (ratchet, r2i, i2r)

def finalise (pending : PendingHandshake β X) (peer : PeerRef) (ratchetPub : Option (Bytes β))
    (establishedAt : ℚ) (fresh : X) : Method (Exc β) (SessionManager β X E) (Session β X) := do
  let (ratchet, sendTagKey, recvTagKey) ← Method.eval (finaliseKeys P pending ratchetPub fresh)
  let session : Session β X := {
    peer := peer, ratchet := ratchet, sendTagKey := sendTagKey, recvTagKey := recvTagKey
    initiator := pending.initiator, establishedAt := establishedAt }
  let manager ← Method.self
  match manager.peerOf session with
  | none => Method.raise .assertionError -- `peer` comes from the store
  | some peer =>
    Method.update fun manager => { manager with
      sessions := manager.sessions.set peer.signingPublic session }
    return session

/-- Check the identity claim of the peer against the hash it signed. -/
def verifyPeer (hsId : Bytes β) (rs signedHash : Bytes β) (claim : IdentityPayload β)
    (invalid : String) : Method (Exc β) (SessionManager β X E) (PeerIdentity β) :=
  let peer : PeerIdentity β :=
    { signingPublic := claim.signingPub, staticPublic := rs, nickname := claim.nickname }
  if peer.verifyTranscript P signedHash claim.signature then pure peer
  else do
    delPending hsId
    Method.raise (.sessionError invalid)

/-! ### Initiator -/

/-- `hsId` is what `random_bytes(HS_ID_LEN)` returns, `now` and `startedAt` are readings of the
monotonic clock and `wallNow` is the time that the tag is computed at. -/
def startHandshake (peerStaticPublic hsId : Bytes β) (ephemeral : X) (now startedAt wallNow : ℚ) :
    Method (Exc β) (SessionManager β X E) (Bytes β × Bytes β) := do
  expirePending now
  let manager ← Method.self
  let (message, handshake) := HandshakeState.writeMessage1 P ephemeral
    (HandshakeState.new P true manager.identity.staticPrivate PROLOGUE)
  let message ← Method.eval message
  setPending hsId {
    handshake := handshake, hsId := hsId, startedAt := startedAt, initiator := true
    peerStatic := some peerStaticPublic }
  let tag ← Method.eval (Tags.handshakeTag P peerStaticPublic (Tags.currentEpoch wallNow))
  return (hsId ++ message, tag)

/-- What `handle_response` does with the entry that the payload belongs to, up to the call of
`write_message_3`. It returns the pinned peer, what it claims and the changed entry. -/
def acceptResponse (hsId body : Bytes β) (pending : PendingHandshake β X) (now : ℚ) :
    Method (Exc β) (SessionManager β X E) (PeerRef × IdentityPayload β × PendingHandshake β X) := do
  let ((rs, signedHash, payload), pending) ← readHandshake hsId pending
    "handshake response rejected" (HandshakeState.readMessage2 P body)
  let claim ← Method.eval (decodeIdentityPayload payload true)
  let peer ← verifyPeer P hsId rs signedHash claim
    ("responder's identity signature is invalid -- aborting. " ++
      "Someone is either broken or lying about who they are.")
  let peer ← pin P peer now
  return (peer, claim, pending)

/-- All that it does with the entry. -/
def completeInitiator (hsId body : Bytes β) (pending : PendingHandshake β X) (fresh : X)
    (now establishedAt : ℚ) : Method (Exc β) (SessionManager β X E) (Bytes β × Session β X) := do
  let (peer, claim, pending) ← acceptResponse P hsId body pending now
  let manager ← Method.self
  let (fin, pending) ← onHandshake hsId pending (HandshakeState.writeMessage3 P
    (encodeIdentityPayload P manager.identity none))
  let session ← finalise P pending peer claim.ratchetPub establishedAt fresh
  delPending hsId
  return (hsId ++ fin, session)

/-- `init_sender` asks `keygen` for `fresh`; `now` and `establishedAt` are the wall clock at the
pinning and at the creation of the session. -/
def handleResponse (payload : Bytes β) (fresh : X) (now establishedAt : ℚ) :
    Method (Exc β) (SessionManager β X E) (Option (Bytes β × Session β X)) := do
  let hsId := payload.take HS_ID_LEN
  let body := payload.drop HS_ID_LEN
  let manager ← Method.self
  match manager.pending.get? hsId with
  | none => return none
  | some pending =>
    if pending.initiator = false then return none
    else some <$> completeInitiator P hsId body pending fresh now establishedAt

/-! ### Responder -/

/-- The handshake object that `handle_init` makes, and its message 2; `none` where the source
returns on `NoiseError` or `ValueError`. -/
def respond (identity : Identity X E) (body : Bytes β) (ephemeral ratchetPrivate : X) :
    Except (Exc β) (Option (Bytes β × HandshakeState β X)) :=
  let builder := encodeIdentityPayload P identity (some (P.x25519PublicBytes ratchetPrivate))
  match HandshakeState.readMessage1 P body
      (HandshakeState.new P false identity.staticPrivate PROLOGUE) with
  | (.error e, _) => if e.isNoiseOrValueError then .ok none else .error e
  | (.ok (), handshake) =>
    match HandshakeState.writeMessage2 P builder ephemeral handshake with
    | (.error e, _) => if e.isNoiseOrValueError then .ok none else .error e
    | (.ok message, handshake) => .ok (some (message, handshake))

def handleInit (payload : Bytes β) (ephemeral ratchetPrivate : X) (now startedAt : ℚ) :
    Method (Exc β) (SessionManager β X E) (Option (Bytes β)) := do
  expirePending now
  let manager ← Method.self
  let hsId := payload.take HS_ID_LEN
  let body := payload.drop HS_ID_LEN
  if manager.pending.length ≥ MAX_PENDING_HANDSHAKES then return none
  else if hsId ∈ manager.pending.keys then return none
  else
    match ← Method.eval (respond P manager.identity body ephemeral ratchetPrivate) with
    | none => return none
    | some (message, handshake) =>
      setPending hsId {
        handshake := handshake, hsId := hsId, startedAt := startedAt, initiator := false
        ratchetPrivate := some ratchetPrivate }
      return some (hsId ++ message)

/-- What `handle_fin` does with the entry that the payload belongs to. -/
def completeResponder (hsId body : Bytes β) (pending : PendingHandshake β X) (fresh : X)
    (now establishedAt : ℚ) : Method (Exc β) (SessionManager β X E) (Session β X) := do
  let ((rs, signedHash, payload), pending) ← readHandshake hsId pending
    "handshake completion rejected" (HandshakeState.readMessage3 P body)
  let claim ← Method.eval (decodeIdentityPayload payload false)
  let peer ← verifyPeer P hsId rs signedHash claim
    "initiator's identity signature is invalid -- aborting"
  let peer ← pin P peer now
  let session ← finalise P pending peer none establishedAt fresh
  delPending hsId
  return session

/-- The key `fresh` is for `init_sender`, which a responder does not call. -/
def handleFin (payload : Bytes β) (fresh : X) (now establishedAt : ℚ) :
    Method (Exc β) (SessionManager β X E) (Option (Session β X)) := do
  let hsId := payload.take HS_ID_LEN
  let body := payload.drop HS_ID_LEN
  let manager ← Method.self
  match manager.pending.get? hsId with
  | none => return none
  | some pending =>
    if pending.initiator = true then return none
    else some <$> completeResponder P hsId body pending fresh now establishedAt

end SessionManager

end Chatbit
