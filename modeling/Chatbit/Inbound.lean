import Chatbit.Node

/-!
# The inbound path

What `chatbit/node.py` does with a frame from the transport: the router decides, and what is for us
is reassembled and handled by its type. Of the exceptions that a handler raises, `_deliver` catches
two classes; the others go through the router up to the receive loop, which suppresses them.
-/

namespace Chatbit

open Lib

variable {β X E τ : Type} [Alphabet β] [DecidableEq β]

def MessageKind.ofInt (value : UInt8) : Option MessageKind :=
  [MessageKind.text, .ack, .nick].find? fun kind => kind.toInt = value

/-- `_decode_message` -/
def decodeMessage (blob : Bytes β) : Except (Exc β) (MessageKind × Bytes β × Bytes β) :=
  if blob.length < 9 then .error (.valueError "message envelope too short")
  else
    let value := (blob.head?.map toOctet).getD 0
    match MessageKind.ofInt value with
    | none => .error (.valueError s!"{value} is not a valid MessageKind")
    | some kind => .ok (kind, (blob.drop 1).take 8, blob.drop 9)

def Session.ownsTag (P : Primitives β X E) (tag : Bytes β) (now : ℚ) (session : Session β X) :
    Except (Exc β) Bool := Tags.tagMatches P tag session.recvTagKey now false

/-- The first session of these that owns the tag, with its key in the dictionary. -/
def sessionByTagIn (P : Primitives β X E) (tag : Bytes β) (now : ℚ) :
    List (Bytes β × Session β X) → Except (Exc β) (Option (Bytes β × Session β X))
  | [] => .ok none
  | entry :: rest => do
    if ← entry.2.ownsTag P tag now then return some entry else sessionByTagIn P tag now rest

/-- The session that is found is one of those that are looked through. -/
lemma mem_of_sessionByTagIn {P : Primitives β X E} {tag : Bytes β} {now : ℚ}
    {l : List (Bytes β × Session β X)} {found : Bytes β × Session β X}
    (h : sessionByTagIn P tag now l = .ok (some found)) : found ∈ l := by
  induction l with
  | nil => cases h
  | cons entry rest ih =>
    rw [sessionByTagIn] at h
    rcases howns : entry.2.ownsTag P tag now with err | owns
    · simp [howns, bind, Except.bind] at h
    · cases owns with
      | true =>
        simp [howns, bind, Except.bind, pure, Except.pure] at h
        exact h ▸ List.mem_cons_self
      | false =>
        simp only [howns, bind, Except.bind] at h
        exact List.mem_cons_of_mem _ (ih h)

def SessionManager.sessionByTag (P : Primitives β X E) (manager : SessionManager β X E)
    (tag : Bytes β) (now : ℚ) : Except (Exc β) (Option (Bytes β × Session β X)) :=
  sessionByTagIn P tag now manager.sessions.entries

/-- What handling a frame reads of the clocks and draws. -/
structure ReceiveEnv (β X : Type) where
  /-- The monotonic clock at the dedup cache, and the relay delay. -/
  now : ℚ
  delay : ℚ
  /-- The wall clock in `_is_for_us` and in `_on_data`, and the monotonic one at the reassembler. -/
  tagNow : ℚ
  dataNow : ℚ
  reassemblyNow : ℚ
  ephemeral : X
  ratchetPrivate : X
  fresh : X
  pendingNow : ℚ
  startedAt : ℚ
  pinNow : ℚ
  establishedAt : ℚ
  /-- For what is sent in answer. -/
  send : SendEnv β

namespace Node

variable {T : Transport β τ} (P : Primitives β X E)

/-- `_event` -/
def event (e : Event β) : Method (Exc β) (Node T X E) Unit := do
  let node ← Method.self
  Method.eval (node.onEvent e)

/-- `self.stats` changes. -/
def count (f : NodeStats → NodeStats) : Method (Exc β) (Node T X E) Unit :=
  Method.update fun node => { node with stats := f node.stats }

/-- A call on the session manager. -/
def onSessions {α : Type} (m : Method (Exc β) (SessionManager β X E) α) :
    Method (Exc β) (Node T X E) α :=
  Method.onField sessions (fun sessions node => { node with sessions := sessions }) m

def isForUs (now : ℚ) (packet : Packet β) (node : Node T X E) : Except (Exc β) Bool := do
  if packet.isBroadcast then return true
  let opening ←
    if packet.ptype = .handshakeInit then
      Tags.tagMatches P packet.dstTag (node.sessions.identity.staticPublic P) now true
    else pure false
  if opening then return true
  let session ← node.sessions.sessionByTag P packet.dstTag now
  return session.isSome

/-! ## Handshakes -/

def announceSession (session : Session β X) : Method (Exc β) (Node T X E) Unit := do
  let node ← Method.self
  match node.sessions.peerOf session with
  | none => Method.raise .assertionError -- `peer` comes from the store
  | some peer =>
    event (.established peer)
    if peer.verified = false then event (.compareSafetyNumber peer)

/-- The answer is broadcast: the responder does not know the initiator's static key yet. -/
def onHandshakeInit (payload : Bytes β) (env : ReceiveEnv β X) :
    Method (Exc β) (Node T X E) Unit := do
  match ← onSessions (SessionManager.handleInit P payload env.ephemeral env.ratchetPrivate
      env.pendingNow env.startedAt) with
  | none => return
  | some response => emit .handshakeResp response broadcastTag env.send

def onHandshakeResp (payload : Bytes β) (env : ReceiveEnv β X) :
    Method (Exc β) (Node T X E) Unit := do
  match ← onSessions (SessionManager.handleResponse P payload env.fresh env.pinNow
      env.establishedAt) with
  | none => return
  | some (fin, session) =>
    emit .handshakeFin fin broadcastTag env.send
    count fun stats => { stats with handshakesCompleted := stats.handshakesCompleted + 1 }
    announceSession session

def onHandshakeFin (payload : Bytes β) (env : ReceiveEnv β X) :
    Method (Exc β) (Node T X E) Unit := do
  match ← onSessions (SessionManager.handleFin P payload env.fresh env.pinNow
      env.establishedAt) with
  | none => return
  | some session =>
    count fun stats => { stats with handshakesCompleted := stats.handshakesCompleted + 1 }
    announceSession session

/-! ## Beacons -/

/-- The identity that a beacon claims. -/
def beaconCandidate (payload : Bytes β) : PeerIdentity β where
  signingPublic := payload.take 32
  staticPublic := (payload.drop 32).take 32
  nickname :=
    let nickLen := ((payload.drop 136).head?.map toOctet).getD 0
    decodeReplace ((payload.drop 137).take nickLen.toNat)

def onBeacon (payload : Bytes β) : Method (Exc β) (Node T X E) Unit := do
  let node ← Method.self
  let candidate := beaconCandidate payload
  if payload.length < 32 + 32 + 8 + 64 + 1 then return
  else if candidate.signingPublic = node.sessions.identity.signingPublic P then return
  else if candidate.verifyTranscript P (payload.take 72) ((payload.drop 72).take 64) = false then
    return
  else
    count fun stats => { stats with beaconsReceived := stats.beaconsReceived + 1 }
    match node.sessions.trust.get candidate.signingPublic with
    | some known =>
      if known.staticPublic ≠ candidate.staticPublic then event (.otherStaticKey known)
      else discover candidate
    | none => discover candidate
where
  discover (candidate : PeerIdentity β) : Method (Exc β) (Node T X E) Unit := do
    let node ← Method.self
    if candidate.signingPublic ∈ node.discovered.keys then return
    else
      Method.update fun node => { node with
        discovered := node.discovered.set candidate.signingPublic candidate }
      event (.discovered candidate)

/-! ## Messages -/

/-- `session.decrypt`, where a `SessionError` only counts. -/
def openData (signingPublic : Bytes β) (session : Session β X) (payload : Bytes β) (fresh : X) :
    Method (Exc β) (Node T X E) (Option (Bytes β)) := fun node =>
  match onSession signingPublic session (Session.decrypt P payload fresh) node with
  | (.error (.sessionError _), node) =>
    (.ok none, { node with
      stats := { node.stats with decryptFailures := node.stats.decryptFailures + 1 } })
  | (.error err, node) => (.error err, node)
  | (.ok plaintext, node) => (.ok (some plaintext), node)

/-- What the plaintext of a data frame goes to. -/
def onPlaintext (session : Session β X) (plaintext : Bytes β) :
    Method (Exc β) (Node T X E) Unit := do
  match decodeMessage plaintext with
  | .error _ => return -- only `ValueError`
  | .ok (kind, timestamp, body) =>
    count fun stats => { stats with messagesReceived := stats.messagesReceived + 1 }
    let node ← Method.self
    match kind, node.onMessage with
    | .text, some onMessage =>
      match node.sessions.peerOf session with
      | none => Method.raise .assertionError -- `peer` comes from the store
      | some peer =>
        Method.eval (onMessage {
          peer := peer, kind := kind, text := decodeReplace body, timestamp := timestamp
          verified := peer.verified, rssi := node.lastRssi })
    | _, _ => return

def onData (packet : Packet β) (payload : Bytes β) (env : ReceiveEnv β X) :
    Method (Exc β) (Node T X E) Unit := do
  let node ← Method.self
  match ← Method.eval (node.sessions.sessionByTag P packet.dstTag env.dataNow) with
  | none => return
  | some (signingPublic, session) =>
    match ← openData P signingPublic session payload env.fresh with
    | none => return
    | some plaintext => onPlaintext session plaintext

/-! ## Delivery -/

/-- `reassembler.add`, where a `ReassemblyError` is as good as no message. -/
def reassemble (packet : Packet β) (now : ℚ) :
    Method (Exc β) (Node T X E) (Option (Bytes β)) := fun node =>
  match Method.onField reassembler (fun reassembler node => { node with reassembler := reassembler })
      (Reassembler.add packet now) node with
  | (.error (.reassemblyError _), node) => (.ok none, node)
  | result => result

/-- The `try` block of `_deliver`. -/
def onPayload (packet : Packet β) (payload : Bytes β) (env : ReceiveEnv β X) :
    Method (Exc β) (Node T X E) Unit :=
  match packet.ptype with
  | .handshakeInit => onHandshakeInit P payload env
  | .handshakeResp => onHandshakeResp P payload env
  | .handshakeFin => onHandshakeFin P payload env
  | .beacon => onBeacon P payload
  | .data => onData P packet payload env
  | .cover | .ack => pure ()

/-- Its handlers, and what goes past them. -/
def onFailure : Exc β → Method (Exc β) (Node T X E) Unit
  | .keyChangedError name pinned presented => do
    count fun stats => { stats with handshakesFailed := stats.handshakesFailed + 1 }
    event (.refused (.keyChangedError name pinned presented))
  | .sessionError msg => do
    count fun stats => { stats with handshakesFailed := stats.handshakesFailed + 1 }
    event (.sessionError msg)
  | err => Method.raise err

/-- The whole of the `try` statement. -/
def handlePayload (packet : Packet β) (payload : Bytes β) (env : ReceiveEnv β X) :
    Method (Exc β) (Node T X E) Unit := fun node =>
  match onPayload P packet payload env node with
  | (.ok _, node) => (.ok (), node)
  | (.error err, node) => onFailure err node

def deliver (env : ReceiveEnv β X) (packet : Packet β) : Method (Exc β) (Node T X E) Unit := do
  match ← reassemble packet env.reassemblyNow with
  | none => return
  | some payload => handlePayload P packet payload env

def setRouter (router : Router β) (node : Node T X E) : Node T X E := { node with router := router }

/-- `router.handle` -/
def handle (packet : Packet β) (env : ReceiveEnv β X) : Method (Exc β) (Node T X E) Unit :=
  Router.handle router setRouter (isForUs P env.tagNow) (deliver P env) packet env.now env.delay

/-- One turn of the receive loop. -/
def receiveFrame (data : Bytes β) (rssi : Option ℚ) (env : ReceiveEnv β X) (node : Node T X E) :
    Node T X E :=
  match Packet.decode data with
  | .error _ => node
  | .ok packet => (handle P packet env { node with lastRssi := rssi }).2

end Node

end Chatbit
