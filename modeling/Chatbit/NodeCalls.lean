import Chatbit.NodeFlood
import Chatbit.SessionRunTheorems
import Chatbit.Traffic.Cover

/-!
# What a node asks of its session manager

A node may be handed any frame, run its timers, connect, send texts, beacons and cover traffic, and
its user may change whom it trusts. Each of these events acts on the session manager as one call at
most (`Node.callOf`), so what holds over all runs of a session manager holds in a node
(`Node.sessions_run`). A payload gets to the manager once its fragments have been reassembled.
-/

namespace Chatbit

open Lib Method

variable {β X E τ : Type} [Alphabet β] [DecidableEq β] (P : Primitives β X E)

/-- What may happen to a node. -/
inductive NodeEvent (β X : Type) where
  | inbound (event : InboundEvent β X)
  | connect (peerStaticPublic hsId : Bytes β) (ephemeral : X) (now startedAt : ℚ) (env : SendEnv β)
  | sendText (signingPublic : Bytes β) (text : String) (env : SendEnv β)
  | broadcastBeacon (env : SendEnv β)
  | sendCover (env : CoverEnv β)
  | drop (signingPublic : Bytes β)
  | markVerified (signingPublic : Bytes β)
  | repin (signingPublic staticPublic : Bytes β)
  | forget (signingPublic : Bytes β)

namespace Node

variable {T : Transport β τ}

/-- Begin a handshake with a peer whose static key we know. -/
def connect (peerStaticPublic hsId : Bytes β) (ephemeral : X) (now startedAt : ℚ)
    (env : SendEnv β) : Method (Exc β) (Node T X E) Unit := do
  let (payload, dstTag) ← onSessions (SessionManager.startHandshake P peerStaticPublic hsId
    ephemeral now startedAt env.wallNow)
  emit .handshakeInit payload dstTag env

/-- Announce our identity so nearby nodes can start a handshake. -/
def broadcastBeacon (env : SendEnv β) : Method (Exc β) (Node T X E) Unit := do
  let node ← Method.self
  emit .beacon (node.sessions.identity.beacon P env.timestamp) broadcastTag env

/-- The payload that `_deliver` goes on with, if the packet is new and for us and completes a
message. -/
def completes (packet : Packet β) (env : ReceiveEnv β X) (node : Node T X E) :
    Option (Bytes β) :=
  if Router.Unseen packet env.now node.router then
    match isForUs P env.tagNow packet node,
      (Reassembler.add packet env.reassemblyNow node.reassembler).1 with
    | .ok true, .ok (some payload) => some payload
    | _, _ => none
  else none

/-- The packet of a frame, with the message that it completes. -/
def arrives (data : Bytes β) (env : ReceiveEnv β X) (node : Node T X E) :
    Option (Packet β × Bytes β) :=
  match Packet.decode data with
  | .error _ => none
  | .ok packet => (node.completes P packet env).map fun payload => (packet, payload)

/-- What the payload of a packet asks of the manager. -/
def callOfPayload (packet : Packet β) (payload : Bytes β) (env : ReceiveEnv β X)
    (node : Node T X E) : Option (Call β X) :=
  match packet.ptype with
  | .handshakeInit =>
    some (.init payload env.ephemeral env.ratchetPrivate env.pendingNow env.startedAt)
  | .handshakeResp => some (.response payload env.fresh env.pinNow env.establishedAt)
  | .handshakeFin => some (.fin payload env.fresh env.pinNow env.establishedAt)
  | .data =>
    match node.sessions.sessionByTag P packet.dstTag env.dataNow with
    | .ok (some (signingPublic, _)) => some (.decrypt signingPublic payload env.fresh)
    | _ => none
  | .beacon | .cover | .ack => none

/-- The call that an event makes on the session manager. -/
def callOf (node : Node T X E) : NodeEvent β X → Option (Call β X)
  | .inbound (.frame data _ env) =>
    (node.arrives P data env).bind fun (packet, payload) => node.callOfPayload P packet payload env
  | .inbound (.fire _) | .inbound (.relayEnds _ _ _) => none
  | .connect peerStaticPublic hsId ephemeral now startedAt env =>
    some (.start peerStaticPublic hsId ephemeral now startedAt env.wallNow)
  | .sendText signingPublic text env => some (.encrypt signingPublic (textPayload env text))
  | .broadcastBeacon _ | .sendCover _ => none
  | .drop signingPublic => some (.drop signingPublic)
  | .markVerified signingPublic => some (.markVerified signingPublic)
  | .repin signingPublic staticPublic => some (.repin signingPublic staticPublic)
  | .forget signingPublic => some (.forget signingPublic)

/-- What an event leaves of the node. -/
def step (node : Node T X E) : NodeEvent β X → Node T X E
  | .inbound event => inbound P node event
  | .connect peerStaticPublic hsId ephemeral now startedAt env =>
    (connect P peerStaticPublic hsId ephemeral now startedAt env node).2
  | .sendText signingPublic text env => (sendText P signingPublic text env node).2
  | .broadcastBeacon env => (broadcastBeacon P env node).2
  | .sendCover env => (sendCover env node).2
  | .drop signingPublic => (onSessions (SessionManager.dropSession signingPublic) node).2
  | .markVerified signingPublic =>
    { node with sessions := node.sessions.onTrust (TrustStore.markVerified signingPublic) }
  | .repin signingPublic staticPublic =>
    { node with sessions := node.sessions.onTrust (TrustStore.repin signingPublic staticPublic) }
  | .forget signingPublic =>
    { node with sessions := node.sessions.onTrust (TrustStore.forget signingPublic) }

/-- The calls that a run makes, in order. -/
def callsOf (node : Node T X E) : List (NodeEvent β X) → List (Call β X)
  | [] => []
  | event :: events => (node.callOf P event).toList ++ (node.step P event).callsOf events

/-! ## What follows a call leaves the sessions -/

variable {P}

section Keeps

variable {ρ : Type} {f : Node T X E → ρ}

omit [Alphabet β] [DecidableEq β] in
/-- The application is told, and nothing changes. -/
lemma event_keeps (e : Event β) : Keeps f (event e : Method (Exc β) (Node T X E) Unit) :=
  .bind (.self _) fun _ => .eval _ _

omit [Alphabet β] [DecidableEq β] in
/-- News of a session changes nothing either. -/
lemma announceSession_keeps (session : Session β X) :
    Keeps f (announceSession session : Method (Exc β) (Node T X E) Unit) := by
  refine .bind (.self _) fun node => ?_
  rcases node.sessions.peerOf session with _ | peer
  · exact fun _ => rfl
  · refine .bind (event_keeps _) fun _ => ?_
    split_ifs
    · exact event_keeps _
    · exact .pure _ ()

variable (hstats : ∀ stats node, f { node with stats := stats } = f node)
include hstats

/-- A beacon changes the statistics and what is discovered. -/
lemma onBeacon_keeps
    (hdiscovered : ∀ discovered node, f { node with discovered := discovered } = f node)
    (payload : Bytes β) : Keeps f (onBeacon P payload : Method (Exc β) (Node T X E) Unit) := by
  have hdiscover : ∀ candidate,
      Keeps f (onBeacon.discover candidate : Method (Exc β) (Node T X E) Unit) := by
    refine fun candidate => .bind (.self _) fun node => ?_
    split_ifs
    · exact .pure _ ()
    · exact .bind (.update fun _ => hdiscovered _ _) fun _ => event_keeps _
  refine .bind (.self _) fun node => ?_
  dsimp only
  split_ifs
  · exact .pure _ ()
  · exact .pure _ ()
  · exact .pure _ ()
  · refine .bind (.update fun _ => hstats _ _) fun _ => ?_
    split
    · split_ifs
      · exact event_keeps _
      · exact hdiscover _
    · exact hdiscover _

omit [DecidableEq β] in
/-- A plaintext changes the statistics. -/
lemma onPlaintext_keeps (session : Session β X) (plaintext : Bytes β) :
    Keeps f (onPlaintext session plaintext : Method (Exc β) (Node T X E) Unit) := by
  unfold onPlaintext
  split
  · exact .pure _ ()
  · refine .bind (.update fun _ => hstats _ _) fun _ => .bind (.self _) fun node => ?_
    split
    · split
      · exact fun _ => rfl
      · exact .eval _ _
    · exact .pure _ ()

end Keeps

/-- The answer to an INIT comes after the manager has taken it. -/
lemma sessions_onHandshakeInit (payload : Bytes β) (env : ReceiveEnv β X) (node : Node T X E) :
    (onHandshakeInit P payload env node).2.sessions = node.sessions.call P
      (.init payload env.ephemeral env.ratchetPrivate env.pendingNow env.startedAt) := by
  refine Keeps.after (fun response => ?_) node
  rcases response with _ | response
  · exact .pure _ ()
  · exact sessions_emit _ _ _ _

/-- The FIN goes out after the manager has taken the RESP. -/
lemma sessions_onHandshakeResp (payload : Bytes β) (env : ReceiveEnv β X) (node : Node T X E) :
    (onHandshakeResp P payload env node).2.sessions = node.sessions.call P
      (.response payload env.fresh env.pinNow env.establishedAt) := by
  refine Keeps.after (fun result => ?_) node
  rcases result with _ | ⟨fin, session⟩
  · exact .pure _ ()
  · exact .bind (sessions_emit _ _ _ _) fun _ => .bind (.update fun _ => rfl) fun _ =>
      announceSession_keeps session

/-- After a FIN there is only news to tell. -/
lemma sessions_onHandshakeFin (payload : Bytes β) (env : ReceiveEnv β X) (node : Node T X E) :
    (onHandshakeFin P payload env node).2.sessions = node.sessions.call P
      (.fin payload env.fresh env.pinNow env.establishedAt) := by
  refine Keeps.after (fun session => ?_) node
  rcases session with _ | session
  · exact .pure _ ()
  · exact .bind (.update fun _ => rfl) fun _ => announceSession_keeps session

/-- Opening a data frame is a `decrypt` call on the session that owns its tag. -/
lemma sessions_openData {signingPublic : Bytes β} {session : Session β X} {node : Node T X E}
    (hs : node.sessions.sessionFor signingPublic = some session) (payload : Bytes β) (fresh : X) :
    (openData P signingPublic session payload fresh node).2.sessions =
      node.sessions.call P (.decrypt signingPublic payload fresh) := by
  have hcall : node.sessions.call P (.decrypt signingPublic payload fresh) = { node.sessions with
      sessions := node.sessions.sessions.set signingPublic
        (Session.decrypt P payload fresh session).2 } := by
    rw [SessionManager.call, SessionManager.onSession, hs]
  rw [hcall]
  unfold openData onSession
  rw [onField_apply]
  generalize Session.decrypt P payload fresh session = result
  obtain ⟨err | plaintext, session'⟩ := result
  · cases err <;> rfl
  · rfl

/-- A data payload is a `decrypt` call on the session of its tag, if there is one. -/
lemma sessions_onData (packet : Packet β) (payload : Bytes β) (env : ReceiveEnv β X)
    (node : Node T X E) :
    (onData P packet payload env node).2.sessions =
      match node.sessions.sessionByTag P packet.dstTag env.dataNow with
      | .ok (some (signingPublic, _)) =>
        node.sessions.call P (.decrypt signingPublic payload env.fresh)
      | _ => node.sessions := by
  unfold onData
  rw [self_bind]
  rcases htag : node.sessions.sessionByTag P packet.dstTag env.dataNow with
    err | _ | ⟨signingPublic, session⟩
  · rfl
  · rfl
  · have hs : node.sessions.sessionFor signingPublic = some session :=
      OrderedDict.get?_eq_some_iff.mpr (mem_of_sessionByTagIn htag)
    rw [bind_of_ok (eval_apply _ _)]
    refine (Keeps.after (fun plaintext => ?_) node).trans
      (sessions_openData hs payload env.fresh)
    rcases plaintext with _ | plaintext
    · exact .pure _ ()
    · exact onPlaintext_keeps (fun _ _ => rfl) session plaintext

/-! ## One event, one call -/

/-- The manager after a call that may not be made. -/
def afterCall (P : Primitives β X E) (manager : SessionManager β X E) :
    Option (Call β X) → SessionManager β X E
  | none => manager
  | some c => manager.call P c

/-- A payload makes one call on the manager at most. -/
lemma sessions_onPayload (packet : Packet β) (payload : Bytes β) (env : ReceiveEnv β X)
    (node : Node T X E) : (onPayload P packet payload env node).2.sessions =
      afterCall P node.sessions (node.callOfPayload P packet payload env) := by
  unfold onPayload callOfPayload
  cases packet.ptype with
  | handshakeInit => exact sessions_onHandshakeInit payload env node
  | handshakeResp => exact sessions_onHandshakeResp payload env node
  | handshakeFin => exact sessions_onHandshakeFin payload env node
  | beacon => exact onBeacon_keeps (fun _ _ => rfl) (fun _ _ => rfl) payload node
  | cover | ack => rfl
  | data =>
    refine (sessions_onData packet payload env node).trans ?_
    rcases node.sessions.sessionByTag P packet.dstTag env.dataNow with
      err | _ | ⟨signingPublic, session⟩ <;> rfl

/-- Catching what it raises makes none. -/
lemma sessions_handlePayload (packet : Packet β) (payload : Bytes β) (env : ReceiveEnv β X)
    (node : Node T X E) : (handlePayload P packet payload env node).2.sessions =
      afterCall P node.sessions (node.callOfPayload P packet payload env) :=
  (congrArg Prod.fst (heard_handlePayload packet payload env node)).trans
    (sessions_onPayload packet payload env node)

omit [Alphabet β] in
/-- `_deliver` takes a `ReassemblyError` for no message. -/
lemma reassemble_eq (packet : Packet β) (now : ℚ) (node : Node T X E) :
    reassemble packet now node =
      (match (Reassembler.add packet now node.reassembler).1 with
        | .error (.reassemblyError _) => .ok none
        | result => result,
      { node with reassembler := (Reassembler.add packet now node.reassembler).2 }) := by
  unfold reassemble
  rw [onField_apply]
  rcases Reassembler.add packet now node.reassembler with ⟨err | result, reassembler⟩
  · cases err <;> rfl
  · rfl

/-- A delivery goes on when the reassembler returns a payload. -/
lemma sessions_deliver (packet : Packet β) (env : ReceiveEnv β X) (node : Node T X E) :
    (deliver P env packet node).2.sessions =
      match (Reassembler.add packet env.reassemblyNow node.reassembler).1 with
      | .ok (some payload) => afterCall P node.sessions (node.callOfPayload P packet payload env)
      | _ => node.sessions := by
  rw [deliver, bind_apply, reassemble_eq]
  rcases Reassembler.add packet env.reassemblyNow node.reassembler with
    ⟨err | _ | payload, reassembler⟩
  · cases err <;> rfl
  · rfl
  · exact sessions_handlePayload packet payload env { node with reassembler := reassembler }

/-- What the router does around a delivery, `f` does not see if it does not read the router. -/
lemma handle_ends {ρ : Type} {f : Node T X E → ρ}
    (hrouter : ∀ router node, f { node with router := router } = f node) (packet : Packet β)
    (env : ReceiveEnv β X) (node : Node T X E) :
    (Router.Unseen packet env.now node.router ∧ isForUs P env.tagNow packet node = .ok true) ∧
        f (handle P packet env node).2 = f (deliver P env packet
          (node.setRouter (Router.delivering packet env.now node.router))).2 ∨
      ¬ (Router.Unseen packet env.now node.router ∧ isForUs P env.tagNow packet node = .ok true) ∧
        f (handle P packet env node).2 = f node := by
  by_cases hunseen : Router.Unseen packet env.now node.router
  · rcases hours : isForUs P env.tagNow packet node with err | ours
    · refine Or.inr ⟨by simp, ?_⟩
      rw [handle, Router.handle_of_unseen (isForUs_setRouter P env.tagNow packet) (deliver P env)
        hunseen, hours]
      exact hrouter _ _
    cases ours with
    | false =>
      refine Or.inr ⟨by simp, ?_⟩
      rw [handle, Router.handle_of_unseen (isForUs_setRouter P env.tagNow packet) (deliver P env)
        hunseen, hours]
      exact (hrouter _ _).trans (hrouter _ _)
    | true =>
      have hschedule : ∀ u : Unit, Keeps f
          (onField router setRouter (update (Router.scheduleRelay packet env.delay)) :
            Method (Exc β) (Node T X E) Unit) :=
        fun _ => .onField hrouter _
      refine Or.inl ⟨⟨hunseen, rfl⟩, ?_⟩
      rw [handle, Router.handle_of_ours router_setRouter setRouter_setRouter
        (isForUs_setRouter P env.tagNow packet) (deliver P env) hunseen hours,
        Keeps.after hschedule]
  · refine Or.inr ⟨fun h => hunseen h.1, ?_⟩
    rw [handle, Router.handle, bind_apply, onField_apply,
      Router.accept_of_seen (not_not.mp hunseen)]
    exact hrouter _ _

/-- A new frame for us completes what the reassembler returns. -/
lemma completes_of_ours {packet : Packet β} {env : ReceiveEnv β X} {node : Node T X E}
    (h : Router.Unseen packet env.now node.router ∧ isForUs P env.tagNow packet node = .ok true) :
    node.completes P packet env =
      (Reassembler.add packet env.reassemblyNow node.reassembler).1.toOption.join := by
  rw [completes, if_pos h.1, h.2]
  rcases (Reassembler.add packet env.reassemblyNow node.reassembler).1 with err | _ | payload <;> rfl

/-- Any other completes nothing. -/
lemma completes_of_not_ours {packet : Packet β} {env : ReceiveEnv β X} {node : Node T X E}
    (h : ¬ (Router.Unseen packet env.now node.router ∧
      isForUs P env.tagNow packet node = .ok true)) : node.completes P packet env = none := by
  unfold completes
  split_ifs with hunseen
  · rcases hours : isForUs P env.tagNow packet node with err | ours
    · rfl
    cases ours with
    | false => rfl
    | true => exact absurd ⟨hunseen, hours⟩ h
  · rfl

/-- A packet makes the call of the payload that it completes. -/
lemma sessions_handle (packet : Packet β) (env : ReceiveEnv β X) (node : Node T X E) :
    (handle P packet env node).2.sessions =
      afterCall P node.sessions ((node.completes P packet env).bind fun payload =>
        node.callOfPayload P packet payload env) := by
  rcases handle_ends (f := Node.sessions) (fun _ _ => rfl) packet env node with
    ⟨hours, h⟩ | ⟨hours, h⟩
  · rw [h, completes_of_ours hours, sessions_deliver]
    show (match (Reassembler.add packet env.reassemblyNow node.reassembler).1 with
      | .ok (some payload) => afterCall P node.sessions (node.callOfPayload P packet payload env)
      | _ => node.sessions) = _
    rcases (Reassembler.add packet env.reassemblyNow node.reassembler).1 with
      err | _ | payload <;> rfl
  · rw [h, completes_of_not_ours hours]
    rfl

/-- So does a frame. -/
lemma sessions_receiveFrame (data : Bytes β) (rssi : Option ℚ) (env : ReceiveEnv β X)
    (node : Node T X E) : (receiveFrame P data rssi env node).sessions =
      afterCall P node.sessions (node.callOf P (.inbound (.frame data rssi env))) := by
  rw [callOf, arrives, receiveFrame]
  rcases Packet.decode data with err | packet
  · rfl
  · refine (sessions_handle packet env { node with lastRssi := rssi }).trans ?_
    show _ = afterCall P node.sessions (((node.completes P packet env).map fun payload =>
      (packet, payload)).bind fun (packet, payload) => node.callOfPayload P packet payload env)
    rw [Option.bind_map]
    rfl

/-- Each event of a node is one call on its session manager at most. -/
theorem sessions_step (node : Node T X E) (event : NodeEvent β X) :
    (node.step P event).sessions = afterCall P node.sessions (node.callOf P event) := by
  cases event with
  | inbound event =>
    cases event with
    | frame data rssi env => exact sessions_receiveFrame data rssi env node
    | fire n =>
      rw [step, inbound]
      rcases node.router.timers[n]? with _ | handle <;> rfl
    | relayEnds n sent now =>
      rw [step, inbound]
      rcases node.router.relayTasks[n]? with _ | packet <;> rfl
  | connect peerStaticPublic hsId ephemeral now startedAt env =>
    exact Keeps.after (fun _ => sessions_emit _ _ _ _) node
  | sendText signingPublic text env =>
    rcases hs : node.sessions.sessionFor signingPublic with _ | session
    · have hsend : sendText P signingPublic text env node = (.ok false, node) := by
        rw [sendText, self_bind, hs]
        rfl
      show (sendText P signingPublic text env node).2.sessions = node.sessions.onSession _ _
      rw [hsend, SessionManager.onSession, hs]
    · show (sendText P signingPublic text env node).2.sessions = node.sessions.onSession _ _
      rw [sessions_sendText hs, SessionManager.onSession, hs]
  | broadcastBeacon env => exact sessions_emit _ _ _ _ _
  | sendCover env =>
    have hkeeps : Keeps Node.sessions (sendCover env : Method (Exc β) (Node T X E) Unit) :=
      .bind (.self _) fun _ => .bind (.eval _ _) fun _ =>
        .bind (sessions_emit _ _ _ _) fun _ => .update fun _ => rfl
    exact hkeeps node
  | drop signingPublic => rfl
  | markVerified signingPublic => rfl
  | repin signingPublic staticPublic => rfl
  | forget signingPublic => rfl

/-- A run of a node is a run of its session manager. -/
theorem sessions_run (node : Node T X E) (events : List (NodeEvent β X)) :
    (events.foldl (step P) node).sessions =
      node.sessions.afterCalls P (node.callsOf P events) := by
  induction events generalizing node with
  | nil => rfl
  | cons event events ih =>
    rw [List.foldl_cons, ih, sessions_step, callsOf, SessionManager.afterCalls,
      SessionManager.afterCalls, List.foldl_append]
    congr 1
    rcases node.callOf P event with _ | c <;> rfl

end Node

end Chatbit
