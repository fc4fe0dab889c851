import Chatbit.Inbound
import Chatbit.NodeTheorems
import Chatbit.Crypto.Symbolic

/-!
# Relaying what is for us

A frame is relayed whether or not it is for us, says the comment in `Router.handle`. The relay is
scheduled after the local delivery has been awaited, so it is scheduled if and only if the delivery
returns (`handle_schedules_iff`), and a delivery that raises takes the relay with it. What can raise
there is what the handlers call: the session manager, the link and the callbacks of the application
(`Handles`, the weakest precondition of a handler that raises nothing `_deliver` lets through).
-/

namespace Chatbit

open Lib

variable {β X E τ F : Type} [Alphabet β] [DecidableEq β] {P : Primitives β X E}

namespace Router

variable [Frame β F]

/-- One relay of the frame has been scheduled, and no other. -/
def Schedules (packet : F) (before after : Router β F) : Prop :=
  ∃ handle : TimerHandle β F, Frame.decrementTtl packet = some handle.packet ∧
    handle.key = Frame.dedupKey packet ∧ after.timers = before.timers ++ [handle] ∧
    after.pendingRelays.get? handle.key = some handle

/-- The dedup cache has no entry for the frame, or an expired one. -/
def Unseen (packet : F) (now : ℚ) (router : Router β F) : Prop :=
  Frame.dedupKey packet ∉ (router.dedup.expire now).seen.keys

instance (packet : F) (now : ℚ) (router : Router β F) : Decidable (Unseen packet now router) :=
  inferInstanceAs (Decidable (_ ∉ _))

variable {packet : F} {now delay : ℚ} {router : Router β F}

omit [Alphabet β] in
/-- The cache has nothing to do with the timers. -/
lemma timers_markSeen (packet : F) (now : ℚ) (router : Router β F) :
    (markSeen packet now router).2.timers = router.timers := rfl

omit [Alphabet β] in
/-- A new frame goes on to the local delivery. -/
lemma accept_of_unseen (h : Unseen packet now router) :
    (accept packet now router).1 = .ok true ∧
      (accept packet now router).2.timers = router.timers := by
  rw [accept_of_new h]
  exact ⟨rfl, rfl⟩

omit [Alphabet β] in
/-- A frame that has hops to go gets a timer. -/
lemma schedules_scheduleRelay (httl : (Frame.decrementTtl packet).isSome) (delay : ℚ) :
    Schedules packet router (scheduleRelay packet delay router) := by
  obtain ⟨forwarded, hforwarded⟩ := Option.isSome_iff_exists.mp httl
  unfold scheduleRelay
  rw [hforwarded]
  exact ⟨⟨router.calls, delay, Frame.dedupKey packet, forwarded⟩, hforwarded, rfl, rfl,
    OrderedDict.get?_set_self _ _ _⟩

omit [Alphabet β] in
/-- Where the timers are the old ones, no relay has been scheduled. -/
lemma not_schedules_of_timers {before after : Router β F} (h : after.timers = before.timers) :
    ¬ Schedules packet before after := by
  rintro ⟨handle, -, -, htimers, -⟩
  have hlen := congrArg List.length (h.symm.trans htimers)
  rw [List.length_append, List.length_singleton] at hlen
  omega

/-- The router when a new frame that is for us is delivered. -/
def delivering (packet : F) (now : ℚ) (router : Router β F) : Router β F :=
  let router := (accept packet now router).2
  { router with
    stats := { router.stats with deliveredLocal := router.stats.deliveredLocal + 1 } }

section Handle

variable {σ : Type} {get : σ → Router β F} {set : Router β F → σ → σ}
  (hget : ∀ router owner, get (set router owner) = router)
  (hset : ∀ router router' owner, set router (set router' owner) = set router owner)
  {isForUs : F → σ → Except (Exc β) Bool}
  (hfor : ∀ router owner, isForUs packet (set router owner) = isForUs packet owner)

include hfor in
omit [Alphabet β] in
/-- What happens to a new frame, once it is accepted. -/
lemma handle_of_unseen (deliver : F → Method (Exc β) σ Unit) {owner : σ}
    (hunseen : Unseen packet now (get owner)) (delay : ℚ) :
    handle get set isForUs deliver packet now delay owner =
      (Method.eval (isForUs packet owner) >>= fun ours => do
        if ours then
          Method.onField get set (Method.update fun router => { router with
            stats := { router.stats with deliveredLocal := router.stats.deliveredLocal + 1 } })
          deliver packet
        Method.onField get set (Method.update (scheduleRelay packet delay)))
      (set (accept packet now (get owner)).2 owner) := by
  have haccept : Method.onField get set (accept packet now) owner =
      (.ok true, set (accept packet now (get owner)).2 owner) := by
    rw [Method.onField_apply, (accept_of_unseen hunseen).1]
  unfold handle
  rw [Method.bind_of_ok haccept, ← hfor (accept packet now (get owner)).2 owner]
  rfl

include hget hset hfor in
omit [Alphabet β] in
/-- A new frame that is for the owner is delivered, and its relay is scheduled if that returns. -/
lemma handle_of_ours (deliver : F → Method (Exc β) σ Unit) {owner : σ}
    (hunseen : Unseen packet now (get owner)) (hours : isForUs packet owner = .ok true)
    (delay : ℚ) :
    handle get set isForUs deliver packet now delay owner =
      (deliver packet >>= fun _ =>
        Method.onField get set (Method.update (scheduleRelay packet delay)))
      (set (delivering packet now (get owner)) owner) := by
  have hstart : set { get (set (accept packet now (get owner)).2 owner) with
        stats := { (get (set (accept packet now (get owner)).2 owner)).stats with
          deliveredLocal :=
            (get (set (accept packet now (get owner)).2 owner)).stats.deliveredLocal + 1 } }
          (set (accept packet now (get owner)).2 owner) =
      set (delivering packet now (get owner)) owner := by
    rw [hget, hset]
    rfl
  rw [handle_of_unseen hfor deliver hunseen, hours, ← hstart]
  rfl

include hget hset hfor in
omit [Alphabet β] in
/-- For an owner whose delivery leaves the timers alone: the relay of a new frame is scheduled if
and only if the frame is not for it, or it is and the delivery returns. -/
lemma handle_schedules_iff {deliver : F → Method (Exc β) σ Unit}
    (hkeeps : Method.Keeps (fun owner => (get owner).timers) (deliver packet)) {owner : σ}
    (hunseen : Unseen packet now (get owner)) (httl : (Frame.decrementTtl packet).isSome)
    (delay : ℚ) :
    Schedules packet (get owner)
        (get (handle get set isForUs deliver packet now delay owner).2) ↔
      isForUs packet owner = .ok false ∨ isForUs packet owner = .ok true ∧
        (deliver packet (set (delivering packet now (get owner)) owner)).1 = .ok () := by
  obtain ⟨-, htimers⟩ := accept_of_unseen hunseen
  -- the schedule that follows a state with the old timers
  have hlast : ∀ owner', (get owner').timers = (get owner).timers →
      Schedules packet (get owner)
        (get (set (scheduleRelay packet delay (get owner')) owner')) := by
    intro owner' htimers'
    have hscheduled : Schedules packet (get owner') (scheduleRelay packet delay (get owner')) :=
      schedules_scheduleRelay httl delay
    obtain ⟨handle, hpacket, hkey, hnext, hpending⟩ := hscheduled
    rw [hget]
    exact ⟨handle, hpacket, hkey, hnext.trans (by rw [htimers']), hpending⟩
  rcases hours : isForUs packet owner with err | ours
  · rw [handle_of_unseen hfor deliver hunseen, hours]
    simp only [reduceCtorEq, false_and, or_self, iff_false]
    apply not_schedules_of_timers
    show (get (set _ owner)).timers = _
    rw [hget]
    exact htimers
  cases ours with
  | false =>
    rw [handle_of_unseen hfor deliver hunseen, hours]
    simp only [true_or, iff_true]
    apply hlast
    rw [hget]
    exact htimers
  | true =>
    have hbefore : (get (set (delivering packet now (get owner)) owner)).timers =
        (get owner).timers := by
      rw [hget]
      exact htimers
    have hkept : (get (deliver packet (set (delivering packet now (get owner)) owner)).2).timers =
        (get (set (delivering packet now (get owner)) owner)).timers := hkeeps _
    rw [handle_of_ours hget hset hfor deliver hunseen hours, Method.bind_apply]
    rcases hresult : deliver packet (set (delivering packet now (get owner)) owner) with
      ⟨err | ⟨⟩, owner'⟩ <;> rw [hresult] at hkept
    · simp only [reduceCtorEq, Except.ok.injEq, Bool.true_eq_false, and_false, or_self, iff_false]
      exact not_schedules_of_timers (hkept.trans hbefore)
    · simp only [true_and, or_true, iff_true]
      exact hlast owner' (hkept.trans hbefore)

end Handle

end Router

namespace Node

variable {T : Transport β τ}

/-! ## The router in the node -/

omit [Alphabet β] [DecidableEq β] in
lemma router_setRouter (router : Router β) (node : Node T X E) :
    (node.setRouter router).router = router := rfl

omit [Alphabet β] [DecidableEq β] in
lemma setRouter_setRouter (router router' : Router β) (node : Node T X E) :
    (node.setRouter router').setRouter router = node.setRouter router := rfl

/-- Whether a frame is for us is not the router's to say. -/
lemma isForUs_setRouter (P : Primitives β X E) (now : ℚ) (packet : Packet β) (router : Router β)
    (node : Node T X E) :
    isForUs P now packet (node.setRouter router) = isForUs P now packet node := rfl

/-! ## A delivery leaves the timers alone -/

/-- What of a node a delivery does not change. -/
def timers (node : Node T X E) : List (TimerHandle β (Packet β)) := node.router.timers

/-- Sending marks frames as seen and hands them to the transport. -/
lemma keeps_emit (ptype : PacketType) (payload dstTag : Bytes β) (env : SendEnv β) :
    Method.Keeps timers (emit ptype payload dstTag env : Method (Exc β) (Node T X E) Unit) := by
  have hall : ∀ packets, Method.Keeps timers
      (originateAll env.clock packets : Method (Exc β) (Node T X E) Unit) := by
    intro packets
    induction packets with
    | nil => exact .pure _ ()
    | cons packet packets ih =>
      have hmark : Method.Keeps (timers (T := T) (X := X) (E := E))
          (Method.onField router (fun router node => { node with router := router })
            (Router.markSeen packet (env.clock packet.fragIndex))) :=
        fun node => Router.timers_markSeen packet _ node.router
      exact .bind (.bind hmark fun _ => keeps_transmit (fun _ _ => rfl) fun _ _ => rfl) fun _ => ih
  exact .bind (.self _) fun _ => .bind (.eval _ _) hall

omit [Alphabet β] [DecidableEq β] in
/-- The session manager is beside the router. -/
lemma keeps_onSessions {α : Type} (m : Method (Exc β) (SessionManager β X E) α) :
    Method.Keeps timers (onSessions m : Method (Exc β) (Node T X E) α) := by
  apply Method.Keeps.onField
  intro _ _
  rfl

omit [Alphabet β] [DecidableEq β] in
lemma keeps_event (e : Event β) :
    Method.Keeps timers (event e : Method (Exc β) (Node T X E) Unit) :=
  .bind (.self _) fun _ => .eval _ _

omit [Alphabet β] [DecidableEq β] in
lemma keeps_count (f : NodeStats → NodeStats) :
    Method.Keeps timers (count f : Method (Exc β) (Node T X E) Unit) := .update fun _ => rfl

omit [Alphabet β] [DecidableEq β] in
lemma keeps_announceSession (session : Session β X) :
    Method.Keeps timers (announceSession session : Method (Exc β) (Node T X E) Unit) := by
  apply Method.Keeps.bind (.self _)
  intro node
  rcases node.sessions.peerOf session with _ | peer
  · exact fun _ => rfl
  · apply Method.Keeps.bind (keeps_event _)
    intro _
    split_ifs
    · exact keeps_event _
    · exact .pure _ ()

/-- Neither the manager nor the answer to an INIT touches the timers. -/
lemma keeps_onHandshakeInit (payload : Bytes β) (env : ReceiveEnv β X) :
    Method.Keeps timers (onHandshakeInit P payload env : Method (Exc β) (Node T X E) Unit) := by
  apply Method.Keeps.bind (keeps_onSessions _)
  intro response
  cases response with
  | none => exact .pure _ ()
  | some response => exact keeps_emit _ _ _ _

/-- The same for a RESP, with the FIN and the news of the session. -/
lemma keeps_onHandshakeResp (payload : Bytes β) (env : ReceiveEnv β X) :
    Method.Keeps timers (onHandshakeResp P payload env : Method (Exc β) (Node T X E) Unit) := by
  apply Method.Keeps.bind (keeps_onSessions _)
  intro result
  cases result with
  | none => exact .pure _ ()
  | some result =>
    exact .bind (keeps_emit _ _ _ _) fun _ => .bind (keeps_count _) fun _ => keeps_announceSession _

/-- The same for a FIN. -/
lemma keeps_onHandshakeFin (payload : Bytes β) (env : ReceiveEnv β X) :
    Method.Keeps timers (onHandshakeFin P payload env : Method (Exc β) (Node T X E) Unit) := by
  apply Method.Keeps.bind (keeps_onSessions _)
  intro session
  cases session with
  | none => exact .pure _ ()
  | some session => exact .bind (keeps_count _) fun _ => keeps_announceSession _

omit [Alphabet β] in
/-- What is discovered is beside the router, too. -/
lemma keeps_discover (candidate : PeerIdentity β) :
    Method.Keeps timers (onBeacon.discover candidate : Method (Exc β) (Node T X E) Unit) := by
  apply Method.Keeps.bind (.self _)
  intro node
  split_ifs
  · exact .pure _ ()
  · exact .bind (.update fun _ => rfl) fun _ => keeps_event _

/-- A beacon changes the statistics and what is discovered. -/
lemma keeps_onBeacon (payload : Bytes β) :
    Method.Keeps timers (onBeacon P payload : Method (Exc β) (Node T X E) Unit) := by
  apply Method.Keeps.bind (.self _)
  intro node
  dsimp only
  split_ifs
  · exact .pure _ ()
  · exact .pure _ ()
  · exact .pure _ ()
  apply Method.Keeps.bind (keeps_count _)
  intro _
  split
  · split_ifs
    · exact keeps_event _
    · exact keeps_discover _
  · exact keeps_discover _

omit [Alphabet β] in
/-- A session is one of the manager's. -/
lemma keeps_onSession {α : Type} (signingPublic : Bytes β) (session : Session β X)
    (m : Method (Exc β) (Session β X) α) :
    Method.Keeps timers (onSession signingPublic session m : Method (Exc β) (Node T X E) α) := by
  apply Method.Keeps.onField
  intro _ _
  rfl

/-- Opening a data payload counts, and changes the session. -/
lemma keeps_openData (signingPublic : Bytes β) (session : Session β X) (payload : Bytes β)
    (fresh : X) :
    Method.Keeps timers (openData P signingPublic session payload fresh :
      Method (Exc β) (Node T X E) (Option (Bytes β))) := by
  intro node
  have hkeeps := keeps_onSession signingPublic session (Session.decrypt P payload fresh) node
  unfold openData
  split <;> simp_all [timers]

omit [DecidableEq β] in
/-- The callback gets no access to the router. -/
lemma keeps_onPlaintext (session : Session β X) (plaintext : Bytes β) :
    Method.Keeps timers (onPlaintext session plaintext : Method (Exc β) (Node T X E) Unit) := by
  unfold onPlaintext
  split
  · exact .pure _ ()
  apply Method.Keeps.bind (keeps_count _)
  intro _
  apply Method.Keeps.bind (.self _)
  intro node
  split
  · split
    · exact fun _ => rfl
    · exact .eval _ _
  · exact .pure _ ()

/-- So a data payload leaves the timers alone. -/
lemma keeps_onData (packet : Packet β) (payload : Bytes β) (env : ReceiveEnv β X) :
    Method.Keeps timers (onData P packet payload env : Method (Exc β) (Node T X E) Unit) := by
  apply Method.Keeps.bind (.self _)
  intro node
  apply Method.Keeps.bind (.eval _ _)
  intro found
  cases found with
  | none => exact .pure _ ()
  | some found =>
    apply Method.Keeps.bind (keeps_openData _ _ _ _)
    intro plaintext
    cases plaintext with
    | none => exact .pure _ ()
    | some plaintext => exact keeps_onPlaintext _ _

/-- So does a payload of any type. -/
lemma keeps_onPayload (packet : Packet β) (payload : Bytes β) (env : ReceiveEnv β X) :
    Method.Keeps timers (onPayload P packet payload env : Method (Exc β) (Node T X E) Unit) := by
  unfold onPayload
  split
  · exact keeps_onHandshakeInit _ _
  · exact keeps_onHandshakeResp _ _
  · exact keeps_onHandshakeFin _ _
  · exact keeps_onBeacon _
  · exact keeps_onData _ _ _
  · exact .pure _ ()
  · exact .pure _ ()

omit [Alphabet β] [DecidableEq β] in
/-- What `_deliver` catches is counted and told. -/
lemma keeps_onFailure (err : Exc β) :
    Method.Keeps timers (onFailure err : Method (Exc β) (Node T X E) Unit) := by
  unfold onFailure
  split
  · exact .bind (keeps_count _) fun _ => keeps_event _
  · exact .bind (keeps_count _) fun _ => keeps_event _
  · exact fun _ => rfl

/-- Whether the handler raises or not, the timers stay. -/
lemma keeps_handlePayload (packet : Packet β) (payload : Bytes β) (env : ReceiveEnv β X) :
    Method.Keeps timers (handlePayload P packet payload env : Method (Exc β) (Node T X E) Unit) := by
  intro node
  have hkeeps := keeps_onPayload (P := P) packet payload env node
  unfold handlePayload
  rcases hresult : onPayload P packet payload env node with ⟨err | ⟨⟩, node'⟩
  · rw [hresult] at hkeeps
    exact (keeps_onFailure err node').trans hkeeps
  · rw [hresult] at hkeeps
    exact hkeeps

omit [Alphabet β] in
lemma keeps_reassemble (packet : Packet β) (now : ℚ) :
    Method.Keeps timers (reassemble packet now :
      Method (Exc β) (Node T X E) (Option (Bytes β))) := by
  intro node
  unfold reassemble
  rw [Method.onField_apply]
  rcases Reassembler.add packet now node.reassembler with ⟨err | message, reassembler⟩
  · cases err <;> rfl
  · rfl

/-- A delivery schedules no relay and cancels none. -/
lemma keeps_deliver (packet : Packet β) (env : ReceiveEnv β X) :
    Method.Keeps timers (deliver P env packet : Method (Exc β) (Node T X E) Unit) := by
  apply Method.Keeps.bind (keeps_reassemble _ _)
  intro payload
  cases payload with
  | none => exact .pure _ ()
  | some payload => exact keeps_handlePayload _ _ _

/-! ## When a delivery returns -/

/-- `_deliver` catches the exception, and the application takes the event. -/
def Caught (node : Node T X E) (err : Exc β) : Prop :=
  match err with
  | .keyChangedError _ _ _ => node.onEvent (.refused err) = .ok ()
  | .sessionError msg => node.onEvent (.sessionError msg) = .ok ()
  | _ => False

/-- A callback returns, or what it raises is caught. -/
def Passes (node : Node T X E) (outcome : Except (Exc β) Unit) (next : Prop) : Prop :=
  match outcome with
  | .ok _ => next
  | .error err => node.Caught err

/-- The application takes the event. -/
def Accepts (node : Node T X E) (e : Event β) (next : Prop) : Prop :=
  node.Passes (node.onEvent e) next

/-- The frames of the packets are built and the link takes them, one after the other, or what is
raised on the way is caught. -/
def LinkTakes (T : Transport β τ) (padding : PaddingPolicy) (caught : Exc β → Prop) (next : Prop) :
    List (Packet β) → τ → Prop
  | [], _ => next
  | packet :: packets, transport =>
    match frameOf T.mtu padding packet with
    | .error err => caught err
    | .ok frame =>
      (T.send frame).wp (fun _ transport => LinkTakes T padding caught next packets transport)
        (fun err _ => caught err) transport

/-- The link takes the message, which is broadcast. -/
def Broadcasts (node : Node T X E) (ptype : PacketType) (payload : Bytes β) (env : SendEnv β)
    (next : Prop) : Prop :=
  match fragment ptype payload env.msgId node.capacity broadcastTag node.mesh.defaultTtl with
  | .error err => node.Caught err
  | .ok packets => LinkTakes T node.mesh.padding node.Caught next packets node.transport

/-- The application takes the news of a session. -/
def Announces (node : Node T X E) (manager : SessionManager β X E) (session : Session β X) : Prop :=
  match manager.peerOf session with
  | none => False
  | some peer => node.Accepts (.established peer)
    (peer.verified = false → node.Accepts (.compareSafetyNumber peer) True)

def Discovers (node : Node T X E) (candidate : PeerIdentity β) : Prop :=
  candidate.signingPublic ∉ node.discovered.keys → node.Accepts (.discovered candidate) True

variable (P)

/-- The application takes the news of a beacon that is authentic and not our own. -/
def TakesBeacon (node : Node T X E) (payload : Bytes β) : Prop :=
  let candidate := beaconCandidate payload
  32 + 32 + 8 + 64 + 1 ≤ payload.length →
    candidate.signingPublic ≠ node.sessions.identity.signingPublic P →
    candidate.verifyTranscript P (payload.take 72) ((payload.drop 72).take 64) = true →
      match node.sessions.trust.get candidate.signingPublic with
      | some known =>
        if known.staticPublic ≠ candidate.staticPublic then node.Accepts (.otherStaticKey known) True
        else node.Discovers candidate
      | none => node.Discovers candidate

/-- The application takes the text in the plaintext. -/
def TakesPlaintext (node : Node T X E) (session : Session β X) (plaintext : Bytes β) : Prop :=
  match decodeMessage plaintext, node.onMessage with
  | .ok (.text, timestamp, body), some onMessage =>
    match node.sessions.peerOf session with
    | none => False
    | some peer => node.Passes (onMessage {
        peer := peer, kind := .text, text := decodeReplace body, timestamp := timestamp
        verified := peer.verified, rssi := node.lastRssi }) True
  | _, _ => True

/-- No session owns the tag, or the session that does takes the message. -/
def TakesData (node : Node T X E) (packet : Packet β) (payload : Bytes β) (env : ReceiveEnv β X) :
    Prop :=
  match node.sessions.sessionByTag P packet.dstTag env.dataNow with
  | .error err => node.Caught err
  | .ok none => True
  | .ok (some (_, session)) => (Session.decrypt P payload env.fresh).wp
    (fun plaintext _ => node.TakesPlaintext session plaintext)
    (fun err _ => (∃ msg, err = .sessionError msg) ∨ node.Caught err) session

/-- Nothing that handling the message calls raises what `_deliver` does not catch: the session
manager, the link on the answer, or the application. -/
def Handles (node : Node T X E) (packet : Packet β) (payload : Bytes β) (env : ReceiveEnv β X) :
    Prop :=
  match packet.ptype with
  | .handshakeInit => (SessionManager.handleInit P payload env.ephemeral env.ratchetPrivate
      env.pendingNow env.startedAt).wp
    (fun response _ => ∀ message ∈ response,
      node.Broadcasts .handshakeResp message env.send True)
    (fun err _ => node.Caught err) node.sessions
  | .handshakeResp => (SessionManager.handleResponse P payload env.fresh env.pinNow
      env.establishedAt).wp
    (fun result manager => ∀ made ∈ result,
      node.Broadcasts .handshakeFin made.1 env.send (node.Announces manager made.2))
    (fun err _ => node.Caught err) node.sessions
  | .handshakeFin => (SessionManager.handleFin P payload env.fresh env.pinNow
      env.establishedAt).wp
    (fun result manager => ∀ session ∈ result, node.Announces manager session)
    (fun err _ => node.Caught err) node.sessions
  | .beacon => node.TakesBeacon P payload
  | .data => node.TakesData P packet payload env
  | .cover | .ack => True

/-- The frame completes no message, or one that is handled. -/
def Delivers (node : Node T X E) (packet : Packet β) (env : ReceiveEnv β X) : Prop :=
  (Reassembler.add packet env.reassemblyNow).wp
    (fun message _ => ∀ payload ∈ message, node.Handles P packet payload env)
    (fun err _ => ∃ msg, err = .reassemblyError msg) node.reassembler

variable {P}

/-- The method returns, or raises what is caught. -/
def Settles {α : Type} (m : Method (Exc β) (Node T X E) α) (node : Node T X E) : Prop :=
  m.wp (fun _ _ => True) (fun err node => node.Caught err) node

section Settles

variable {node : Node T X E} {env : ReceiveEnv β X} {payload : Bytes β}

omit [Alphabet β] [DecidableEq β] in
/-- After an outcome the method goes on where the outcome is a return. -/
lemma settles_eval_bind {α : Type} (outcome : Except (Exc β) Unit)
    {k : Unit → Method (Exc β) (Node T X E) α} :
    Settles (Method.eval outcome >>= k) node ↔ node.Passes outcome (Settles (k ()) node) := by
  unfold Settles Passes
  rw [Method.wp_bind, Method.wp_eval]
  rcases outcome with err | ⟨⟩ <;> exact Iff.rfl

omit [Alphabet β] [DecidableEq β] in
/-- The last outcome decides. -/
lemma settles_eval (outcome : Except (Exc β) Unit) :
    Settles (Method.eval outcome) node ↔ node.Passes outcome True := by
  unfold Settles Passes
  rw [Method.wp_eval]
  rcases outcome with err | ⟨⟩ <;> exact Iff.rfl

omit [Alphabet β] [DecidableEq β] in
/-- An event settles as the application takes it. -/
lemma settles_event (e : Event β) : Settles (event e) node ↔ node.Accepts e True :=
  settles_eval (node.onEvent e)

omit [Alphabet β] [DecidableEq β] in
/-- After an event the method goes on where the application takes it. -/
lemma settles_event_bind {α : Type} {e : Event β} {k : Unit → Method (Exc β) (Node T X E) α} :
    Settles (event e >>= k) node ↔ node.Accepts e (Settles (k ()) node) :=
  settles_eval_bind (node.onEvent e)

/-- Originating a packet marks it, builds its frame and hands it to the link. -/
lemma wp_originate {packet : Packet β} {now : ℚ} {returns : Unit → Node T X E → Prop}
    {raises : Exc β → Node T X E → Prop} :
    (originate packet now).wp returns raises node ↔
      match frameOf T.mtu node.mesh.padding packet with
      | .error err =>
        raises err { node with router := (Router.markSeen packet now node.router).2 }
      | .ok frame => (T.send frame).wp
        (fun value transport => returns value { node with
          router := (Router.markSeen packet now node.router).2
          handed := node.handed ++ [frame], transport := transport })
        (fun err transport => raises err { node with
          router := (Router.markSeen packet now node.router).2
          handed := node.handed ++ [frame], transport := transport }) node.transport := by
  obtain ⟨seen, router', hmark⟩ := markSeen_ok packet now node.router
  unfold originate
  rw [Method.wp_bind, Method.wp_onField]
  unfold Method.wp
  rw [hmark]
  rcases hframe : frameOf T.mtu node.mesh.padding packet with err | frame
  · have hfails : transmit packet { node with router := router' } =
        (.error err, { node with router := router' }) := by
      rw [transmit, Method.self_bind, Method.bind_apply, Method.eval_apply, hframe]
    dsimp only
    rw [hfails]
  · have htransmit : transmit packet { node with router := router' } = _ :=
      transmit_of_frameOf hframe
    dsimp only
    rw [htransmit]
    rcases T.send frame node.transport with ⟨err | ⟨⟩, transport⟩ <;> exact Iff.rfl

/-- The packets go out one by one, until the link refuses one. -/
lemma settles_originateAll {α : Type} {clock : ℕ → ℚ} {packets : List (Packet β)}
    {k : Unit → Method (Exc β) (Node T X E) α} {next : Prop}
    (hk : ∀ router transport handed, Settles (k ()) { node with
      router := router, transport := transport, handed := handed } ↔ next) :
    Settles (originateAll clock packets >>= k) node ↔
      LinkTakes T node.mesh.padding node.Caught next packets node.transport := by
  induction packets generalizing node with
  | nil => exact hk node.router node.transport node.handed
  | cons packet packets ih =>
    unfold Settles originateAll LinkTakes
    rw [Method.wp_bind, Method.wp_bind, wp_originate]
    rcases frameOf T.mtu node.mesh.padding packet with err | frame
    · exact Iff.rfl
    · apply Method.wp_congr
      intro _ transport
      rw [← Method.wp_bind]
      exact ih hk

/-- Sending a payload raises where its fragmentation or the link does. -/
lemma settles_emit_bind {α : Type} {ptype : PacketType} {env : SendEnv β}
    {k : Unit → Method (Exc β) (Node T X E) α} {next : Prop}
    (hk : ∀ router transport handed, Settles (k ()) { node with
      router := router, transport := transport, handed := handed } ↔ next) :
    Settles (emit ptype payload broadcastTag env >>= k) node ↔
      node.Broadcasts ptype payload env next := by
  unfold Settles emit Broadcasts
  rw [Method.wp_bind, Method.wp_self_bind, Method.wp_bind, Method.wp_eval]
  rcases fragment ptype payload env.msgId node.capacity broadcastTag node.mesh.defaultTtl with
    err | packets
  · exact Iff.rfl
  · dsimp only
    rw [← Method.wp_bind]
    exact settles_originateAll hk

/-- The same at the end of a handler. -/
lemma settles_emit (ptype : PacketType) (env : SendEnv β) :
    Settles (emit ptype payload broadcastTag env) node ↔
      node.Broadcasts ptype payload env True := by
  rw [← settles_emit_bind (k := fun _ => pure ()) fun _ _ _ => Iff.rfl]
  unfold Settles
  rw [Method.wp_bind]
  exact Iff.rfl

omit [Alphabet β] [DecidableEq β] in
/-- A call on the manager raises, or the handler goes on with its answer. -/
lemma settles_onSessions_bind {α γ : Type} {m : Method (Exc β) (SessionManager β X E) α}
    {k : α → Method (Exc β) (Node T X E) γ} :
    Settles (onSessions m >>= k) node ↔
      m.wp (fun a manager => Settles (k a) { node with sessions := manager })
        (fun err _ => node.Caught err) node.sessions := by
  unfold Settles onSessions
  rw [Method.wp_bind, Method.wp_onField]
  exact Iff.rfl

omit [Alphabet β] [DecidableEq β] in
/-- News of a session are two events, the second for an unverified peer only. -/
lemma settles_announceSession (session : Session β X) :
    Settles (announceSession session) node ↔ node.Announces node.sessions session := by
  unfold announceSession Announces
  show Settles (match node.sessions.peerOf session with
    | none => _
    | some _ => _) node ↔ _
  rcases node.sessions.peerOf session with _ | peer
  · exact Iff.rfl
  · show Settles (event _ >>= _) node ↔ _
    rw [settles_event_bind]
    apply iff_of_eq
    congr 1
    apply propext
    by_cases hverified : peer.verified = false
    · rw [if_pos hverified, settles_event]
      exact ⟨fun h _ => h, fun h => h hverified⟩
    · rw [if_neg hverified]
      exact ⟨fun _ h => absurd h hverified, fun _ => trivial⟩

/-- An INIT is answered by a broadcast, if it is answered. -/
lemma settles_onHandshakeInit :
    Settles (onHandshakeInit P payload env) node ↔
      (SessionManager.handleInit P payload env.ephemeral env.ratchetPrivate env.pendingNow
        env.startedAt).wp
      (fun response _ => ∀ message ∈ response,
        node.Broadcasts .handshakeResp message env.send True)
      (fun err _ => node.Caught err) node.sessions := by
  unfold onHandshakeInit
  rw [settles_onSessions_bind]
  apply Method.wp_congr
  intro response manager
  cases response with
  | none => exact ⟨fun _ _ h => absurd h (Option.not_mem_none _), fun _ => trivial⟩
  | some response =>
    simp only [Option.mem_some_iff, forall_eq']
    exact settles_emit .handshakeResp env.send

/-- A RESP is answered by a broadcast, and then the application hears of the session. -/
lemma settles_onHandshakeResp :
    Settles (onHandshakeResp P payload env) node ↔
      (SessionManager.handleResponse P payload env.fresh env.pinNow env.establishedAt).wp
      (fun result manager => ∀ made ∈ result,
        node.Broadcasts .handshakeFin made.1 env.send (node.Announces manager made.2))
      (fun err _ => node.Caught err) node.sessions := by
  unfold onHandshakeResp
  rw [settles_onSessions_bind]
  apply Method.wp_congr
  intro result manager
  cases result with
  | none => exact ⟨fun _ _ h => absurd h (Option.not_mem_none _), fun _ => trivial⟩
  | some made =>
    simp only [Option.mem_some_iff, forall_eq']
    exact settles_emit_bind fun _ _ _ => settles_announceSession made.2

/-- After a FIN the application hears of the session. -/
lemma settles_onHandshakeFin :
    Settles (onHandshakeFin P payload env) node ↔
      (SessionManager.handleFin P payload env.fresh env.pinNow env.establishedAt).wp
      (fun result manager => ∀ session ∈ result, node.Announces manager session)
      (fun err _ => node.Caught err) node.sessions := by
  unfold onHandshakeFin
  rw [settles_onSessions_bind]
  apply Method.wp_congr
  intro result manager
  cases result with
  | none => exact ⟨fun _ _ h => absurd h (Option.not_mem_none _), fun _ => trivial⟩
  | some session =>
    simp only [Option.mem_some_iff, forall_eq']
    exact settles_announceSession session

omit [Alphabet β] in
/-- A peer that is discovered already is no news. -/
lemma settles_discover (candidate : PeerIdentity β) :
    Settles (onBeacon.discover candidate) node ↔ node.Discovers candidate := by
  unfold onBeacon.discover Discovers
  show Settles (if candidate.signingPublic ∈ node.discovered.keys then _ else _) node ↔ _
  split_ifs with hknown
  · exact ⟨fun _ h => absurd hknown h, fun _ => trivial⟩
  · have htaken : Settles (event (.discovered candidate)) { node with
        discovered := node.discovered.set candidate.signingPublic candidate } ↔
          node.Accepts (.discovered candidate) True := settles_event _
    exact htaken.trans ⟨fun h _ => h, fun h => h hknown⟩

/-- A beacon is news to the application if it is authentic, and at most one event. -/
lemma settles_onBeacon : Settles (onBeacon P payload) node ↔ node.TakesBeacon P payload := by
  unfold onBeacon TakesBeacon
  show Settles (if _ then _ else if _ then _ else if _ then _ else _) node ↔ _
  split_ifs with hshort hown hforged
  · exact ⟨fun _ h => absurd h (Nat.not_le.mpr hshort), fun _ => trivial⟩
  · exact ⟨fun _ _ h => absurd hown h, fun _ => trivial⟩
  · refine ⟨fun _ _ _ h => ?_, fun _ => trivial⟩
    rw [hforged] at h
    cases h
  · have hlong := Nat.not_lt.mp hshort
    have hsigned := Bool.of_not_eq_false hforged
    refine Iff.trans ?_ ⟨fun h _ _ _ => h, fun h => h hlong hown hsigned⟩
    show Settles (match node.sessions.trust.get (beaconCandidate payload).signingPublic with
      | some known => _
      | none => _) { node with stats := _ } ↔ _
    rcases node.sessions.trust.get (beaconCandidate payload).signingPublic with _ | known
    · exact settles_discover _
    · dsimp only
      split_ifs with hkey
      · exact settles_event _
      · exact settles_discover _

omit [DecidableEq β] in
/-- A text goes to the callback; any other plaintext goes nowhere. -/
lemma settles_onPlaintext (session : Session β X) (plaintext : Bytes β) :
    Settles (onPlaintext session plaintext) node ↔ node.TakesPlaintext session plaintext := by
  unfold Settles onPlaintext TakesPlaintext
  rcases decodeMessage plaintext with err | ⟨kind, timestamp, body⟩
  · exact Iff.rfl
  dsimp only [count]
  rw [Method.wp_update_bind, Method.wp_self_bind]
  cases kind with
  | text =>
    rcases node.onMessage with _ | onMessage
    · exact Iff.rfl
    dsimp only
    rcases node.sessions.peerOf session with _ | peer
    · exact Iff.rfl
    · exact settles_eval _
  | ack => rcases node.onMessage with _ | onMessage <;> exact Iff.rfl
  | nick => rcases node.onMessage with _ | onMessage <;> exact Iff.rfl

/-- A data payload may fail at the tag, at the decryption and at the callback. -/
lemma settles_onData {packet : Packet β} :
    Settles (onData P packet payload env) node ↔ node.TakesData P packet payload env := by
  unfold onData TakesData
  show Settles (Method.eval _ >>= _) node ↔ _
  unfold Settles
  rw [Method.wp_bind, Method.wp_eval]
  rcases node.sessions.sessionByTag P packet.dstTag env.dataNow with
    err | _ | ⟨signingPublic, session⟩
  · exact Iff.rfl
  · exact Iff.rfl
  · show (openData P signingPublic session payload env.fresh >>= _).wp _ _ node ↔ _
    rw [Method.wp_bind]
    dsimp only
    unfold Method.wp
    rcases hdecrypt : Session.decrypt P payload env.fresh session with ⟨err | plaintext, session'⟩
    · dsimp only [openData, onSession, Method.onField]
      rw [hdecrypt]
      cases err <;> simp [Caught]
    · dsimp only [openData, onSession, Method.onField]
      rw [hdecrypt]
      exact settles_onPlaintext session plaintext

/-- Handling a payload settles exactly where nothing that it calls raises past `_deliver`. -/
lemma settles_onPayload {packet : Packet β} :
    Settles (onPayload P packet payload env) node ↔ node.Handles P packet payload env := by
  unfold onPayload Handles
  cases packet.ptype with
  | handshakeInit => exact settles_onHandshakeInit
  | handshakeResp => exact settles_onHandshakeResp
  | handshakeFin => exact settles_onHandshakeFin
  | beacon => exact settles_onBeacon
  | data => exact settles_onData
  | cover => exact Iff.rfl
  | ack => exact Iff.rfl

end Settles

omit [Alphabet β] [DecidableEq β] in
/-- `_deliver` returns from an exception exactly where it catches it. -/
lemma onFailure_ok_iff {err : Exc β} {node : Node T X E} :
    (onFailure err node).1 = .ok () ↔ node.Caught err := by
  cases err <;> simp [onFailure, Caught, count, event]

/-- The `try` statement returns exactly where the payload is handled. -/
lemma handlePayload_ok_iff {packet : Packet β} {payload : Bytes β} {env : ReceiveEnv β X}
    {node : Node T X E} :
    (handlePayload P packet payload env node).1 = .ok () ↔ node.Handles P packet payload env := by
  rw [← settles_onPayload]
  unfold handlePayload Settles Method.wp
  rcases onPayload P packet payload env node with ⟨err | ⟨⟩, node'⟩
  · exact onFailure_ok_iff
  · simp

/-- `_deliver` returns exactly where the frame is delivered without an uncaught exception. -/
lemma deliver_ok_iff {packet : Packet β} {env : ReceiveEnv β X} {node : Node T X E} :
    (deliver P env packet node).1 = .ok () ↔ node.Delivers P packet env := by
  unfold deliver Delivers
  rw [Method.bind_apply]
  unfold reassemble Method.wp
  rw [Method.onField_apply]
  rcases Reassembler.add packet env.reassemblyNow node.reassembler with ⟨err | message, reassembler⟩
  · cases err <;> simp
  cases message with
  | none => simp
  | some payload =>
    simp only [Option.mem_some_iff, forall_eq']
    exact handlePayload_ok_iff

/-! ## Results -/

/-- The relay of a new frame that has hops to go is scheduled if and only if the frame is not for
this node, or it is and its delivery raises nothing that is not caught. -/
theorem relayed_iff (node : Node T X E) (packet : Packet β) (env : ReceiveEnv β X)
    (hunseen : Router.Unseen packet env.now node.router) (httl : 1 < packet.ttl) :
    Router.Schedules packet node.router (handle P packet env node).2.router ↔
      isForUs P env.tagNow packet node = .ok false ∨
        isForUs P env.tagNow packet node = .ok true ∧
          node.Delivers P packet env := by
  have hforwarded : (Frame.decrementTtl packet).isSome :=
    Option.isSome_iff_exists.mpr ⟨_, Packet.decrementTtl_eq_some_iff.mpr ⟨httl, rfl⟩⟩
  have hrouter := Router.handle_schedules_iff router_setRouter setRouter_setRouter
    (isForUs_setRouter P env.tagNow packet) (keeps_deliver (P := P) packet env) hunseen hforwarded
    env.delay
  rw [deliver_ok_iff] at hrouter
  exact hrouter

/-! ## A response that the radio refuses -/

/-- A link whose duty cycle is used up. -/
def exhaustedLink : Transport SymByte Unit where
  mtu := 200
  send _ := Method.raise (.dutyCycleExceeded 100)

/-- The responder, who has met nobody. -/
def responder : Node exhaustedLink ℕ ℕ where
  transport := ()
  sessions := {
    identity := { signingPrivate := 30, staticPrivate := 31 }, trust := TrustStore.empty none }
  capacity := 177
  capacity_eq := rfl

/-- What an initiator opens a handshake with the responder with. -/
def openingParts : Bytes SymByte × Bytes SymByte :=
  ((SessionManager.startHandshake symbolic (symbolic.x25519PublicBytes 31)
    ([1, 2, 3, 4].map ofOctet) 1 0 0 6000
    { identity := { signingPrivate := 10, staticPrivate := 11 }
      trust := TrustStore.empty none }).1.toOption).getD ([], [])

def opening : Packet SymByte :=
  .ofFields .handshakeInit openingParts.1 (zeros 8) openingParts.2 7 0 1 (by decide +kernel)

def openingEnv : ReceiveEnv SymByte ℕ where
  now := 0
  delay := 1 / 10
  tagNow := 6000
  dataNow := 6000
  reassemblyNow := 0
  ephemeral := 2
  ratchetPrivate := 3
  fresh := 4
  pendingNow := 0
  startedAt := 0
  pinNow := 6000
  establishedAt := 6000
  send := { timestamp := zeros 8, wallNow := 6000, msgId := zeros 8, clock := fun _ => 0 }

/-- A new frame that is for the responder, and whose delivery fails on the radio, is not relayed. -/
theorem refused_response_not_relayed :
    Router.Unseen opening openingEnv.now responder.router ∧ 1 < opening.ttl ∧
      isForUs symbolic openingEnv.tagNow opening responder = .ok true ∧
      (handle symbolic opening openingEnv responder).1 = .error (.dutyCycleExceeded 100) ∧
      ¬ Router.Schedules opening responder.router
        (handle symbolic opening openingEnv responder).2.router := by
  refine ⟨by decide +kernel, by decide, by decide +kernel, by decide +kernel, ?_⟩
  apply Router.not_schedules_of_timers
  have hnone : (handle symbolic opening openingEnv responder).2.router.timers.length = 0 := by
    decide +kernel
  exact List.length_eq_zero_iff.mp hnone

/-- Another node, which the opening is not for, relays it. -/
theorem relayed_iff_bystander :
    let bystander : Node exhaustedLink ℕ ℕ := { responder with
      sessions := {
        identity := { signingPrivate := 20, staticPrivate := 21 }
        trust := TrustStore.empty none } }
    Router.Schedules opening bystander.router
      (handle symbolic opening openingEnv bystander).2.router := by
  intro bystander
  have hiff := relayed_iff (P := symbolic) bystander opening openingEnv (by decide +kernel)
    (by decide)
  exact hiff.mpr (Or.inl (by decide +kernel))

end Node

end Chatbit
