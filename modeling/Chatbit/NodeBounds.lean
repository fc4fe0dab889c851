import Chatbit.Inbound
import Chatbit.Mesh.Replay
import Chatbit.SessionLimits
import Chatbit.Wire.ReassemblyBounds

/-!
# What hostile traffic fills

The frames that arrive fill the dedup cache, the reassembly buffer, the pending handshakes and the
relay store, which have limits (`Node.Bounded`), and the discovered peers, the pinned peers and the
sessions, which have none.
-/

namespace Chatbit

open Lib Method

variable {β X E τ : Type} [Alphabet β] [DecidableEq β] {P : Primitives β X E}
  {mesh : MeshConfig}

/-! ## Inbound traffic -/

/-- A frame arrives, the event loop runs a timer, or the send of a relay task has returned or
raised. -/
inductive InboundEvent (β X : Type) where
  | frame (data : Bytes β) (rssi : Option ℚ) (env : ReceiveEnv β X)
  | fire (n : ℕ)
  | relayEnds (n : ℕ) (sent : Bool) (now : ℚ)

/-- What the event reads from the monotonic clock, in order, before it answers. -/
def InboundEvent.readings : InboundEvent β X → List ℚ
  | .frame _ _ env => [env.now, env.reassemblyNow, env.pendingNow, env.startedAt]
  | .fire _ => []
  | .relayEnds _ _ now => [now]

namespace Node

variable {T : Transport β τ}

/-- `__init__` -/
def new (T : Transport β τ) (mesh : MeshConfig) (transport : τ) (identity : Identity X E)
    (trust : TrustStore β) (onMessage : Option (IncomingMessage β → Except (Exc β) Unit))
    (onEvent : Event β → Except (Exc β) Unit) {capacity : ℕ}
    (hcapacity : capacityFor (β := β) T.mtu HEADER_LEN = .ok capacity) : Node T X E where
  mesh := mesh
  transport := transport
  sessions := { identity := identity, trust := trust }
  router := Router.new mesh
  onMessage := onMessage
  onEvent := onEvent
  capacity := capacity
  capacity_eq := hcapacity

/-- What an event leaves of the node. -/
def inbound (P : Primitives β X E) (node : Node T X E) : InboundEvent β X → Node T X E
  | .frame data rssi env => receiveFrame P data rssi env node
  | .fire n =>
    match node.router.timers[n]? with
    | none => node
    | some handle => node.setRouter (Router.fireRelay handle { node.router with
        timers := node.router.timers.eraseIdx n })
  | .relayEnds n sent now =>
    match node.router.relayTasks[n]? with
    | none => node
    | some packet => node.setRouter (Router.finishRelay node.mesh packet sent now { node.router with
        relayTasks := node.router.relayTasks.eraseIdx n }).2

/-- How many entries there are in the dedup cache, in the reassembly buffer, in the relay store, of
pending handshakes, of discovered and of pinned peers, and of sessions. -/
def sizes (node : Node T X E) : List ℕ :=
  [node.router.dedup.seen.length, node.reassembler.pending.length, node.router.store.length,
    node.sessions.pending.length, node.discovered.length, node.sessions.trust.peers.length,
    node.sessions.sessions.length]

end Node

/-! ## The router -/

/-- The cache has its capacity, and is not above it. -/
def DedupCache.Within (capacity : ℕ) (cache : DedupCache β) : Prop :=
  cache.capacity = capacity ∧ cache.seen.length ≤ capacity

omit [Alphabet β] in
/-- A key that goes in pushes the oldest out of a full cache. -/
lemma DedupCache.ensures_checkSeen (capacity : ℕ) (key : Bytes β × ℕ) (now : ℚ) :
    Ensures (Within capacity) (fun _ => True)
      (checkSeen key now : Method (Exc β) (DedupCache β) Bool) := by
  refine ensures_true_iff.mpr fun cache ⟨hcapacity, hlen⟩ => ?_
  by_cases hmem : key ∈ (cache.expire now).seen.keys
  · rw [checkSeen_of_mem hmem]
    exact ⟨hcapacity, (List.dropWhile_sublist _).length_le.trans hlen⟩
  · rw [checkSeen_of_not_mem hmem]
    exact ⟨hcapacity, (OrderedDict.length_evictOldest_le _ _).trans_eq hcapacity⟩

namespace Router

/-- The cache and the store of a router are within the limits of its configuration. -/
structure Within (mesh : MeshConfig) (router : Router β) : Prop where
  dedup : router.dedup.Within mesh.dedupCacheSize
  store : router.store.length ≤ mesh.storeCapacity

omit [Alphabet β] in
/-- Marking a frame as seen touches the cache only. -/
lemma ensures_markSeen (packet : Packet β) (now : ℚ) :
    Ensures (Within mesh) (fun _ => True) (markSeen packet now) :=
  .onField (fun _ h => h.dedup) (fun _ _ h hdedup => ⟨hdedup, h.store⟩)
    (DedupCache.ensures_checkSeen _ _ _)

omit [Alphabet β] in
/-- The timers of relays have no limit to keep. -/
lemma Within.cancelPendingRelay {router : Router β} (h : router.Within mesh)
    (key : Bytes β × ℕ) : (router.cancelPendingRelay key).Within mesh := by
  unfold Router.cancelPendingRelay
  split
  · exact h
  · exact ⟨h.dedup, h.store⟩

omit [Alphabet β] in
/-- Scheduling a relay stores nothing. -/
lemma Within.scheduleRelay {router : Router β} (h : router.Within mesh) (packet : Packet β)
    (delay : ℚ) : (router.scheduleRelay packet delay).Within mesh := by
  unfold Router.scheduleRelay
  split
  · exact ⟨h.dedup, h.store⟩
  · exact ⟨h.dedup, h.store⟩

omit [Alphabet β] in
/-- A frame that comes in is counted, looked up and, if it was seen, dropped. -/
lemma ensures_accept (packet : Packet β) (now : ℚ) :
    Ensures (Within mesh) (fun _ => True) (accept packet now) := by
  refine .bind (.update fun _ h => ⟨h.dedup, h.store⟩) fun _ _ =>
    .bind (ensures_markSeen _ _) fun seen _ => ?_
  split_ifs
  · exact .bind (.update fun _ h => ⟨h.dedup, h.store⟩) fun _ _ =>
      .bind (.update fun _ h => h.cancelPendingRelay _) fun _ _ => .pure trivial
  · exact .pure trivial

omit [Alphabet β] [DecidableEq β] in
/-- A full store drops its oldest frame before it takes another. -/
lemma Within.storeFrame {router : Router β} (h : router.Within mesh) (packet : Packet β)
    (now : ℚ) : (router.storeFrame mesh packet now).2.Within mesh := by
  have hstore := h.store
  unfold Router.storeFrame
  split_ifs with hforward
  · rw [Method.self_bind]
    split_ifs with hfull
    · rcases hentries : router.store with _ | ⟨oldest, rest⟩
      · exact h
      · -- the oldest entry makes room
        refine ⟨h.dedup, ?_⟩
        rw [hentries] at hstore
        show (rest ++ _).length ≤ _
        rw [List.length_append]
        exact hstore
    · refine ⟨h.dedup, ?_⟩
      show (router.store ++ _).length ≤ _
      rw [List.length_append]
      exact not_le.mp hfull
  · exact h

omit [Alphabet β] [DecidableEq β] in
/-- A relay that was not sent goes to the store. -/
lemma Within.finishRelay {router : Router β} (h : router.Within mesh) (packet : Packet β)
    (sent : Bool) (now : ℚ) : (router.finishRelay mesh packet sent now).2.Within mesh := by
  unfold Router.finishRelay
  split_ifs
  · exact ⟨h.dedup, h.store⟩
  · exact h.storeFrame packet now
  · exact h

end Router

/-! ## The session manager -/

namespace SessionManager

/-- The pending handshakes are within their limit. -/
def Bounded (manager : SessionManager β X E) : Prop :=
  manager.pending.length ≤ MAX_PENDING_HANDSHAKES

/-- `handle_init` keeps the limit on pending handshakes, which it checks. -/
lemma bounded_handleInit (payload : Bytes β) (ephemeral ratchetPrivate : X)
    (now startedAt : ℚ) : Ensures Bounded (fun _ => True)
      (handleInit P payload ephemeral ratchetPrivate now startedAt :
        Method (Exc β) (SessionManager β X E) _) :=
  ensures_true_iff.mpr fun _ h => length_pending_handleInit _ _ _ _ _ h

/-- `handle_response` adds no pending handshake. -/
lemma bounded_handleResponse (payload : Bytes β) (fresh : X) (now establishedAt : ℚ) :
    Ensures Bounded (fun _ => True)
      (handleResponse P payload fresh now establishedAt :
        Method (Exc β) (SessionManager β X E) _) :=
  ensures_true_iff.mpr fun _ h => (length_pending_handleResponse _ _ _ _).trans h

/-- Nor does `handle_fin`. -/
lemma bounded_handleFin (payload : Bytes β) (fresh : X) (now establishedAt : ℚ) :
    Ensures Bounded (fun _ => True)
      (handleFin P payload fresh now establishedAt :
        Method (Exc β) (SessionManager β X E) _) :=
  ensures_true_iff.mpr fun _ h => (length_pending_handleFin _ _ _ _).trans h

end SessionManager

/-! ## The node -/

namespace Node

variable {T : Transport β τ}

/-- What has a limit is within it. -/
structure Bounded (mesh : MeshConfig) (node : Node T X E) : Prop where
  mesh_eq : node.mesh = mesh
  router : node.router.Within mesh
  reassembler : ∃ now, Reassembler.Bounded {} now node.reassembler
  sessions : node.sessions.Bounded

/-! ### Sending -/

omit [Alphabet β] [DecidableEq β] in
/-- The application is told of an event, and no buffer fills. -/
lemma ensures_event (e : Event β) :
    Ensures (Bounded mesh) (fun _ => True) (event e : Method (Exc β) (Node T X E) Unit) :=
  .bind .self fun _ _ => .eval fun _ _ => trivial

omit [Alphabet β] [DecidableEq β] in
/-- The statistics are no buffer. -/
lemma ensures_count (f : NodeStats → NodeStats) :
    Ensures (Bounded mesh) (fun _ => True) (count f : Method (Exc β) (Node T X E) Unit) :=
  .update fun _ h => { h with }

omit [DecidableEq β] in
/-- Nor is the transport. -/
lemma ensures_transmit (packet : Packet β) :
    Ensures (Bounded mesh) (fun _ => True)
      (transmit packet : Method (Exc β) (Node T X E) Unit) :=
  .bind .self fun _ _ => .bind (.eval fun _ _ => trivial) fun _ _ =>
    .bind (.update fun _ h => { h with })
      fun _ _ =>
    .onField (J := fun _ => True) (fun _ _ => trivial)
      (fun _ _ h _ => { h with })
      (ensures_true_iff.mpr fun _ _ => trivial)

/-- Each packet that is originated is marked in the cache. -/
lemma ensures_originateAll (clock : ℕ → ℚ) (packets : List (Packet β)) :
    Ensures (Bounded mesh) (fun _ => True)
      (originateAll clock packets : Method (Exc β) (Node T X E) Unit) := by
  induction packets with
  | nil => exact .pure trivial
  | cons packet packets ih =>
    refine .bind (Q := fun _ => True) ?_ fun _ _ => ih
    exact .bind (.onField (fun _ h => h.router)
      (fun _ _ h hrouter => { h with router := hrouter })
      (Router.ensures_markSeen _ _)) fun _ _ => ensures_transmit _

/-- Sending a payload fills the cache only. -/
lemma ensures_emit (ptype : PacketType) (payload dstTag : Bytes β) (env : SendEnv β) :
    Ensures (Bounded mesh) (fun _ => True)
      (emit ptype payload dstTag env : Method (Exc β) (Node T X E) Unit) :=
  .bind .self fun _ _ => .bind (.eval fun _ _ => trivial) fun _ _ => ensures_originateAll _ _

/-! ### Handshakes -/

omit [Alphabet β] [DecidableEq β] in
/-- A call on the session manager has to keep the limits of the manager. -/
lemma ensures_onSessions {α : Type} {Q : α → Prop} {m : Method (Exc β) (SessionManager β X E) α}
    (hm : Ensures SessionManager.Bounded Q m) :
    Ensures (Bounded mesh) Q (onSessions m : Method (Exc β) (Node T X E) α) :=
  .onField (fun _ h => h.sessions)
    (fun _ _ h hsessions => { h with sessions := hsessions }) hm

omit [Alphabet β] [DecidableEq β] in
/-- News of a session fills nothing. -/
lemma ensures_announceSession (session : Session β X) :
    Ensures (Bounded mesh) (fun _ => True)
      (announceSession session : Method (Exc β) (Node T X E) Unit) := by
  refine .bind .self fun node _ => ?_
  split
  · exact .raise _
  · refine .bind (ensures_event _) fun _ _ => ?_
    split_ifs
    · exact ensures_event _
    · exact .pure trivial

/-- The INIT handler files the handshake and answers it. -/
lemma ensures_onHandshakeInit (payload : Bytes β) (env : ReceiveEnv β X) :
    Ensures (Bounded mesh) (fun _ => True)
      (onHandshakeInit P payload env : Method (Exc β) (Node T X E) Unit) := by
  refine .bind (ensures_onSessions (SessionManager.bounded_handleInit _ _ _ _ _))
    fun response _ => ?_
  cases response with
  | none => exact .pure trivial
  | some response => exact ensures_emit _ _ _ _

/-- The RESP handler ends a pending handshake, and sends the FIN. -/
lemma ensures_onHandshakeResp (payload : Bytes β) (env : ReceiveEnv β X) :
    Ensures (Bounded mesh) (fun _ => True)
      (onHandshakeResp P payload env : Method (Exc β) (Node T X E) Unit) := by
  refine .bind (ensures_onSessions (SessionManager.bounded_handleResponse _ _ _ _))
    fun answer _ => ?_
  cases answer with
  | none => exact .pure trivial
  | some answer =>
    exact .bind (ensures_emit _ _ _ _) fun _ _ => .bind (ensures_count _) fun _ _ =>
      ensures_announceSession _

/-- The FIN handler ends a pending handshake. -/
lemma ensures_onHandshakeFin (payload : Bytes β) (env : ReceiveEnv β X) :
    Ensures (Bounded mesh) (fun _ => True)
      (onHandshakeFin P payload env : Method (Exc β) (Node T X E) Unit) := by
  refine .bind (ensures_onSessions (SessionManager.bounded_handleFin _ _ _ _))
    fun session _ => ?_
  cases session with
  | none => exact .pure trivial
  | some session => exact .bind (ensures_count _) fun _ _ => ensures_announceSession _

/-! ### Beacons -/

omit [Alphabet β] in
/-- A discovered peer goes into the dictionary that has no limit. -/
lemma ensures_discover (candidate : PeerIdentity β) :
    Ensures (Bounded mesh) (fun _ => True)
      (onBeacon.discover candidate : Method (Exc β) (Node T X E) Unit) := by
  refine .bind .self fun node _ => ?_
  split_ifs
  · exact .pure trivial
  · exact .bind (.update fun _ h => { h with }) fun _ _ => ensures_event _

/-- A beacon may discover a peer, and nothing else. -/
lemma ensures_onBeacon (payload : Bytes β) :
    Ensures (Bounded mesh) (fun _ => True)
      (onBeacon P payload : Method (Exc β) (Node T X E) Unit) := by
  refine .bind .self fun node _ => ?_
  dsimp only
  split_ifs
  · exact .pure trivial
  · exact .pure trivial
  · exact .pure trivial
  refine .bind (ensures_count _) fun _ _ => ?_
  split
  · split_ifs
    · exact ensures_event _
    · exact ensures_discover _
  · exact ensures_discover _

/-! ### Messages -/

omit [DecidableEq β] in
/-- The callback takes the text, which is kept nowhere. -/
lemma ensures_onPlaintext (session : Session β X) (plaintext : Bytes β) :
    Ensures (Bounded mesh) (fun _ => True)
      (onPlaintext session plaintext : Method (Exc β) (Node T X E) Unit) := by
  unfold onPlaintext
  split
  · exact .pure trivial
  refine .bind (ensures_count _) fun _ _ => .bind .self fun node _ => ?_
  split
  · split
    · exact .raise _
    · exact .eval fun _ _ => trivial
  · exact .pure trivial

/-- Decrypting changes a session that is there. -/
lemma ensures_openData (k : Bytes β) (session : Session β X) (payload : Bytes β)
    (fresh : X) : Ensures (Bounded mesh) (fun _ => True)
      (openData P k session payload fresh : Method (Exc β) (Node T X E) _) := by
  refine ensures_true_iff.mpr fun node h => ?_
  have hsession :
      (onSession k session (Session.decrypt P payload fresh) node).2.Bounded mesh :=
    { h with sessions := h.sessions }
  unfold openData
  rcases hcall : onSession k session (Session.decrypt P payload fresh) node with
    ⟨err | plaintext, node'⟩
  · rw [hcall] at hsession
    cases err with
    | sessionError =>
      exact { hsession with }
    | _ => exact hsession
  · rwa [hcall] at hsession

/-- A data payload changes the session that owns its tag. -/
lemma ensures_onData (packet : Packet β) (payload : Bytes β) (env : ReceiveEnv β X) :
    Ensures (Bounded mesh) (fun _ => True)
      (onData P packet payload env : Method (Exc β) (Node T X E) Unit) := by
  refine .bind .self fun node _ => .bind (.eval fun _ _ => trivial) fun found _ => ?_
  cases found with
  | none => exact .pure trivial
  | some entry =>
    refine .bind (ensures_openData _ _ _ _) fun plaintext _ => ?_
    cases plaintext with
    | none => exact .pure trivial
    | some plaintext => exact ensures_onPlaintext _ _

/-! ### Delivery -/

omit [Alphabet β] in
/-- The reassembler keeps its own limits. -/
lemma ensures_reassemble (packet : Packet β) (now : ℚ) :
    Ensures (Bounded mesh) (fun _ => True)
      (reassemble packet now : Method (Exc β) (Node T X E) _) := by
  refine ensures_true_iff.mpr fun node h => ?_
  obtain ⟨earlier, hbounded⟩ := h.reassembler
  have hpos : 1 ≤ MAX_PENDING_MESSAGES := by decide
  have htimeout : 0 ≤ REASSEMBLY_TIMEOUT := by decide +kernel
  have hadd : ({ node with reassembler := (Reassembler.add packet now node.reassembler).2 } :
      Node T X E).Bounded mesh :=
    { h with reassembler := ⟨now, hbounded.add hpos htimeout packet now⟩ }
  unfold reassemble
  rw [Method.onField_apply]
  split
  · rename_i heq
    rw [← (Prod.mk.inj heq).2]
    exact hadd
  · exact hadd

omit [Alphabet β] [DecidableEq β] in
/-- A failure is counted and told. -/
lemma ensures_onFailure (err : Exc β) :
    Ensures (Bounded mesh) (fun _ => True)
      (onFailure err : Method (Exc β) (Node T X E) Unit) := by
  cases err with
  | keyChangedError => exact .bind (ensures_count _) fun _ _ => ensures_event _
  | sessionError => exact .bind (ensures_count _) fun _ _ => ensures_event _
  | _ => exact .raise _

/-- Each of the handlers keeps the limits. -/
lemma ensures_onPayload (packet : Packet β) (payload : Bytes β) (env : ReceiveEnv β X) :
    Ensures (Bounded mesh) (fun _ => True)
      (onPayload P packet payload env : Method (Exc β) (Node T X E) Unit) := by
  unfold onPayload
  cases packet.ptype with
  | handshakeInit => exact ensures_onHandshakeInit _ _
  | handshakeResp => exact ensures_onHandshakeResp _ _
  | handshakeFin => exact ensures_onHandshakeFin _ _
  | beacon => exact ensures_onBeacon _
  | data => exact ensures_onData _ _ _
  | cover | ack => exact .pure trivial

/-- A delivery is the reassembler and one of the handlers. -/
lemma ensures_deliver (env : ReceiveEnv β X) (packet : Packet β) :
    Ensures (Bounded mesh) (fun _ => True)
      (deliver P env packet : Method (Exc β) (Node T X E) Unit) := by
  refine .bind (ensures_reassemble _ _) fun payload _ => ?_
  cases payload with
  | none => exact .pure trivial
  | some payload =>
    refine ensures_true_iff.mpr fun node h => ?_
    have hpayload : (onPayload P packet payload env node).2.Bounded mesh :=
      (ensures_onPayload packet payload env).snd h
    show (handlePayload P packet payload env node).2.Bounded mesh
    unfold handlePayload
    rcases hcall : onPayload P packet payload env node with ⟨err | _, node'⟩
    · rw [hcall] at hpayload
      exact (ensures_onFailure err).snd hpayload
    · rwa [hcall] at hpayload

omit [Alphabet β] [DecidableEq β] in
/-- A node may go on with another router that is within the limits. -/
lemma Bounded.setRouter {node : Node T X E} {router : Router β} (h : node.Bounded mesh)
    (hrouter : router.Within mesh) : (node.setRouter router).Bounded mesh :=
  { h with router := hrouter }

/-- The router keeps its limits on both sides of a delivery. -/
lemma ensures_handle (packet : Packet β) (env : ReceiveEnv β X) :
    Ensures (Bounded mesh) (fun _ => True)
      (handle P packet env : Method (Exc β) (Node T X E) Unit) := by
  have hrelay : Ensures (Bounded mesh) (fun _ => True)
      (Method.onField router setRouter (Method.update (Router.scheduleRelay packet env.delay)) :
        Method (Exc β) (Node T X E) Unit) :=
    .onField (fun _ h => h.router) (fun _ _ h => h.setRouter)
      (.update fun _ h => h.scheduleRelay packet env.delay)
  refine .bind (.onField (fun _ h => h.router) (fun _ _ h => h.setRouter)
    (Router.ensures_accept packet env.now)) fun new _ => ?_
  split_ifs
  · refine .bind .self fun node _ => .bind (.eval fun _ _ => trivial) fun forUs _ => ?_
    dsimp only
    split_ifs
    · exact .bind (.onField (fun _ h => h.router) (fun _ _ h => h.setRouter)
        (.update fun _ h => ⟨h.dedup, h.store⟩)) fun _ _ =>
        .bind (ensures_deliver _ _) fun _ _ => hrelay
    · exact hrelay
  · exact .pure trivial

/-! ### What comes in -/

/-- One turn of the receive loop keeps the limits, also where it raises. -/
lemma Bounded.receiveFrame {node : Node T X E} (h : node.Bounded mesh) (data : Bytes β)
    (rssi : Option ℚ) (env : ReceiveEnv β X) :
    (receiveFrame P data rssi env node).Bounded mesh := by
  unfold Node.receiveFrame
  split
  · exact h
  · exact (ensures_handle _ _).snd
      { h with }

/-- So does each event of inbound traffic. -/
lemma Bounded.inbound {node : Node T X E} (h : node.Bounded mesh) (event : InboundEvent β X) :
    (inbound P node event).Bounded mesh := by
  cases event with
  | frame data rssi env => exact h.receiveFrame data rssi env
  | fire n =>
    dsimp only [Node.inbound]
    split
    · exact h
    · exact h.setRouter ⟨h.router.dedup, h.router.store⟩
  | relayEnds n sent now =>
    dsimp only [Node.inbound]
    split
    · exact h
    · rename_i packet _
      have hrouter : Router.Within mesh { node.router with
          relayTasks := node.router.relayTasks.eraseIdx n } := ⟨h.router.dedup, h.router.store⟩
      rw [h.mesh_eq]
      exact h.setRouter (hrouter.finishRelay packet sent now)

/-- So does any traffic. -/
lemma Bounded.foldl_inbound {node : Node T X E} (h : node.Bounded mesh)
    (events : List (InboundEvent β X)) : (events.foldl (Node.inbound P) node).Bounded mesh := by
  induction events generalizing node with
  | nil => exact h
  | cons event events ih => exact ih (h.inbound event)

/-! ## The limits -/

/-- The dedup cache, the reassembly buffer, the relay store and the pending handshakes together. -/
def limits (mesh : MeshConfig) : ℕ :=
  mesh.dedupCacheSize + MAX_PENDING_MESSAGES + mesh.storeCapacity + MAX_PENDING_HANDSHAKES

omit [Alphabet β] [DecidableEq β] in
/-- With few discovered peers, pinned peers and sessions, every buffer has a bound. -/
lemma Bounded.sizes_le {node : Node T X E} (h : node.Bounded mesh) {n : ℕ}
    (hdiscovered : node.discovered.length ≤ n) (hpeers : node.sessions.trust.peers.length ≤ n)
    (hfiled : node.sessions.sessions.length ≤ n) : ∀ size ∈ node.sizes, size ≤ limits mesh + n := by
  obtain ⟨now, hreassembler⟩ := h.reassembler
  have hreassembled : node.reassembler.pending.length ≤ MAX_PENDING_MESSAGES := hreassembler.pending
  have hdedup := h.router.dedup.2
  have hstore := h.router.store
  have hpending : node.sessions.pending.length ≤ MAX_PENDING_HANDSHAKES := h.sessions
  simp only [sizes, List.forall_mem_cons, limits]
  refine ⟨?_, ?_, ?_, ?_, ?_, ?_, ?_, fun _ hmem => absurd hmem List.not_mem_nil⟩
  all_goals omega

omit [Alphabet β] [DecidableEq β] in
/-- A new node. -/
lemma bounded_new (mesh : MeshConfig) (transport : τ) (identity : Identity X E)
    (trust : TrustStore β) (onMessage : Option (IncomingMessage β → Except (Exc β) Unit))
    (onEvent : Event β → Except (Exc β) Unit) {capacity : ℕ}
    (hcapacity : capacityFor (β := β) T.mtu HEADER_LEN = .ok capacity) :
    (new (X := X) (E := E) T mesh transport identity trust onMessage onEvent
      hcapacity).Bounded mesh where
  mesh_eq := rfl
  router := ⟨⟨rfl, Nat.zero_le _⟩, Nat.zero_le _⟩
  reassembler := ⟨0, ⟨rfl, rfl, rfl⟩, Nat.zero_le _, fun _ hmem => absurd hmem List.not_mem_nil⟩
  sessions := Nat.zero_le _

end Node

end Chatbit
