import Chatbit.NodeCalls
import Chatbit.Wire.ReassemblyTheorems

/-!
# What a node feeds to its reassembler

A frame is fed to the reassembler if its packet is new to the router and is for this node. Nothing
else that happens to a node touches the reassembler, so in every run it is as the fed packets have
left it (`Node.reassembler_run`).
-/

namespace Chatbit

open Lib Method

variable {β X E τ : Type} [Alphabet β] [DecidableEq β] (P : Primitives β X E)

namespace Node

variable {T : Transport β τ}

/-- The call on the reassembler that `_deliver` makes, if the packet is new and for us. -/
def feedsPacket (packet : Packet β) (env : ReceiveEnv β X) (node : Node T X E) :
    Option (Packet β × ℚ) :=
  if Router.Unseen packet env.now node.router then
    match isForUs P env.tagNow packet node with
    | .ok true => some (packet, env.reassemblyNow)
    | _ => none
  else none

/-- The call on the reassembler that an event makes. -/
def feeds (node : Node T X E) : NodeEvent β X → Option (Packet β × ℚ)
  | .inbound (.frame data _ env) =>
    match Packet.decode data with
    | .error _ => none
    | .ok packet => node.feedsPacket P packet env
  | _ => none

/-- The calls that a run makes, in order. -/
def fedBy (node : Node T X E) : List (NodeEvent β X) → List (Packet β × ℚ)
  | [] => []
  | event :: events => (node.feeds P event).toList ++ (node.step P event).fedBy events

variable {P}

/-- A payload arrives with the call that completes it. -/
lemma arrives_eq_some_iff {node : Node T X E} {data : Bytes β} {env : ReceiveEnv β X}
    {packet : Packet β} {payload : Bytes β} (rssi : Option ℚ) :
    node.arrives P data env = some (packet, payload) ↔
      node.feeds P (.inbound (.frame data rssi env)) = some (packet, env.reassemblyNow) ∧
      (Reassembler.add packet env.reassemblyNow node.reassembler).1 = .ok (some payload) := by
  rw [arrives, feeds]
  rcases Packet.decode data with err | packet'
  · simp
  show ((node.completes P packet' env).map fun payload => (packet', payload)) = _ ↔
    node.feedsPacket P packet' env = _ ∧ _
  rw [completes, feedsPacket]
  by_cases hunseen : Router.Unseen packet' env.now node.router
  · rw [if_pos hunseen, if_pos hunseen]
    rcases isForUs P env.tagNow packet' node with err | ours
    · simp
    cases ours with
    | false => simp
    | true =>
      rcases hadd : (Reassembler.add packet' env.reassemblyNow node.reassembler).1 with
        err | _ | payload' <;> simp <;> rintro rfl <;> simp [hadd]
  · simp [hunseen]

/-! ## Handlers do not touch the reassembler -/

section Handlers

variable {ρ : Type} {R : ρ → ρ → Prop} [IsPreorder ρ R] {f : Node T X E → ρ}

/-- What `f` reads moves by `R` when a handler sends something, and otherwise it does not read what
the handlers of a payload change, that of beacons apart. -/
structure Answers (R : ρ → ρ → Prop) (f : Node T X E → ρ) : Prop where
  sessions : ∀ sessions node, f { node with sessions := sessions } = f node
  stats : ∀ stats node, f { node with stats := stats } = f node
  emit : ∀ ptype payload dstTag env,
    Method.Moves R f (emit ptype payload dstTag env : Method (Exc β) (Node T X E) Unit)

namespace Answers

variable (hf : Answers R f)
include hf

/-- A call on the manager is not seen. -/
lemma onSessions {α : Type} (m : Method (Exc β) (SessionManager β X E) α) :
    Method.Moves R f (onSessions m : Method (Exc β) (Node T X E) α) :=
  Keeps.moves (.onField hf.sessions _)

/-- An INIT is seen by the answer only. -/
lemma onHandshakeInit (payload : Bytes β) (env : ReceiveEnv β X) :
    Method.Moves R f (onHandshakeInit P payload env : Method (Exc β) (Node T X E) Unit) := by
  refine .bind (hf.onSessions _) fun response => ?_
  rcases response with _ | response
  · exact Keeps.moves (.pure _ ())
  · exact hf.emit _ _ _ _

/-- A RESP is seen by the FIN only. -/
lemma onHandshakeResp (payload : Bytes β) (env : ReceiveEnv β X) :
    Method.Moves R f (onHandshakeResp P payload env : Method (Exc β) (Node T X E) Unit) := by
  refine .bind (hf.onSessions _) fun result => ?_
  rcases result with _ | ⟨fin, session⟩
  · exact Keeps.moves (.pure _ ())
  · exact .bind (hf.emit _ _ _ _) fun _ => Keeps.moves
      (.bind (.update fun _ => hf.stats _ _) fun _ => announceSession_keeps session)

/-- A FIN is not seen. -/
lemma onHandshakeFin (payload : Bytes β) (env : ReceiveEnv β X) :
    Method.Moves R f (onHandshakeFin P payload env : Method (Exc β) (Node T X E) Unit) := by
  refine .bind (hf.onSessions _) fun session => ?_
  rcases session with _ | session
  · exact Keeps.moves (.pure _ ())
  · exact Keeps.moves (.bind (.update fun _ => hf.stats _ _) fun _ =>
      announceSession_keeps session)

omit [IsPreorder ρ R] in
/-- Nor is opening a data payload. -/
lemma openData (signingPublic : Bytes β) (session : Session β X) (payload : Bytes β) (fresh : X) :
    Keeps f (openData P signingPublic session payload fresh :
      Method (Exc β) (Node T X E) (Option (Bytes β))) := by
  intro node
  have hcall : Keeps f (onSession signingPublic session (Session.decrypt P payload fresh) :
      Method (Exc β) (Node T X E) (Bytes β)) := .onField (fun _ _ => hf.sessions _ _) _
  have hnode := hcall node
  unfold Node.openData
  revert hnode
  generalize onSession signingPublic session (Session.decrypt P payload fresh) node = result
  obtain ⟨err | plaintext, node'⟩ := result
  · intro hnode
    cases err with
    | sessionError msg => exact (hf.stats _ _).trans hnode
    | _ => exact hnode
  · exact id

omit [IsPreorder ρ R] in
/-- Nor is the whole of its handler. -/
lemma onData (packet : Packet β) (payload : Bytes β) (env : ReceiveEnv β X) :
    Keeps f (onData P packet payload env : Method (Exc β) (Node T X E) Unit) := by
  refine .bind (.self _) fun node => .bind (.eval _ _) fun found => ?_
  rcases found with _ | ⟨signingPublic, session⟩
  · exact .pure _ ()
  · refine .bind (hf.openData _ _ _ _) fun plaintext => ?_
    rcases plaintext with _ | plaintext
    · exact .pure _ ()
    · exact onPlaintext_keeps hf.stats session plaintext

/-- Of the handlers only the one for beacons may do more. -/
lemma onPayload {packet : Packet β} {payload : Bytes β} (env : ReceiveEnv β X)
    (hbeacon : packet.ptype = .beacon →
      Method.Moves R f (onBeacon P payload : Method (Exc β) (Node T X E) Unit)) :
    Method.Moves R f (onPayload P packet payload env : Method (Exc β) (Node T X E) Unit) := by
  unfold Node.onPayload
  cases hptype : packet.ptype with
  | handshakeInit => exact hf.onHandshakeInit payload env
  | handshakeResp => exact hf.onHandshakeResp payload env
  | handshakeFin => exact hf.onHandshakeFin payload env
  | beacon => exact hbeacon hptype
  | data => exact (hf.onData packet payload env).moves
  | cover | ack => exact Keeps.moves (.pure _ ())

omit [IsPreorder ρ R] in
/-- What is caught is not seen. -/
lemma onFailure (err : Exc β) :
    Keeps f (onFailure err : Method (Exc β) (Node T X E) Unit) := by
  cases err with
  | keyChangedError | sessionError =>
    exact .bind (.update fun _ => hf.stats _ _) fun _ => event_keeps _
  | _ => exact fun _ => rfl

/-- So the `try` statement moves `f` as the handlers do. -/
lemma handlePayload {packet : Packet β} {payload : Bytes β} (env : ReceiveEnv β X)
    (hbeacon : packet.ptype = .beacon →
      Method.Moves R f (onBeacon P payload : Method (Exc β) (Node T X E) Unit)) :
    Method.Moves R f (handlePayload P packet payload env : Method (Exc β) (Node T X E) Unit) := by
  intro node
  have hpayload := hf.onPayload env hbeacon node
  unfold Node.handlePayload
  revert hpayload
  generalize Node.onPayload P packet payload env node = result
  obtain ⟨err | ⟨⟩, node'⟩ := result
  · intro hpayload
    rw [show f (Node.onFailure err node').2 = f node' from hf.onFailure err node']
    exact hpayload
  · exact id

/-- Starting a handshake is seen by the INIT only. -/
lemma connect (peerStaticPublic hsId : Bytes β) (ephemeral : X) (now startedAt : ℚ)
    (env : SendEnv β) :
    Method.Moves R f (connect P peerStaticPublic hsId ephemeral now startedAt env :
      Method (Exc β) (Node T X E) Unit) :=
  .bind (hf.onSessions _) fun _ => hf.emit _ _ _ _

/-- A text is seen by its frames only. -/
lemma sendText (signingPublic : Bytes β) (text : String) (env : SendEnv β) :
    Method.Moves R f (sendText P signingPublic text env : Method (Exc β) (Node T X E) Bool) := by
  refine .bind (Keeps.moves (.self _)) fun node => ?_
  split
  · exact Keeps.moves (.pure _ _)
  · exact .bind (Keeps.moves (.onField (fun _ _ => hf.sessions _ _) _)) fun _ =>
      .bind (hf.emit _ _ _ _) fun _ =>
        Keeps.moves (.bind (.update fun _ => hf.stats _ _) fun _ => .pure _ _)

/-- A beacon is seen by its frames only. -/
lemma broadcastBeacon (env : SendEnv β) :
    Method.Moves R f (broadcastBeacon P env : Method (Exc β) (Node T X E) Unit) :=
  .bind (Keeps.moves (.self _)) fun _ => hf.emit _ _ _ _

/-- Cover traffic is seen by its frames only. -/
lemma sendCover (env : CoverEnv β) :
    Method.Moves R f (sendCover env : Method (Exc β) (Node T X E) Unit) :=
  .bind (Keeps.moves (.self _)) fun _ => .bind (Keeps.moves (.eval _ _)) fun _ =>
    .bind (hf.emit _ _ _ _) fun _ => Keeps.moves (.update fun _ => hf.stats _ _)

/-- An event without a frame or a relay. -/
lemma step {event : NodeEvent β X} (hevent : ∀ inbound, event ≠ .inbound inbound)
    (node : Node T X E) : R (f node) (f (node.step P event)) := by
  have hsame : ∀ sessions, R (f node) (f { node with sessions := sessions }) := fun sessions =>
    (hf.sessions sessions node).symm ▸ Std.Refl.refl (r := R) (f node)
  cases event with
  | inbound event => exact absurd rfl (hevent event)
  | connect peerStaticPublic hsId ephemeral now startedAt env =>
    exact hf.connect peerStaticPublic hsId ephemeral now startedAt env node
  | sendText signingPublic text env => exact hf.sendText signingPublic text env node
  | broadcastBeacon env => exact hf.broadcastBeacon env node
  | sendCover env => exact hf.sendCover env node
  | drop signingPublic => exact hsame _
  | markVerified signingPublic => exact hsame _
  | repin signingPublic staticPublic => exact hsame _
  | forget signingPublic => exact hsame _

end Answers

/-- What sending changes, `f` does not read either. -/
structure Aside (f : Node T X E → ρ) : Prop where
  sessions : ∀ sessions node, f { node with sessions := sessions } = f node
  stats : ∀ stats node, f { node with stats := stats } = f node
  handed : ∀ frames node, f { node with handed := frames } = f node
  transport : ∀ t node, f { node with transport := t } = f node
  router : ∀ r node, f { node with router := r } = f node

namespace Aside

variable (hf : Aside f)
include hf

/-- What sending does not change, answering does not. -/
lemma answers : Answers Eq f where
  sessions := hf.sessions
  stats := hf.stats
  emit _ _ _ env := Keeps.moves (.bind (.self _) fun _ => .bind (.eval _ _) fun packets =>
    keeps_originateAll hf.handed hf.transport hf.router env.clock packets)

lemma handlePayload {packet : Packet β} {payload : Bytes β} (env : ReceiveEnv β X)
    (hbeacon : packet.ptype = .beacon →
      Keeps f (onBeacon P payload : Method (Exc β) (Node T X E) Unit)) :
    Keeps f (handlePayload P packet payload env : Method (Exc β) (Node T X E) Unit) :=
  moves_eq_iff.mp (hf.answers.handlePayload env fun h => (hbeacon h).moves)

/-- Nor does what happens without a frame. -/
lemma step {event : NodeEvent β X}
    (hevent : ∀ data rssi env, event ≠ .inbound (.frame data rssi env)) (node : Node T X E) :
    f (node.step P event) = f node := by
  by_cases hinbound : ∃ inbound, event = .inbound inbound
  · obtain ⟨inbound, rfl⟩ := hinbound
    cases inbound with
    | frame data rssi env => exact absurd rfl (hevent data rssi env)
    | fire n =>
      rw [Node.step, Node.inbound]
      rcases node.router.timers[n]? with _ | handle
      · rfl
      · exact hf.router _ _
    | relayEnds n sent now =>
      rw [Node.step, Node.inbound]
      rcases node.router.relayTasks[n]? with _ | packet
      · rfl
      · exact hf.router _ _
  · push Not at hinbound
    exact (hf.answers.step hinbound node).symm

end Aside

end Handlers

omit [Alphabet β] [DecidableEq β] in
/-- No handler reads or changes the reassembler. -/
lemma aside_reassembler : Aside (Node.reassembler : Node T X E → Reassembler β) :=
  ⟨fun _ _ => rfl, fun _ _ => rfl, fun _ _ => rfl, fun _ _ => rfl, fun _ _ => rfl⟩

/-! ## One event, one call -/

/-- A delivery makes one call on the reassembler. -/
lemma reassembler_deliver (packet : Packet β) (env : ReceiveEnv β X) (node : Node T X E) :
    (deliver P env packet node).2.reassembler =
      (Reassembler.add packet env.reassemblyNow node.reassembler).2 := by
  rw [deliver, bind_apply, reassemble_eq]
  rcases Reassembler.add packet env.reassemblyNow node.reassembler with
    ⟨err | _ | payload, reassembler⟩
  · cases err <;> rfl
  · rfl
  · refine aside_reassembler.handlePayload env (fun _ => ?_) { node with reassembler := reassembler }
    exact onBeacon_keeps (fun _ _ => rfl) (fun _ _ => rfl) payload

/-- The reassembler after a call that may not be made. -/
def afterFeed (reassembler : Reassembler β) : Option (Packet β × ℚ) → Reassembler β
  | none => reassembler
  | some call => (Reassembler.add call.1 call.2 reassembler).2

/-- A frame makes this call if it is new and for us. -/
lemma reassembler_handle (packet : Packet β) (env : ReceiveEnv β X) (node : Node T X E) :
    (handle P packet env node).2.reassembler =
      afterFeed node.reassembler (node.feedsPacket P packet env) := by
  unfold feedsPacket
  rcases handle_ends (P := P) (f := Node.reassembler) (fun _ _ => rfl) packet env node with
    ⟨hours, h⟩ | ⟨hours, h⟩
  · rw [h, if_pos hours.1, hours.2, reassembler_deliver]
    rfl
  · rw [h]
    split_ifs with hunseen
    · rcases hof : isForUs P env.tagNow packet node with err | ours
      · rfl
      cases ours with
      | false => rfl
      | true => exact absurd ⟨hunseen, hof⟩ hours
    · rfl

/-- Each event of a node is one call on its reassembler at most. -/
lemma reassembler_step (node : Node T X E) (event : NodeEvent β X) :
    (node.step P event).reassembler = afterFeed node.reassembler (node.feeds P event) := by
  by_cases hframe : ∃ data rssi env, event = .inbound (.frame data rssi env)
  · obtain ⟨data, rssi, env, rfl⟩ := hframe
    rw [step, inbound, receiveFrame, feeds]
    rcases Packet.decode data with err | packet
    · rfl
    · exact reassembler_handle packet env { node with lastRssi := rssi }
  · push Not at hframe
    have hnone : node.feeds P event = none := by
      unfold feeds
      split
      · exact absurd rfl (hframe _ _ _)
      · rfl
    rw [hnone]
    exact aside_reassembler.step hframe node

/-- In every run the reassembler is as the fed packets have left it. -/
theorem reassembler_run (node : Node T X E) (events : List (NodeEvent β X)) :
    (events.foldl (step P) node).reassembler =
      Reassembler.afterAll (node.fedBy P events) node.reassembler := by
  induction events generalizing node with
  | nil => rfl
  | cons event events ih =>
    rw [List.foldl_cons, ih, reassembler_step, fedBy, Reassembler.afterAll, Reassembler.afterAll,
      List.foldl_append]
    congr 1
    rcases node.feeds P event with _ | call <;> rfl

end Node

end Chatbit
