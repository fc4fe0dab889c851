import Chatbit.Crypto.Symbolic
import Chatbit.Mesh.LocalDelivery
import Chatbit.NodeBounds
import Chatbit.Traffic.Length
import Chatbit.Wire.ReassemblyConflicts

/-!
# A flood of beacons

Each beacon of an identity that the node has not heard of adds an entry to `discovered`, which none
of them ever leaves.
-/

namespace Chatbit

open Lib Method Node

variable {β X E τ : Type} [Alphabet β] [DecidableEq β] {P : Primitives β X E}

/-! ## A beacon -/

/-- The payload of `broadcast_beacon`, where `timestamp` is `struct.pack("!d", time.time())`. -/
def Identity.beacon (P : Primitives β X E) (identity : Identity X E) (timestamp : Bytes β) :
    Bytes β :=
  let body := identity.signingPublic P ++ identity.staticPublic P ++ timestamp
  let nickname := (encodeUtf8 identity.nickname).take 64
  body ++ identity.signTranscript P body ++ [ofOctet (UInt8.ofNat nickname.length)] ++ nickname

section Fields

variable (hP : P.Correct) (attacker : Identity X E) {timestamp : Bytes β}
  (htimestamp : timestamp.length = 8)

include hP htimestamp

omit [DecidableEq β] in
lemma length_beacon : 137 ≤ (attacker.beacon P timestamp).length ∧
    (attacker.beacon P timestamp).length ≤ 201 := by
  have hsigning : (attacker.signingPublic P).length = 32 := hP.length_ed25519Public _
  have hstatic : (attacker.staticPublic P).length = 32 := hP.length_x25519Public _
  have hsignature : ∀ m, (attacker.signTranscript P m).length = 64 := fun m => hP.length_sign _ _
  simp only [Identity.beacon, List.length_append, List.length_singleton, List.length_take, hsigning,
    hstatic, hsignature, htimestamp]
  omega

omit [DecidableEq β] in
/-- The fields of a beacon are where the receiver looks for them. -/
lemma beacon_fields :
    let body := attacker.signingPublic P ++ attacker.staticPublic P ++ timestamp
    (attacker.beacon P timestamp).take 32 = attacker.signingPublic P ∧
      (attacker.beacon P timestamp).take 72 = body ∧
      ((attacker.beacon P timestamp).drop 72).take 64 = attacker.signTranscript P body := by
  intro body
  have hsigning : (attacker.signingPublic P).length = 32 := hP.length_ed25519Public _
  have hstatic : (attacker.staticPublic P).length = 32 := hP.length_x25519Public _
  have hbody : body.length = 72 := by
    simp only [body, List.length_append, hsigning, hstatic, htimestamp]
  have hsignature : (attacker.signTranscript P body).length = 64 := hP.length_sign _ _
  unfold Identity.beacon
  refine ⟨?_, ?_, ?_⟩
  · simp only [List.append_assoc]
    exact List.take_left' hsigning
  · rw [List.append_assoc, List.append_assoc]
    exact List.take_left' hbody
  · rw [List.append_assoc, List.append_assoc, List.drop_left' hbody]
    exact List.take_left' hsignature

omit [DecidableEq β] in
/-- The beacon is signed. -/
lemma verifyTranscript_beacon :
    (beaconCandidate (attacker.beacon P timestamp)).verifyTranscript P
      ((attacker.beacon P timestamp).take 72)
      (((attacker.beacon P timestamp).drop 72).take 64) = true := by
  obtain ⟨hsigning, hbody, hsignature⟩ := beacon_fields hP attacker htimestamp
  unfold PeerIdentity.verifyTranscript Primitives.verify beaconCandidate
  rw [hsigning, hbody, hsignature, Bool.and_eq_true]
  exact ⟨decide_eq_true (hP.length_ed25519Public _), hP.verify_sign _ _⟩

end Fields

/-! ## How it is taken -/

/-- A frame of its own for the payload. -/
def beaconPacket (payload : Bytes β) (h : payload.length ≤ 0xFFFF) : Packet β :=
  .ofFields .beacon payload (zeros 8) broadcastTag 7 0 1
    ⟨length_zeros 8, length_zeros 8, by decide, by decide, by decide, h⟩

/-- The clocks show the same time. -/
def ReceiveEnv.at (now : ℚ) (x : X) : ReceiveEnv β X where
  now := now
  delay := 0
  tagNow := now
  dataNow := now
  reassemblyNow := now
  ephemeral := x
  ratchetPrivate := x
  fresh := x
  pendingNow := now
  startedAt := now
  pinNow := now
  establishedAt := now
  send := { timestamp := zeros 8, wallNow := now, msgId := zeros 8, clock := fun _ => now }

namespace Node

variable {T : Transport β τ}

/-- An identity that the node has not heard of. -/
structure Unknown (P : Primitives β X E) (node : Node T X E) (k : Bytes β) : Prop where
  other : k ≠ node.sessions.identity.signingPublic P
  unpinned : node.sessions.trust.get k = none
  undiscovered : k ∉ node.discovered.keys

/-- What the node has heard of others. -/
def heard (node : Node T X E) : SessionManager β X E × OrderedDict (Bytes β) (PeerIdentity β) :=
  (node.sessions, node.discovered)

/-- The beacon of an identity that the node has not heard of adds it, whether or not the callback
raises. -/
lemma heard_onBeacon (hP : P.Correct) {attacker : Identity X E} {timestamp : Bytes β}
    (htimestamp : timestamp.length = 8) {node : Node T X E}
    (hunknown : node.Unknown P (attacker.signingPublic P)) :
    (onBeacon P (attacker.beacon P timestamp) node).2.heard =
      (node.sessions, node.discovered.set (attacker.signingPublic P)
        (beaconCandidate (attacker.beacon P timestamp))) := by
  have hlen := (length_beacon hP attacker htimestamp).1
  have hkey : (beaconCandidate (attacker.beacon P timestamp)).signingPublic =
      attacker.signingPublic P := (beacon_fields hP attacker htimestamp).1
  have hsigned := verifyTranscript_beacon hP attacker htimestamp
  unfold onBeacon
  show ((if _ then _ else if _ then _ else if _ then _ else _ :
    Method (Exc β) (Node T X E) Unit) node).2.heard = _
  rw [if_neg (by omega), hkey, if_neg hunknown.other, hsigned, if_neg (by decide),
    hunknown.unpinned]
  show ((if _ then _ else _ : Method (Exc β) (Node T X E) Unit) _).2.heard = _
  rw [hkey, if_neg hunknown.undiscovered]
  rfl

omit [Alphabet β] [DecidableEq β] in
lemma heard_onFailure (err : Exc β) (node : Node T X E) :
    (onFailure err node).2.heard = node.heard := by
  cases err <;> rfl

lemma heard_handlePayload (packet : Packet β) (payload : Bytes β) (env : ReceiveEnv β X)
    (node : Node T X E) : (handlePayload P packet payload env node).2.heard =
      (onPayload P packet payload env node).2.heard := by
  unfold handlePayload
  rcases onPayload P packet payload env node with ⟨err | _, node'⟩
  · exact heard_onFailure err node'
  · rfl

/-- A message of one broadcast packet is handled at once, when it is new. -/
lemma heard_handle (packet : Packet β) (env : ReceiveEnv β X) (node : Node T X E)
    (hone : packet.fragCount = 1) (hbroadcast : packet.dstTag = broadcastTag)
    (hunseen : Router.Unseen packet env.now node.router) :
    ∃ router reassembler, (handle P packet env node).2.heard =
      (onPayload P packet packet.payload env { node with
        router := router, reassembler := reassembler }).2.heard := by
  have hours : isForUs P env.tagNow packet node = .ok true := by
    unfold isForUs Packet.isBroadcast
    rw [hbroadcast, decide_eq_true rfl, if_pos rfl]
    rfl
  let delivering := node.setRouter (Router.delivering packet env.now node.router)
  let taken : Node T X E := { delivering with
    reassembler := Reassembler.expire env.reassemblyNow delivering.reassembler }
  have hrun : handle P packet env node = (deliver P env packet >>= fun _ =>
      Method.onField router setRouter (Method.update (Router.scheduleRelay packet env.delay)))
      delivering :=
    Router.handle_of_ours router_setRouter setRouter_setRouter
      (isForUs_setRouter P env.tagNow packet) (deliver P env) hunseen hours env.delay
  have hdeliver : deliver P env packet delivering =
      handlePayload P packet packet.payload env taken := by
    have hreassemble : reassemble packet env.reassemblyNow delivering =
        (.ok (some packet.payload), taken) := by
      unfold reassemble
      rw [Method.onField_apply, Reassembler.add_single hone]
    unfold deliver
    rw [Method.bind_of_ok hreassemble]
  refine ⟨taken.router, taken.reassembler, ?_⟩
  show _ = (onPayload P packet packet.payload env taken).2.heard
  rw [hrun, Method.bind_apply, hdeliver, ← heard_handlePayload]
  rcases handlePayload P packet packet.payload env taken with ⟨err | _, node'⟩ <;> rfl

end Node

end Chatbit
