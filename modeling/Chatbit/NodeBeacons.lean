import Chatbit.NodeFeeds

/-!
# Whom a node discovers

A peer is discovered by a beacon that completes, that comes from another identity and whose
signature verifies under the key that it names. Nothing else that happens to a node changes
`discovered` (`Node.discovered_step`).
-/

namespace Chatbit

open Lib Method

variable {β X E τ : Type} [Alphabet β] [DecidableEq β] (P : Primitives β X E)

namespace Node

variable {T : Transport β τ}

/-- The beacon that an event hands to `_on_beacon`. -/
def beaconOf (node : Node T X E) : NodeEvent β X → Option (Bytes β)
  | .inbound (.frame data _ env) => (node.arrives P data env).bind fun (packet, payload) =>
    if packet.ptype = .beacon then some payload else none
  | _ => none

/-- The beacon is from a peer that the node has not discovered yet, and there is nothing against
it. -/
structure Introduces (node : Node T X E) (payload : Bytes β) : Prop where
  length : 32 + 32 + 8 + 64 + 1 ≤ payload.length
  other : (beaconCandidate payload).signingPublic ≠ node.sessions.identity.signingPublic P
  verified : (beaconCandidate payload).verifyTranscript P (payload.take 72)
    ((payload.drop 72).take 64) = true
  compatible : node.sessions.trust.Compatible (beaconCandidate payload).signingPublic
    (beaconCandidate payload).staticPublic
  undiscovered : (beaconCandidate payload).signingPublic ∉ node.discovered.keys

variable {P}

/-- What the node has discovered, from there to here. -/
def Finds (P : Primitives β X E) (node node' : Node T X E) (payload : Bytes β) : Prop :=
  node'.discovered = node.discovered ∨ node.Introduces P payload ∧
    node'.discovered =
      node.discovered.set (beaconCandidate payload).signingPublic (beaconCandidate payload)

lemma Finds.of_heard {node node' found : Node T X E} {payload : Bytes β}
    (h : node'.Finds P found payload) (hheard : node.heard = node'.heard) :
    node.Finds P found payload := by
  obtain ⟨hsessions, hdiscovered⟩ := Prod.mk.inj hheard
  unfold Finds
  rw [hdiscovered]
  refine h.imp_right (And.imp_left fun hintroduces => ⟨hintroduces.length, ?_, hintroduces.verified,
    ?_, ?_⟩)
  · rw [hsessions]
    exact hintroduces.other
  · rw [hsessions]
    exact hintroduces.compatible
  · rw [hdiscovered]
    exact hintroduces.undiscovered

lemma finds_onBeacon (payload : Bytes β) (node : Node T X E) :
    node.Finds P (onBeacon P payload node).2 payload := by
  unfold onBeacon
  show node.Finds P ((if _ then _ else if _ then _ else if _ then _ else _ :
    Method (Exc β) (Node T X E) Unit) node).2 payload
  split_ifs with hlen hown hsigned
  · exact Or.inl rfl
  · exact Or.inl rfl
  · exact Or.inl rfl
  have hverified : (beaconCandidate payload).verifyTranscript P (payload.take 72)
      ((payload.drop 72).take 64) = true := by simpa using hsigned
  have hdiscover : node.sessions.trust.Compatible (beaconCandidate payload).signingPublic
        (beaconCandidate payload).staticPublic →
      ∀ stats : NodeStats, node.Finds P (onBeacon.discover (beaconCandidate payload)
        { node with stats := stats }).2 payload := by
    intro hcompatible stats
    rw [onBeacon.discover, self_bind]
    split_ifs with hmem
    · exact Or.inl rfl
    · exact Or.inr ⟨⟨not_lt.mp hlen, hown, hverified, hcompatible, hmem⟩,
        event_keeps (f := Node.discovered) _ _⟩
  rw [count, update_bind]
  rcases hget : node.sessions.trust.get (beaconCandidate payload).signingPublic with _ | known
  · refine hdiscover (fun p hp => ?_) _
    rw [hget] at hp
    cases hp
  · dsimp only
    split_ifs with hstatic
    · exact Or.inl (event_keeps (f := Node.discovered) _ _)
    · refine hdiscover (fun p hp => ?_) _
      rw [hget] at hp
      obtain rfl := Option.some.inj hp
      exact not_not.mp hstatic

omit [Alphabet β] [DecidableEq β] in
lemma aside_discovered :
    Aside (Node.discovered : Node T X E → OrderedDict (Bytes β) (PeerIdentity β)) :=
  ⟨fun _ _ => rfl, fun _ _ => rfl, fun _ _ => rfl, fun _ _ => rfl, fun _ _ => rfl⟩

lemma finds_handlePayload (packet : Packet β) (payload : Bytes β) (env : ReceiveEnv β X)
    (node : Node T X E) :
    (handlePayload P packet payload env node).2.discovered = node.discovered ∨
      packet.ptype = .beacon ∧
        node.Finds P (handlePayload P packet payload env node).2 payload := by
  by_cases hbeacon : packet.ptype = .beacon
  · have hheard := congrArg Prod.snd (heard_handlePayload (P := P) packet payload env node)
    have hon : (onPayload P packet payload env : Method (Exc β) (Node T X E) Unit) =
        onBeacon P payload := by
      unfold onPayload
      rw [hbeacon]
    rw [hon] at hheard
    exact Or.inr ⟨hbeacon, (finds_onBeacon payload node).imp hheard.trans
      (And.imp_right hheard.trans)⟩
  · exact Or.inl (aside_discovered.handlePayload env (fun h => absurd h hbeacon) node)

lemma finds_deliver (packet : Packet β) (env : ReceiveEnv β X) (node : Node T X E) :
    (deliver P env packet node).2.discovered = node.discovered ∨
      ∃ payload, (Reassembler.add packet env.reassemblyNow node.reassembler).1 =
          .ok (some payload) ∧ packet.ptype = .beacon ∧
        node.Finds P (deliver P env packet node).2 payload := by
  rw [deliver, bind_apply, reassemble_eq]
  rcases Reassembler.add packet env.reassemblyNow node.reassembler with
    ⟨err | _ | payload, reassembler⟩
  · cases err <;> exact Or.inl rfl
  · exact Or.inl rfl
  · rcases finds_handlePayload (P := P) packet payload env
      { node with reassembler := reassembler } with h | ⟨hbeacon, h⟩
    · exact Or.inl h
    · exact Or.inr ⟨payload, rfl, hbeacon, h.of_heard rfl⟩

/-- A packet may complete a beacon. -/
lemma finds_handle (packet : Packet β) (env : ReceiveEnv β X) (node : Node T X E) :
    (handle P packet env node).2.discovered = node.discovered ∨
      ∃ payload, node.completes P packet env = some payload ∧ packet.ptype = .beacon ∧
        node.Finds P (handle P packet env node).2 payload := by
  rcases handle_ends (P := P) (f := Node.discovered) (fun _ _ => rfl) packet env node with
    ⟨hours, hdiscovered⟩ | ⟨hours, hdiscovered⟩
  · rw [hdiscovered, completes_of_ours hours]
    rcases finds_deliver (P := P) packet env (node.setRouter (Router.delivering packet env.now
      node.router)) with h | ⟨payload, hadd, hbeacon, h⟩
    · exact Or.inl h
    · have hadd : (Reassembler.add packet env.reassemblyNow node.reassembler).1 =
        .ok (some payload) := hadd
      rw [hadd]
      refine Or.inr ⟨payload, rfl, hbeacon, ?_⟩
      unfold Finds
      rw [hdiscovered]
      exact h.of_heard rfl
  · exact Or.inl hdiscovered

/-- An event adds at most the beacon that it completes to what the node has discovered. -/
theorem discovered_step (node : Node T X E) (event : NodeEvent β X) :
    (node.step P event).discovered = node.discovered ∨
      ∃ payload, node.beaconOf P event = some payload ∧
        node.Finds P (node.step P event) payload := by
  by_cases hframe : ∃ data rssi env, event = .inbound (.frame data rssi env)
  · obtain ⟨data, rssi, env, rfl⟩ := hframe
    rw [step, inbound, receiveFrame, beaconOf, arrives]
    rcases Packet.decode data with err | packet
    · exact Or.inl rfl
    rcases finds_handle (P := P) packet env { node with lastRssi := rssi } with
      h | ⟨payload, hcompletes, hbeacon, h⟩
    · exact Or.inl h
    · have hcompletes : node.completes P packet env = some payload := hcompletes
      refine Or.inr ⟨payload, ?_, h.of_heard rfl⟩
      show ((node.completes P packet env).map _).bind _ = _
      rw [hcompletes]
      exact if_pos hbeacon
  · push Not at hframe
    exact Or.inl (aside_discovered.step hframe node)

end Node

end Chatbit
