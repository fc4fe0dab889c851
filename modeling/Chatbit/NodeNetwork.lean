import Chatbit.Handshake.Network
import Chatbit.NodeBeacons

/-!
# Honest nodes on a hostile network

Any number of honest nodes, whose users do what they like, and a network that delivers any frames to
any of them in any order. The keys that the nodes have signed with, and what for, are kept in a
journal, and so is what the users have re-pinned. Of the attacker it is only asked that the
signatures that a node verifies, those of beacons included, are not forged.
-/

namespace Chatbit

open Lib

variable {ι β X E τ : Type} [Alphabet β] [DecidableEq β] (P : Primitives β X E)

namespace Node

variable {T : Transport β τ}

/-- What a beacon claims, as an identity payload would. -/
def beaconClaim (payload : Bytes β) : IdentityPayload β where
  signingPub := (beaconCandidate payload).signingPublic
  signature := (payload.drop 72).take 64
  ratchetPub := none
  nickname := (beaconCandidate payload).nickname

/-- What an event makes the node sign. -/
def signs (node : Node T X E) : NodeEvent β X → Option (Signed β X)
  | .broadcastBeacon env => some (.beacon (node.sessions.identity.beaconBody P env.timestamp))
  | event => ((node.callOf P event).bind (node.sessions.signing P)).map .handshake

end Node

/-- What the user of a node has re-pinned. -/
def NodeEvent.repins : NodeEvent β X → Option (Bytes β × Bytes β)
  | .repin signingPublic staticPublic => some (signingPublic, staticPublic)
  | _ => none

/-- The nodes; `journal` and `repinned` are histories. -/
structure NodeWorld (T : ι → Transport β τ) (X E : Type) where
  node : (a : ι) → Node (T a) X E
  journal : List (ι × Signed β X) := []
  repinned : List (ι × Bytes β × Bytes β) := []

namespace NodeWorld

variable {T : ι → Transport β τ}

/-- The session managers of the nodes, with the same journal. -/
def managers (w : NodeWorld T X E) : World ι β X E where
  manager a := (w.node a).sessions
  journal := w.journal

variable [DecidableEq ι]

/-- An event of one node. -/
def step (w : NodeWorld T X E) (event : ι × NodeEvent β X) : NodeWorld T X E where
  node := Function.update w.node event.1 ((w.node event.1).step P event.2)
  journal := ((w.node event.1).signs P event.2).toList.map (fun item => (event.1, item)) ++ w.journal
  repinned := event.2.repins.toList.map (fun pin => (event.1, pin)) ++ w.repinned

/-- What the event verifies is not a forgery, and what it signs is as long as the code makes it. -/
structure Admissible (w : NodeWorld T X E) (event : ι × NodeEvent β X) : Prop where
  call : ∀ c, (w.node event.1).callOf P event.2 = some c → w.managers.Unforged P event.1 c
  beacon : ∀ payload, (w.node event.1).beaconOf P event.2 = some payload →
    w.managers.Genuine P (Node.beaconClaim payload) (payload.take 72)
  timestamp : ∀ env, event.2 = .broadcastBeacon env → env.timestamp.length = 8

/-- A node may keep the static key `s` under the signing key `k`: if `k` belongs to an honest node,
then so does `s`, or the user has re-pinned it. -/
def Allowed (identity : ι → Identity X E) (w : NodeWorld T X E) (a : ι) (k s : Bytes β) : Prop :=
  k.length = 32 ∧ ∀ b, (identity b).signingPublic P = k →
    s = (identity b).staticPublic P ∨ (a, k, s) ∈ w.repinned

/-- The nodes have just been built: they have discovered no one, and in their trust stores the keys
of honest nodes come with the right static keys. -/
structure Starts (identity : ι → Identity X E) (node : (a : ι) → Node (T a) X E) : Prop where
  sessions : ∀ a, ∃ trust,
    (node a).sessions = { identity := identity a, trust := trust } ∧
    ∀ ref p, trust.object ref = some p → p.signingPublic.length = 32 ∧
      ∀ b, (identity b).signingPublic P = p.signingPublic →
        p.staticPublic = (identity b).staticPublic P
  discovered : ∀ a, (node a).discovered = .empty

/-- The worlds that runs of nodes with these identities reach. -/
def Reachable (identity : ι → Identity X E) (w : NodeWorld T X E) : Prop :=
  ∃ node, Starts P identity node ∧ Reaches (Admissible P) (step P) { node := node } w

end NodeWorld

end Chatbit
