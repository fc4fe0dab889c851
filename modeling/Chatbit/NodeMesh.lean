import Chatbit.Mesh.Erasure
import Chatbit.NodeFeeds

/-!
# A mesh of nodes

Nodes and the frames on the air between them. Whatever a node hands over or relays may be heard by
each of its neighbours, in any order and any number of times. A node may also hear any other frame,
which an outsider has sent.
-/

namespace Chatbit

open Lib

variable {ι β X E τ : Type} [Alphabet β] [DecidableEq β] (P : Primitives β X E)

namespace Node

variable {T : Transport β τ}

/-- The frame of the relay that is awaited. -/
def relayFrame (node : Node T X E) (n : ℕ) : Option (Bytes β) :=
  node.router.relayTasks[n]?.bind fun packet =>
    (frameOf T.mtu node.mesh.padding packet).toOption

/-- The frames that go out of a node in an event: those that it hands over, and a relay. -/
def puts (node : Node T X E) (event : NodeEvent β X) : List (Bytes β) :=
  (node.step P event).handed.drop node.handed.length ++
    match event with
    | .inbound (.relayEnds n true _) => (node.relayFrame n).toList
    | _ => []

end Node

/-- `sent` is a history: the frames that have gone out of each node. -/
structure NodeMesh (T : ι → Transport β τ) (X E : Type) where
  node : (i : ι) → Node (T i) X E
  air : List (ι × Bytes β) := []
  sent : ι → List (Bytes β) := fun _ => []

/-- A relay is on the air once its send has returned, and may be before (`onAir`). -/
inductive NodeMeshEvent (ι β X : Type) where
  | node (i : ι) (event : NodeEvent β X)
  | hear (n : ℕ) (rssi : Option ℚ) (env : ReceiveEnv β X)
  | onAir (i : ι) (n : ℕ)
  | lose (n : ℕ)
  | duplicate (n : ℕ)

namespace NodeMesh

/-- The copies of what a node sends, one for each neighbour. -/
def copies (neighbours : ι → List ι) (i : ι) (frames : List (Bytes β)) : List (ι × Bytes β) :=
  frames.flatMap fun frame => (neighbours i).map fun j => (j, frame)

variable {T : ι → Transport β τ} [DecidableEq ι] (neighbours : ι → List ι)

/-- An event of one node. -/
def act (i : ι) (event : NodeEvent β X) (w : NodeMesh T X E) : NodeMesh T X E where
  node := Function.update w.node i ((w.node i).step P event)
  air := w.air ++ copies neighbours i ((w.node i).puts P event)
  sent := Function.update w.sent i (w.sent i ++ (w.node i).puts P event)

def step (w : NodeMesh T X E) : NodeMeshEvent ι β X → NodeMesh T X E
  | .node i event => w.act P neighbours i event
  | .hear n rssi env =>
    match w.air[n]? with
    | none => w
    | some (i, data) =>
      { w with air := w.air.eraseIdx n }.act P neighbours i (.inbound (.frame data rssi env))
  | .onAir i n => { w with
    air := w.air ++ copies neighbours i ((w.node i).relayFrame n).toList }
  | .lose n => { w with air := w.air.eraseIdx n }
  | .duplicate n => { w with air := w.air ++ w.air[n]?.toList }

/-- The send of a relay does not return if its frame cannot be built. -/
def Admissible (w : NodeMesh T X E) : NodeMeshEvent ι β X → Prop
  | .node i (.inbound (.relayEnds n true _)) =>
    (w.node i).router.relayTasks[n]?.isSome → ((w.node i).relayFrame n).isSome
  | _ => True

end NodeMesh

/-! ## The routers among them -/

/-- What a network of nodes is to a mesh of routers. -/
structure Links (ι β : Type) where
  router : ι → Router β
  handed : ι → List (Bytes β)
  sent : ι → List (Bytes β)
  air : List (ι × Bytes β)

def NodeMesh.links {T : ι → Transport β τ} (w : NodeMesh T X E) : Links ι β where
  router i := (w.node i).router
  handed i := (w.node i).handed
  sent := w.sent
  air := w.air

/-- A node goes on with this router; it hands over frames, and frames go out. -/
def Links.put [DecidableEq ι] (neighbours : ι → List ι) (i : ι) (router : Router β)
    (handed frames : List (Bytes β)) (links : Links ι β) : Links ι β where
  router := Function.update links.router i router
  handed := Function.update links.handed i (links.handed i ++ handed)
  sent := Function.update links.sent i (links.sent i ++ frames)
  air := links.air ++ NodeMesh.copies neighbours i frames

/-- Next to each node there may be an outsider, whom only that node hears. -/
def besideOutsiders (neighbours : ι → List ι) : ι ⊕ ι → List (ι ⊕ ι)
  | .inl i => (neighbours i).map .inl
  | .inr i => [.inl i]

/-- The network is this mesh of routers, if one looks at the packets only: the routers are the
same, the nodes have handed over the frames of what they have originated, and what has been sent and
what is on the air decodes to the copies there. -/
structure Links.Refines (mtu : ι → ℕ) (config : ι → MeshConfig) (links : Links ι β)
    (mesh : Mesh (ι ⊕ ι) β (Traced β)) [DecidableEq ι] : Prop where
  router : ∀ i, (mesh.stations (.inl i)).router.map Traced.packet = links.router i
  handed : ∀ i, links.handed i = mesh.originated.filterMap fun source =>
    if source.1 = .inl i then
      (Node.frameOf (mtu i) (config i).padding source.2.packet).toOption
    else none
  sent : ∀ i, (links.sent i).map Packet.decode =
    (mesh.stations (.inl i)).transmitted.map fun copy => .ok copy.packet
  air : (links.air.map fun copy => ((.inl copy.1 : ι ⊕ ι), Packet.decode copy.2)) =
    mesh.flight.map fun copy => (copy.1, .ok copy.2.packet)

end Chatbit
