import Chatbit.Crypto.RatchetRunTheorems
import Chatbit.Handshake.Matched
import Chatbit.NodeCalls
import Chatbit.VerifiedLabel

/-!
# Two nodes in conversation

Two nodes have a session for each other, and the network hands either of them whatever frames it
likes. Everything else that a node does goes on beside it: other sessions, handshakes, the mesh. A
conversation keeps the history of the two ratchets, and what the application of each side has given
to `send_text` for the other and has been handed.
-/

namespace Chatbit

open Lib

variable {β X E τ : Type} [Alphabet β] [DecidableEq β]

/-- What a text says: when it was sent, and the text. -/
def IncomingMessage.content (message : IncomingMessage β) : Bytes β × String :=
  (message.timestamp, message.text)

/-- What the plaintext of a data frame says, if it is a text. -/
def textOf (plaintext : Bytes β) : Option (Bytes β × String) :=
  match decodeMessage plaintext with
  | .ok (.text, timestamp, body) => some (timestamp, decodeReplace body)
  | _ => none

/-- The event of the ratchet run that a call on the session for `key` is. -/
def Call.ratchetEvent (side : Side) (key : Bytes β) : Call β X → Option (RatchetEvent β X)
  | .encrypt signingPublic plaintext =>
    if signingPublic = key then some (.encrypt side plaintext []) else none
  | .decrypt signingPublic blob fresh =>
    if signingPublic = key then
      match MessageHeader.decode (blob.take RATCHET_HEADER_LEN) with
      | .ok header => some (.deliver side header (blob.drop RATCHET_HEADER_LEN) [] fresh)
      | .error _ => none
    else none
  | _ => none

/-- Every session refers to a record of the peer that it is kept under. -/
def SessionManager.Owned (manager : SessionManager β X E) : Prop :=
  ∀ k session, manager.sessionFor k = some session →
    ∃ peer, manager.peerOf session = some peer ∧ peer.signingPublic = k

namespace Node

variable {T : Transport β τ} (P : Primitives β X E)

/-- The message that an event hands to the application. -/
def hands (node : Node T X E) : NodeEvent β X → Option (IncomingMessage β)
  | .inbound (.frame data rssi env) =>
    (node.arrives P data env).bind fun (packet, payload) =>
      if packet.ptype = .data then
        incoming P { node with lastRssi := rssi } packet payload env
      else none
  | _ => none

end Node

/-- The two nodes, the run of their ratchets, what each side has said to the other and what its
application has been handed, from whomever. -/
structure Conversation (T : Side → Transport β τ) (X E : Type) where
  node : (side : Side) → Node (T side) X E
  run : RatchetRun β X
  said : Side → List (Bytes β × String) := fun _ => []
  handed : Side → List (IncomingMessage β) := fun _ => []

namespace Conversation

variable {T : Side → Transport β τ} (P : Primitives β X E)

/-- What an event says to the owner of `key`. -/
def tells (key : Bytes β) : NodeEvent β X → List (Bytes β × String)
  | .sendText signingPublic text env =>
    if signingPublic = key then [(env.timestamp, text)] else []
  | _ => []

/-- The two sides have the sessions of one handshake, with the ratchet keys `a` and `r`. -/
def begin (node : (side : Side) → Node (T side) X E) (a r : X) (initiator responder : Session β X) :
    Conversation T X E where
  node := node
  run := RatchetRun.start P a r initiator.ratchet responder.ratchet

variable (key : Side → Bytes β)

/-- The event of the ratchet run that an event of a node is. -/
def ratchetEvent (c : Conversation T X E) (side : Side) (event : NodeEvent β X) :
    Option (RatchetEvent β X) :=
  ((c.node side).callOf P event).bind (Call.ratchetEvent side (key side.peer))

def step (c : Conversation T X E) : Side × NodeEvent β X → Conversation T X E
  | (side, event) =>
    { node := Function.update c.node side ((c.node side).step P event)
      run :=
        match c.ratchetEvent P key side event with
        | some e => c.run.step P e
        | none => c.run
      said := Function.update c.said side (c.said side ++ tells (key side.peer) event)
      handed := Function.update c.handed side
        (c.handed side ++ ((c.node side).hands P event).toList) }

section Step

variable (c : Conversation T X E) (side : Side) (event : NodeEvent β X)

@[simp] lemma step_node : (c.step P key (side, event)).node =
    Function.update c.node side ((c.node side).step P event) := rfl

@[simp] lemma step_run : (c.step P key (side, event)).run =
    match c.ratchetEvent P key side event with
    | some e => c.run.step P e
    | none => c.run := rfl

@[simp] lemma step_said : (c.step P key (side, event)).said =
    Function.update c.said side (c.said side ++ tells (key side.peer) event) := rfl

@[simp] lemma step_handed : (c.step P key (side, event)).handed =
    Function.update c.handed side
      (c.handed side ++ ((c.node side).hands P event).toList) := rfl

end Step

/-- `struct.pack` gives eight octets, the event is admissible in the run of the ratchets, and one
that is none of theirs leaves the session for the other side: it is neither dropped nor replaced. -/
def Admissible (c : Conversation T X E) : Side × NodeEvent β X → Prop
  | (side, event) =>
    (∀ signingPublic text env, event = .sendText signingPublic text env →
      env.timestamp.length = 8) ∧
    match c.ratchetEvent P key side event with
    | some e => c.run.Admissible P e
    | none => ((c.node side).step P event).sessions.sessionFor (key side.peer) =
        (c.node side).sessions.sessionFor (key side.peer)

/-- What a side has been handed as texts of the other. -/
def heard (c : Conversation T X E) (side : Side) : List (IncomingMessage β) :=
  (c.handed side).filter fun message => message.peer.signingPublic = key side.peer

end Conversation

end Chatbit
