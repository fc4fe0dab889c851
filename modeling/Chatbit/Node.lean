import Chatbit.Mesh.Router
import Chatbit.Session
import Chatbit.Wire.Padding
import Chatbit.Wire.Reassembly

/-!
# The node

The node of `chatbit/node.py` and its outbound path: a text is encrypted, split into packets, and
each packet is serialised, padded and handed to the transport. The transport is a parameter, and may
raise in `send`; what the node did before that stays done.
-/

namespace Chatbit

open Lib

/-- A `Transport` whose own state is a `τ`. -/
structure Transport (β τ : Type) where
  mtu : ℕ
  send : Bytes β → Method (Exc β) τ Unit

structure NodeStats where
  beaconsReceived : ℕ := 0
  coverSent : ℕ := 0
  handshakesCompleted : ℕ := 0
  handshakesFailed : ℕ := 0
  messagesSent : ℕ := 0
  messagesReceived : ℕ := 0
  decryptFailures : ℕ := 0

inductive MessageKind where
  | text | ack | nick
deriving DecidableEq

def MessageKind.toInt : MessageKind → UInt8
  | text => 1
  | ack => 2
  | nick => 3

variable {β X E τ : Type} [Alphabet β] [DecidableEq β]

/-- `timestamp` is `struct.pack("!d", time.time())`. -/
def encodeMessage (kind : MessageKind) (timestamp body : Bytes β) : Bytes β :=
  [ofOctet kind.toInt] ++ timestamp ++ body

/-- `timestamp` is the float as it was sent. -/
structure IncomingMessage (β : Type) where
  peer : PeerIdentity β
  kind : MessageKind
  text : String
  timestamp : Bytes β
  verified : Bool
  rssi : Option ℚ

/-- What the texts that `_event` is called with are made of. -/
inductive Event (β : Type) where
  | refused (exc : Exc β)
  | sessionError (msg : String)
  | established (peer : PeerIdentity β)
  | compareSafetyNumber (peer : PeerIdentity β)
  | otherStaticKey (known : PeerIdentity β)
  | discovered (candidate : PeerIdentity β)

/-- `handed` is a history: the frames that the node has called `transport.send` with. The callbacks
are those of the application, which may raise. -/
structure Node (T : Transport β τ) (X E : Type) where
  mesh : MeshConfig := {}
  transport : τ
  sessions : SessionManager β X E
  router : Router β := {}
  reassembler : Reassembler β := {}
  discovered : OrderedDict (Bytes β) (PeerIdentity β) := .empty
  stats : NodeStats := {}
  lastRssi : Option ℚ := none
  onMessage : Option (IncomingMessage β → Except (Exc β) Unit) := none
  onEvent : Event β → Except (Exc β) Unit := fun _ => .ok ()
  capacity : ℕ
  capacity_eq : capacityFor (β := β) T.mtu HEADER_LEN = .ok capacity
  handed : List (Bytes β) := []

/-- What a call of `send_text` reads of the clocks and draws. -/
structure SendEnv (β : Type) where
  timestamp : Bytes β
  wallNow : ℚ
  msgId : Bytes β
  /-- The monotonic clock when fragment `i` is originated. -/
  clock : ℕ → ℚ

/-- What `send_text` asks of a session: the payload and the tag that it is sent under. -/
def Session.encryptTagged (P : Primitives β X E) (plaintext : Bytes β) (now : ℚ) :
    Method (Exc β) (Session β X) (Bytes β × Bytes β) := do
  let blob ← Session.encrypt P plaintext
  let session ← Method.self
  let tag ← Method.eval (session.currentSendTag P now)
  return (blob, tag)

namespace Node

variable {T : Transport β τ}

/-- A call on a session that the manager holds, which changes in place. -/
def onSession {α : Type} (signingPublic : Bytes β) (session : Session β X)
    (m : Method (Exc β) (Session β X) α) : Method (Exc β) (Node T X E) α :=
  Method.onField (fun _ => session)
    (fun session node => { node with
      sessions := { node.sessions with
        sessions := node.sessions.sessions.set signingPublic session } }) m

/-- The frame that `_transmit` builds for a packet. -/
def frameOf (mtu : ℕ) (padding : PaddingPolicy) (packet : Packet β) :
    Except (Exc β) (Bytes β) := do
  let frame ← packet.encode 0
  let target ← paddedSize frame.length mtu padding
  packet.encode target

def transmit (packet : Packet β) : Method (Exc β) (Node T X E) Unit := do
  let node ← Method.self
  let frame ← Method.eval (frameOf T.mtu node.mesh.padding packet)
  Method.update fun node => { node with handed := node.handed ++ [frame] }
  Method.onField transport (fun transport node => { node with transport := transport })
    (T.send frame)

/-- `router.originate` -/
def originate (packet : Packet β) (now : ℚ) : Method (Exc β) (Node T X E) Unit := do
  let _ ← Method.onField router (fun router node => { node with router := router })
    (Router.markSeen packet now)
  transmit packet

/-- The loop of `_emit`. -/
def originateAll (clock : ℕ → ℚ) : List (Packet β) → Method (Exc β) (Node T X E) Unit
  | [] => pure ()
  | packet :: packets => do
    originate packet (clock packet.fragIndex)
    originateAll clock packets

/-- `_emit` -/
def emit (ptype : PacketType) (payload dstTag : Bytes β) (env : SendEnv β) :
    Method (Exc β) (Node T X E) Unit := do
  let node ← Method.self
  let packets ← Method.eval
    (fragment ptype payload env.msgId node.capacity dstTag node.mesh.defaultTtl)
  originateAll env.clock packets

/-- Send a text message to an established peer. -/
def sendText (P : Primitives β X E) (signingPublic : Bytes β) (text : String) (env : SendEnv β) :
    Method (Exc β) (Node T X E) Bool := do
  let node ← Method.self
  match node.sessions.sessionFor signingPublic with
  | none => return false
  | some session =>
    let (blob, dstTag) ← onSession signingPublic session (Session.encryptTagged P
      (encodeMessage .text env.timestamp (encodeUtf8 text)) env.wallNow)
    emit .data blob dstTag env
    Method.update fun node =>
      { node with stats := { node.stats with messagesSent := node.stats.messagesSent + 1 } }
    return true

end Node

end Chatbit
