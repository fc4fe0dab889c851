import Chatbit.Lib.Runs
import Chatbit.Session

/-!
# Runs of one session manager

Everything that happens to a `SessionManager` after it is created: the calls that the node makes on
it, on its sessions and on the trust store that they share. The payloads come from the network,
which is the attacker; the keys, ids and clock readings are whatever the calls draw.
-/

namespace Chatbit

open Lib

variable {β X E : Type} [Alphabet β] [DecidableEq β]

inductive Call (β X : Type) where
  | start (peerStaticPublic hsId : Bytes β) (ephemeral : X) (now startedAt wallNow : ℚ)
  | init (payload : Bytes β) (ephemeral ratchetPrivate : X) (now startedAt : ℚ)
  | response (payload : Bytes β) (fresh : X) (now establishedAt : ℚ)
  | fin (payload : Bytes β) (fresh : X) (now establishedAt : ℚ)
  | encrypt (signingPublic plaintext : Bytes β)
  | decrypt (signingPublic blob : Bytes β) (fresh : X)
  | drop (signingPublic : Bytes β)
  | markVerified (signingPublic : Bytes β)
  | repin (signingPublic staticPublic : Bytes β)
  | forget (signingPublic : Bytes β)

namespace SessionManager

variable (P : Primitives β X E)

/-- A call on the session of a peer, which changes in place. -/
def onSession {α : Type} (signingPublic : Bytes β) (m : Method (Exc β) (Session β X) α)
    (manager : SessionManager β X E) : SessionManager β X E :=
  match manager.sessionFor signingPublic with
  | none => manager
  | some session =>
    { manager with sessions := manager.sessions.set signingPublic (m session).2 }

/-- A call on the trust store. -/
def onTrust {α : Type} (m : Method (Exc β) (TrustStore β) α) (manager : SessionManager β X E) :
    SessionManager β X E :=
  { manager with trust := (m manager.trust).2 }

/-- What a call leaves, whether it returns or raises. -/
def call (manager : SessionManager β X E) : Call β X → SessionManager β X E
  | .start peerStaticPublic hsId ephemeral now startedAt wallNow =>
    (startHandshake P peerStaticPublic hsId ephemeral now startedAt wallNow manager).2
  | .init payload ephemeral ratchetPrivate now startedAt =>
    (handleInit P payload ephemeral ratchetPrivate now startedAt manager).2
  | .response payload fresh now establishedAt =>
    (handleResponse P payload fresh now establishedAt manager).2
  | .fin payload fresh now establishedAt => (handleFin P payload fresh now establishedAt manager).2
  | .encrypt signingPublic plaintext =>
    manager.onSession signingPublic (Session.encrypt P plaintext)
  | .decrypt signingPublic blob fresh =>
    manager.onSession signingPublic (Session.decrypt P blob fresh)
  | .drop signingPublic =>
    (dropSession signingPublic manager : Except (Exc β) Unit × SessionManager β X E).2
  | .markVerified signingPublic => manager.onTrust (TrustStore.markVerified signingPublic)
  | .repin signingPublic staticPublic =>
    manager.onTrust (TrustStore.repin signingPublic staticPublic)
  | .forget signingPublic => manager.onTrust (TrustStore.forget signingPublic)

/-- The manager after some calls. -/
def afterCalls (manager : SessionManager β X E) (calls : List (Call β X)) :
    SessionManager β X E := calls.foldl (call P) manager

/-- The managers that runs reach, from any identity and any trust store. -/
def Reachable (manager : SessionManager β X E) : Prop :=
  ∃ identity trust, Reaches (fun _ _ => True) (call P)
    ({ identity := identity, trust := trust } : SessionManager β X E) manager

end SessionManager

end Chatbit
