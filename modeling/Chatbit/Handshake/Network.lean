import Chatbit.SessionRun

/-!
# Honest parties on a hostile network

Any number of honest session managers. The network delivers whatever it likes to whomever it likes,
so a run is any sequence of calls with any payloads, and of beacons. What an honest party has signed
is kept in a journal: the handshake object at the moment when the payload builder signs its
transcript hash, and the bodies of beacons, which are signed with the same key and domain. Of the
attacker it is only asked that a signature which verifies under an honest key is one that its
owner made (`Unforged`).
-/

namespace Chatbit

open Lib HandshakeState

variable {ι β X E : Type} [Alphabet β] [DecidableEq β]

/-- What `sign_transcript` was called for. -/
inductive Signed (β X : Type) where
  | handshake (st : HandshakeState β X)
  | beacon (body : Bytes β)

/-- The message that was signed. -/
def Signed.message : Signed β X → Bytes β
  | .handshake st => SIG_DOMAIN ++ st.symmetric.h
  | .beacon body => SIG_DOMAIN ++ body

/-- The body that `broadcast_beacon` signs; the time is packed into 8 bytes. -/
def Identity.beaconBody (P : Primitives β X E) (identity : Identity X E) (timestamp : Bytes β) :
    Bytes β := identity.signingPublic P ++ identity.staticPublic P ++ timestamp

namespace SessionManager

variable (P : Primitives β X E)

/-- The object that a method which returns leaves. -/
def leaves {σ α : Type} : Except (Exc β) α × σ → Option σ
  | (.ok _, s) => some s
  | (.error _, _) => none

/-- The handshake object that a call signs for: the payload builder runs between the two parts of
`write_message_2` in `handle_init`, and of `write_message_3` in `handle_response`. -/
def signing (manager : SessionManager β X E) : Call β X → Option (HandshakeState β X)
  | .init payload ephemeral _ now _ =>
    let manager := manager.expire now
    if manager.pending.length ≥ MAX_PENDING_HANDSHAKES then none
    else if payload.take HS_ID_LEN ∈ manager.pending.keys then none
    else do
      let handshake ← leaves (readMessage1 P (payload.drop HS_ID_LEN)
        (HandshakeState.new P false manager.identity.staticPrivate PROLOGUE))
      leaves (writeStatic2 P ephemeral handshake)
  | .response payload _ now _ => do
    let pending ← manager.pending.get? (payload.take HS_ID_LEN)
    if pending.initiator = false then none
    else
      match acceptResponse P (payload.take HS_ID_LEN) (payload.drop HS_ID_LEN) pending now
        manager with
      | (.ok (_, _, pending), _) => leaves (writeStatic3 P pending.handshake)
      | (.error _, _) => none
  | _ => none

end SessionManager

structure World (ι β X E : Type) where
  manager : ι → SessionManager β X E
  journal : List (ι × Signed β X)

inductive NetworkEvent (ι β X : Type) where
  | call (party : ι) (c : Call β X)
  | beacon (party : ι) (timestamp : Bytes β)

namespace World

variable (P : Primitives β X E)

def initial (identity : ι → Identity X E) (trust : ι → TrustStore β) : World ι β X E where
  manager a := { identity := identity a, trust := trust a }
  journal := []

/-- A party has signed the message. -/
def HasSigned (w : World ι β X E) (b : ι) (message : Bytes β) : Prop :=
  ∃ item, (b, item) ∈ w.journal ∧ item.message = message

/-- The claim of an identity payload on the hash `h` is not a forgery: if its signature verifies,
then each honest party whose key it names has signed `h`. -/
def Genuine (w : World ι β X E) (claim : IdentityPayload β) (h : Bytes β) : Prop :=
  P.verify claim.signingPub claim.signature (SIG_DOMAIN ++ h) = true →
    ∀ b, (w.manager b).identity.signingPublic P = claim.signingPub →
      w.HasSigned b (SIG_DOMAIN ++ h)

/-- What a call verifies is not a forgery. -/
def Unforged (w : World ι β X E) (a : ι) : Call β X → Prop
  | .response payload _ _ _ => ∀ pending rs h identityPayload st claim,
    (w.manager a).pending.get? (payload.take HS_ID_LEN) = some pending →
    readMessage2 P (payload.drop HS_ID_LEN) pending.handshake = (.ok (rs, h, identityPayload), st) →
    decodeIdentityPayload identityPayload true = .ok claim → w.Genuine P claim h
  | .fin payload _ _ _ => ∀ pending rs h identityPayload st claim,
    (w.manager a).pending.get? (payload.take HS_ID_LEN) = some pending →
    readMessage3 P (payload.drop HS_ID_LEN) pending.handshake = (.ok (rs, h, identityPayload), st) →
    decodeIdentityPayload identityPayload false = .ok claim → w.Genuine P claim h
  | _ => True

def Admissible (w : World ι β X E) : NetworkEvent ι β X → Prop
  | .call a c => w.Unforged P a c
  | .beacon _ timestamp => timestamp.length = 8

variable [DecidableEq ι]

def step (w : World ι β X E) : NetworkEvent ι β X → World ι β X E
  | .call a c =>
    { manager := Function.update w.manager a ((w.manager a).call P c)
      journal := ((w.manager a).signing P c).toList.map (fun st => (a, .handshake st)) ++ w.journal }
  | .beacon a timestamp =>
    { w with
      journal := (a, .beacon ((w.manager a).identity.beaconBody P timestamp)) :: w.journal }

/-- The worlds that runs of parties with these identities reach. -/
def Reachable (identity : ι → Identity X E) (w : World ι β X E) : Prop :=
  ∃ trust, Reaches (Admissible P) (step P) (initial identity trust) w

end World

end Chatbit
