import Mathlib.Logic.Function.Basic
import Chatbit.Lib.Runs
import Chatbit.Crypto.Ratchet

/-!
# Two parties and a network

A run of two ratchets that one `init_sender` / `init_receiver` pair started. Either side encrypts
whatever it likes, and the network hands either side any triple of header, ciphertext and
associated data: late, twice, to the wrong side, or made up. The run keeps a history of what was
sealed, what was accepted, which stored keys the cap evicted and which keys `keygen` handed out.

The two idealisations that concern a run are conditions on its events (`Admissible`): `keygen`
never hands out a key twice, and a ciphertext that opens was sealed in the run under the same key,
nonce and associated data.
-/

namespace Chatbit

open Lib

inductive Side where
  | initiator
  | responder
deriving DecidableEq

namespace Side

def peer : Side → Side
  | initiator => responder
  | responder => initiator

end Side

/-- A message that a side has sealed. -/
structure Sent (β : Type) where
  side : Side
  header : MessageHeader β
  ad : Bytes β
  plaintext : Bytes β
  ciphertext : Bytes β
  msgKey : Bytes β
deriving DecidableEq

/-- A delivery that a side has accepted. -/
structure Accepted (β : Type) where
  side : Side
  header : MessageHeader β
  ad : Bytes β
  ciphertext : Bytes β
  plaintext : Bytes β
deriving DecidableEq

structure RatchetRun (β X : Type) where
  ratchet : Side → DoubleRatchet β X
  sent : List (Sent β) := []
  accepted : List (Accepted β) := []
  evicted : Side → List (Bytes β × ℕ) := fun _ => []
  minted : List (Bytes β)

inductive RatchetEvent (β X : Type) where
  | encrypt (side : Side) (plaintext ad : Bytes β)
  | deliver (side : Side) (header : MessageHeader β) (ciphertext ad : Bytes β) (fresh : X)

variable {β X E : Type} [Alphabet β] [DecidableEq β] (P : Primitives β X E)

namespace DoubleRatchet

/-- The message key that the next `encrypt` call seals under. -/
def sealingKey (st : DoubleRatchet β X) : Bytes β :=
  match st.cks with
  | some cks => (kdfCk P cks).2
  | none => []

/-- The message key that a `decrypt` call opens the ciphertext under, if it gets that far. -/
def attemptKey (header : MessageHeader β) (fresh : X) (st : DoubleRatchet β X) :
    Option (Bytes β) :=
  match st.skipped.get? (header.ratchetPub, header.n) with
  | some msgKey => some msgKey
  | none =>
    match beginChain P header fresh st with
    | (.error _, _) => none
    | (.ok _, mid) =>
      match skipMessageKeys P header.n mid with
      | (.error _, _) => none
      | (.ok _, mid) => mid.ckr.map fun ckr => (kdfCk P ckr).2

end DoubleRatchet

/-- The message was sealed under this key, nonce and associated data, giving this ciphertext. -/
def Sent.SealedAs (m : Sent β) (key nonce ad plaintext ciphertext : Bytes β) : Prop :=
  messageKeys P m.msgKey = (key, nonce) ∧
    (∃ encoded, m.header.encode = .ok encoded ∧ ad = m.ad ++ encoded) ∧
    m.plaintext = plaintext ∧ m.ciphertext = ciphertext

namespace RatchetRun

/-- The run at its start: the responder published the key `r`, the initiator's first `keygen`
key is `a`. -/
def start (a r : X) (initiator responder : DoubleRatchet β X) : RatchetRun β X where
  ratchet
    | .initiator => initiator
    | .responder => responder
  minted := [P.x25519PublicBytes r, P.x25519PublicBytes a]

/-- The AEAD idealisation at one delivery: if the ciphertext opens under the key this call
uses, some `encrypt` call of the run sealed it under that key, nonce and associated data. -/
def Authentic (s : RatchetRun β X) (side : Side) (header : MessageHeader β)
    (ciphertext ad : Bytes β) (fresh : X) : Prop :=
  ∀ msgKey encoded plaintext,
    DoubleRatchet.attemptKey P header fresh (s.ratchet side) = some msgKey →
    header.encode = .ok encoded →
    P.chachaDecrypt (messageKeys P msgKey).1 (messageKeys P msgKey).2 ciphertext (ad ++ encoded) =
      some plaintext →
    ∃ m ∈ s.sent, m.SealedAs P (messageKeys P msgKey).1 (messageKeys P msgKey).2 (ad ++ encoded)
      plaintext ciphertext

/-- What the environment may do. -/
def Admissible (s : RatchetRun β X) : RatchetEvent β X → Prop
  | .encrypt _ _ _ => True
  | .deliver side header ciphertext ad fresh =>
    P.x25519PublicBytes fresh ∉ s.minted ∧ s.Authentic P side header ciphertext ad fresh

def afterEncrypt (s : RatchetRun β X) (side : Side) (plaintext ad : Bytes β) : RatchetRun β X :=
  let (result, st) := DoubleRatchet.encrypt P plaintext ad (s.ratchet side)
  { s with
    ratchet := Function.update s.ratchet side st
    sent := match result with
      | .ok (header, ciphertext) =>
        s.sent ++
          [⟨side, header, ad, plaintext, ciphertext, (s.ratchet side).sealingKey P⟩]
      | .error _ => s.sent }

def afterDeliver (s : RatchetRun β X) (side : Side) (header : MessageHeader β)
    (ciphertext ad : Bytes β) (fresh : X) : RatchetRun β X :=
  let (result, st) := DoubleRatchet.decrypt P header ciphertext ad fresh (s.ratchet side)
  { s with
    ratchet := Function.update s.ratchet side st
    accepted := match result with
      | .ok plaintext => s.accepted ++ [⟨side, header, ad, ciphertext, plaintext⟩]
      | .error _ => s.accepted
    evicted := Function.update s.evicted side (s.evicted side ++
      DoubleRatchet.decryptEvicts P header ciphertext ad fresh (s.ratchet side))
    minted := P.x25519PublicBytes fresh :: s.minted }

def step (s : RatchetRun β X) : RatchetEvent β X → RatchetRun β X
  | .encrypt side plaintext ad => s.afterEncrypt P side plaintext ad
  | .deliver side header ciphertext ad fresh => s.afterDeliver P side header ciphertext ad fresh

/-- `s` is a state of a run with shared key `k`, published key `r` and first sender key `a`. -/
def Reachable (k : Bytes β) (a r : X) (s : RatchetRun β X) : Prop :=
  ∃ initiator responder,
    P.x25519PublicBytes a ≠ P.x25519PublicBytes r ∧
    DoubleRatchet.initSender P k (P.x25519PublicBytes r) a = .ok initiator ∧
    DoubleRatchet.initReceiver k r = .ok responder ∧
    Reaches (Admissible P) (step P) (start P a r initiator responder) s

end RatchetRun

end Chatbit
