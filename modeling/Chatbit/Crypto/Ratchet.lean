import Chatbit.Lib.Method
import Chatbit.Lib.OrderedDict
import Chatbit.Crypto.Primitives

/-!
# The Double Ratchet

`chatbit/crypto/ratchet.py`. The state of one party is `DoubleRatchet`; `encrypt` and `decrypt` are
its methods. `keygen` hands out the key that a DH step asks for, so `decrypt` and `initSender` take
that key as an argument.
-/

namespace Chatbit

open Lib

def MAX_SKIP : ℕ := 256
def MAX_SKIPPED_KEYS : ℕ := 1024

/-- Ratchet public key, PN and N. -/
def RATCHET_HEADER_LEN : ℕ := 32 + 4 + 4

/-- The per-message header, in clear and authenticated as associated data. -/
structure MessageHeader (β : Type) where
  ratchetPub : Bytes β
  pn : ℕ
  n : ℕ
deriving DecidableEq

variable {β X E : Type} [Alphabet β] [DecidableEq β]

namespace MessageHeader

def encode (header : MessageHeader β) : Except (Exc β) (Bytes β) :=
  match intToBytes 4 header.pn, intToBytes 4 header.n with
  | .ok pn, .ok n => .ok (header.ratchetPub ++ pn ++ n)
  | .error e, _ => .error e
  | _, .error e => .error e

def decode (raw : Bytes β) : Except (Exc β) (MessageHeader β) :=
  if raw.length ≠ RATCHET_HEADER_LEN then
    .error (.ratchetError s!"ratchet header must be {RATCHET_HEADER_LEN} bytes")
  else .ok {
    ratchetPub := raw.take 32
    pn := fromBytesBig ((raw.drop 32).take 4)
    n := fromBytesBig ((raw.drop 36).take 4) }

end MessageHeader

/-! ## Key derivation -/

def rootInfo : Bytes β := ascii "chatbit/v1 ratchet-root"
def msgInfo : Bytes β := ascii "chatbit/v1 message-key"
def chainMsg : Bytes β := [ofOctet 1]
def chainNext : Bytes β := [ofOctet 2]

/-- Root KDF: (root key, DH output) ↦ (new root key, new chain key). -/
def kdfRk (P : Primitives β X E) (rk dhOut : Bytes β) : Bytes β × Bytes β :=
  let out := P.hkdf dhOut rk rootInfo 64
  (out.take 32, out.drop 32)

/-- Chain KDF: chain key ↦ (next chain key, message key). -/
def kdfCk (P : Primitives β X E) (ck : Bytes β) : Bytes β × Bytes β :=
  let mk := P.hmacSha256 ck chainMsg
  let nextCk := P.hmacSha256 ck chainNext
  (nextCk, mk)

/-- A message key expands into an AEAD key and nonce. -/
def messageKeys (P : Primitives β X E) (mk : Bytes β) : Bytes β × Bytes β :=
  let out := P.hkdf mk (zeros 32) msgInfo (KEYLEN + 12)
  (out.take KEYLEN, out.drop KEYLEN)

/-- Ratchet state for one peer session. -/
structure DoubleRatchet (β X : Type) where
  dhsPriv : X
  dhrPub : Option (Bytes β)
  rk : Bytes β
  cks : Option (Bytes β) := none
  ckr : Option (Bytes β) := none
  ns : ℕ := 0
  nr : ℕ := 0
  pn : ℕ := 0
  skipped : OrderedDict (Bytes β × ℕ) (Bytes β) := .empty

namespace DoubleRatchet

variable (P : Primitives β X E)

/-- For the side that sends first; `keygen` returns `dhs`. -/
def initSender (sharedKey peerRatchetPub : Bytes β) (dhs : X) :
    Except (Exc β) (DoubleRatchet β X) := do
  if sharedKey.length ≠ 32 then throw (.ratchetError "shared key must be 32 bytes")
  let _ ← loadX25519Public peerRatchetPub
  let shared ← P.dh dhs peerRatchetPub
  let (rk, cks) := kdfRk P sharedKey shared
  return { dhsPriv := dhs, dhrPub := some peerRatchetPub, rk := rk, cks := some cks }

/-- For the side whose ratchet public key was published in the handshake. -/
def initReceiver (sharedKey : Bytes β) (ratchetPrivate : X) :
    Except (Exc β) (DoubleRatchet β X) :=
  if sharedKey.length ≠ 32 then .error (.ratchetError "shared key must be 32 bytes")
  else .ok { dhsPriv := ratchetPrivate, dhrPub := none, rk := sharedKey }

def ratchetPublic (st : DoubleRatchet β X) : Bytes β := P.x25519PublicBytes st.dhsPriv

/-! ## Sending -/

def encrypt (plaintext associatedData : Bytes β) :
    Method (Exc β) (DoubleRatchet β X) (MessageHeader β × Bytes β) := do
  let st ← Method.self
  match st.cks with
  | none =>
    Method.raise (.ratchetError "no sending chain yet: this side must receive a message first")
  | some cks =>
    let (nextCk, msgKey) := kdfCk P cks
    Method.update fun st => { st with cks := some nextCk }
    let header : MessageHeader β := ⟨ratchetPublic P st, st.pn, st.ns⟩
    Method.update fun st => { st with ns := st.ns + 1 }
    let (key, nonce) := messageKeys P msgKey
    let encoded ← Method.eval header.encode
    let ct ← Method.eval (P.aeadEncrypt key nonce plaintext (associatedData ++ encoded))
    return (header, ct)

/-! ## Receiving -/

/-- Open a ciphertext under a message key, with the header bound into the associated data. -/
def openWith (msgKey : Bytes β) (header : MessageHeader β) (ciphertext associatedData : Bytes β) :
    Except (Exc β) (Bytes β) := do
  let (key, nonce) := messageKeys P msgKey
  let encoded ← header.encode
  P.aeadDecrypt key nonce ciphertext (associatedData ++ encoded)

/-- A stored key that does not authenticate stays: it means a forgery, and the real message may
still arrive. -/
def trySkipped (header : MessageHeader β) (ciphertext associatedData : Bytes β) :
    Method (Exc β) (DoubleRatchet β X) (Option (Bytes β)) := do
  let st ← Method.self
  match st.skipped.get? (header.ratchetPub, header.n) with
  | none => return none
  | some msgKey =>
    match openWith P msgKey header ciphertext associatedData with
    | .error (.aeadError _) => Method.raise (.ratchetError "skipped-key decryption failed")
    | .error e => Method.raise e
    | .ok pt =>
      Method.update fun st =>
        { st with skipped := st.skipped.erase (header.ratchetPub, header.n) }
      return some pt

/-- One turn of the loop of `_skip_message_keys` on a state whose receiving chain is `ckr`: the
key of message `nr` is stored, and the oldest stored keys above the cap are popped. -/
def skipOne (dhrPub ckr : Bytes β) (st : DoubleRatchet β X) : DoubleRatchet β X :=
  let (nextCk, msgKey) := kdfCk P ckr
  { st with
    ckr := some nextCk
    skipped := (st.skipped.set (dhrPub, st.nr) msgKey).evictOldest MAX_SKIPPED_KEYS
    nr := st.nr + 1 }

/-- The keys that the same turn pops. -/
def skipOnePops (dhrPub ckr : Bytes β) (st : DoubleRatchet β X) : List (Bytes β × ℕ) :=
  (st.skipped.set (dhrPub, st.nr) (kdfCk P ckr).2).evicted MAX_SKIPPED_KEYS

/-- The loop `while self.nr < until`, with the number of turns left; it also returns the keys that
`popitem` popped, which the source drops. -/
def skipLoop (dhrPub : Bytes β) : ℕ → (ckr : Bytes β) → DoubleRatchet β X →
    DoubleRatchet β X × List (Bytes β × ℕ)
  | 0, _, st => (st, [])
  | turns + 1, ckr, st =>
    let (st', popped) := skipLoop dhrPub turns (kdfCk P ckr).1 (skipOne P dhrPub ckr st)
    (st', skipOnePops P dhrPub ckr st ++ popped)

/-- Store the keys of the messages before `until_` on the receiving chain. -/
def skipMessageKeys (until_ : ℕ) :
    Method (Exc β) (DoubleRatchet β X) (List (Bytes β × ℕ)) := do
  let st ← Method.self
  match st.ckr with
  | none =>
    if until_ > 0 then
      Method.raise (.skippedKeyLimit "cannot skip keys with no receiving chain")
    else return []
  | some ckr =>
    if until_ - st.nr > MAX_SKIP then
      Method.raise (.skippedKeyLimit
        s!"message claims to skip {until_ - st.nr} keys (limit {MAX_SKIP})")
    else match st.dhrPub with
      | none => Method.raise .assertionError
      | some dhrPub =>
        let (st', popped) := skipLoop P dhrPub (until_ - st.nr) ckr st
        Method.update fun _ => st'
        return popped

/-- The DH step; `keygen` returns `fresh`. -/
def dhRatchet (header : MessageHeader β) (fresh : X) :
    Method (Exc β) (DoubleRatchet β X) Unit := do
  let _ ← Method.eval (loadX25519Public header.ratchetPub)
  Method.update fun st =>
    { st with pn := st.ns, ns := 0, nr := 0, dhrPub := some header.ratchetPub }
  let st ← Method.self
  let shared ← Method.eval (P.dh st.dhsPriv header.ratchetPub)
  Method.update fun st =>
    { st with rk := (kdfRk P st.rk shared).1, ckr := some (kdfRk P st.rk shared).2 }
  Method.update fun st => { st with dhsPriv := fresh }
  let shared ← Method.eval (P.dh fresh header.ratchetPub)
  Method.update fun st =>
    { st with rk := (kdfRk P st.rk shared).1, cks := some (kdfRk P st.rk shared).2 }

def decryptCurrent (header : MessageHeader β) (ciphertext associatedData : Bytes β) :
    Method (Exc β) (DoubleRatchet β X) (Bytes β) := do
  let st ← Method.self
  match st.ckr with
  | none => Method.raise (.ratchetError "no receiving chain established")
  | some ckr =>
    let (nextCkr, msgKey) := kdfCk P ckr
    let plaintext ← Method.eval (openWith P msgKey header ciphertext associatedData)
    Method.update fun st => { st with ckr := some nextCkr, nr := st.nr + 1 }
    return plaintext

/-- The first half of the `try` block of `decrypt`: under a new ratchet key, keep the keys still in
flight on the old chain and step. It returns the keys that the skip loop popped. -/
def beginChain (header : MessageHeader β) (fresh : X) :
    Method (Exc β) (DoubleRatchet β X) (List (Bytes β × ℕ)) := do
  let st ← Method.self
  if some header.ratchetPub ≠ st.dhrPub then
    let popped ← skipMessageKeys P header.pn
    dhRatchet P header fresh
    return popped
  else return []

/-- The `try` block of `decrypt`, run on a copy of the state. It also returns the keys that the
two skip loops popped. -/
def trial (header : MessageHeader β) (ciphertext associatedData : Bytes β) (fresh : X) :
    Method (Exc β) (DoubleRatchet β X) (Bytes β × List (Bytes β × ℕ)) := do
  let popped ← beginChain P header fresh
  let popped' ← skipMessageKeys P header.n
  let plaintext ← decryptCurrent P header ciphertext associatedData
  return (plaintext, popped ++ popped')

/-- `except (RatchetError, AEADError, ValueError)` around the `try` block. -/
def trialError : Exc β → Exc β
  | .ratchetError m => .ratchetError s!"message failed to authenticate: {m}"
  | .skippedKeyLimit m => .ratchetError s!"message failed to authenticate: {m}"
  | .aeadError m => .ratchetError s!"message failed to authenticate: {m}"
  | .valueError m => .ratchetError s!"message failed to authenticate: {m}"
  | e => e

/-- Decrypt one message; the state advances only once it has authenticated. -/
def decrypt (header : MessageHeader β) (ciphertext associatedData : Bytes β) (fresh : X) :
    Method (Exc β) (DoubleRatchet β X) (Bytes β) := do
  match ← trySkipped P header ciphertext associatedData with
  | some plaintext => return plaintext
  | none =>
    let st ← Method.self
    match trial P header ciphertext associatedData fresh st with
    | (.error e, _) => Method.raise (trialError e)
    | (.ok (plaintext, _), st') =>
      Method.update fun _ => st'
      return plaintext

/-- The stored keys that a `decrypt` call loses to the cap: what `popitem` pops in a call that
commits its copy. -/
def decryptEvicts (header : MessageHeader β) (ciphertext associatedData : Bytes β) (fresh : X)
    (st : DoubleRatchet β X) : List (Bytes β × ℕ) :=
  match trySkipped P header ciphertext associatedData st with
  | (.ok none, _) =>
    match trial P header ciphertext associatedData fresh st with
    | (.ok (_, popped), _) => popped
    | (.error _, _) => []
  | _ => []

end DoubleRatchet

end Chatbit
