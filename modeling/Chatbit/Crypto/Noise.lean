import Chatbit.Lib.Method
import Chatbit.Crypto.Primitives

/-!
# Noise_XX_25519_ChaChaPoly_SHA256

`chatbit/crypto/noise.py`. The three objects of the Noise framework as states, their methods in
the words of the source. The ephemeral key that `ephemeral_factory` returns is an argument of the
two methods that draw one.
-/

namespace Chatbit

open Lib

variable {β X E : Type} [Alphabet β] [DecidableEq β]

def PROTOCOL_NAME : Bytes β := ascii "Noise_XX_25519_ChaChaPoly_SHA256"
def MAX_NONCE : ℕ := 2 ^ 64 - 1

/-- 4 zero bytes, then `n` as 8 little-endian bytes. -/
def nonceBytes (n : ℕ) : Bytes β := zeros 4 ++ toBytesLittle 8 n

/-- A key and a nonce counter. -/
structure CipherState (β : Type) where
  k : Option (Bytes β) := none
  n : ℕ := 0
deriving DecidableEq

namespace CipherState

variable (P : Primitives β X E)

def encryptWithAd (ad plaintext : Bytes β) : Method (Exc β) (CipherState β) (Bytes β) := do
  let st ← Method.self
  match st.k with
  | none => return plaintext
  | some k =>
    if st.n > MAX_NONCE then
      Method.raise (.noiseError "nonce exhausted; rekey or start a new session")
    else
      let ct ← Method.eval (P.aeadEncrypt k (nonceBytes st.n) plaintext ad)
      Method.update fun st => { st with n := st.n + 1 }
      return ct

/-- `except AEADError` -/
def decryptError : Exc β → Exc β
  | .aeadError _ => .noiseError "handshake/transport decryption failed"
  | e => e

def decryptWithAd (ad ciphertext : Bytes β) : Method (Exc β) (CipherState β) (Bytes β) := do
  let st ← Method.self
  match st.k with
  | none => return ciphertext
  | some k =>
    if st.n > MAX_NONCE then
      Method.raise (.noiseError "nonce exhausted; rekey or start a new session")
    else match P.aeadDecrypt k (nonceBytes st.n) ciphertext ad with
      | .error e => Method.raise (decryptError e)
      | .ok pt =>
        Method.update fun st => { st with n := st.n + 1 }
        return pt

end CipherState

/-- Chaining key and transcript hash. -/
structure SymmetricState (β : Type) where
  ck : Bytes β
  h : Bytes β
  cipher : CipherState β := {}
deriving DecidableEq

namespace SymmetricState

variable (P : Primitives β X E)

def initial (protocolName : Bytes β) : SymmetricState β :=
  let h := if protocolName.length ≤ HASHLEN then
      protocolName ++ zeros (HASHLEN - protocolName.length)
    else P.sha256 protocolName
  { ck := h, h := h }

def mixKey (inputKeyMaterial : Bytes β) (st : SymmetricState β) : SymmetricState β :=
  let (ck, tempK) := P.noiseHkdf st.ck inputKeyMaterial
  { st with ck := ck, cipher := { k := some (tempK.take KEYLEN) } }

def mixHash (data : Bytes β) (st : SymmetricState β) : SymmetricState β :=
  { st with h := P.sha256 (st.h ++ data) }

/-- A call on the `cipher` field. -/
def onCipher {α : Type} (m : Method (Exc β) (CipherState β) α) :
    Method (Exc β) (SymmetricState β) α :=
  Method.onField cipher (fun c st => { st with cipher := c }) m

def encryptAndHash (plaintext : Bytes β) : Method (Exc β) (SymmetricState β) (Bytes β) := do
  let st ← Method.self
  let ciphertext ← onCipher (CipherState.encryptWithAd P st.h plaintext)
  Method.update (mixHash P ciphertext)
  return ciphertext

def decryptAndHash (ciphertext : Bytes β) : Method (Exc β) (SymmetricState β) (Bytes β) := do
  let st ← Method.self
  let plaintext ← onCipher (CipherState.decryptWithAd P st.h ciphertext)
  Method.update (mixHash P ciphertext)
  return plaintext

def split (st : SymmetricState β) : CipherState β × CipherState β :=
  let (tempK1, tempK2) := P.noiseHkdf st.ck []
  ({ k := some (tempK1.take KEYLEN) }, { k := some (tempK2.take KEYLEN) })

end SymmetricState

/-- One party's side of the XX pattern. -/
structure HandshakeState (β X : Type) where
  initiator : Bool
  staticPrivate : X
  symmetric : SymmetricState β
  e : Option X := none
  re : Option (Bytes β) := none
  rs : Option (Bytes β) := none
  msgIndex : ℕ := 0
  splitPair : Option (CipherState β × CipherState β) := none
deriving DecidableEq

namespace HandshakeState

variable (P : Primitives β X E)

def new (initiator : Bool) (staticPrivate : X) (prologue : Bytes β) : HandshakeState β X where
  initiator := initiator
  staticPrivate := staticPrivate
  symmetric := (SymmetricState.initial P PROTOCOL_NAME).mixHash P prologue

/-- A call on the `symmetric` field. -/
def onSymmetric {α : Type} (m : Method (Exc β) (SymmetricState β) α) :
    Method (Exc β) (HandshakeState β X) α :=
  Method.onField symmetric (fun s st => { st with symmetric := s }) m

def mixHash (data : Bytes β) : Method (Exc β) (HandshakeState β X) Unit :=
  onSymmetric (Method.update (SymmetricState.mixHash P data))

/-- `self.symmetric.mix_key(dh(priv, pub))` of two fields, which are set when this is reached. -/
def mixDh (priv : Option X) (pub : Option (Bytes β)) :
    Method (Exc β) (HandshakeState β X) Unit := do
  match priv, pub with
  | some priv, some pub =>
    let shared ← Method.eval (P.dh priv pub)
    onSymmetric (Method.update (SymmetricState.mixKey P shared))
  | _, _ => Method.raise .attributeError

/-! ## Message 1: → e -/

def writeMessage1 (fresh : X) : Method (Exc β) (HandshakeState β X) (Bytes β) := do
  let st ← Method.self
  if st.initiator = false ∨ st.msgIndex ≠ 0 then
    Method.raise (.noiseError "write_message_1 out of order")
  else
    Method.update fun st => { st with e := some fresh }
    let epub := P.x25519PublicBytes fresh
    mixHash P epub
    Method.update fun st => { st with msgIndex := 1 }
    return epub

def readMessage1 (message : Bytes β) : Method (Exc β) (HandshakeState β X) Unit := do
  let st ← Method.self
  if st.initiator = true ∨ st.msgIndex ≠ 0 then
    Method.raise (.noiseError "read_message_1 out of order")
  else if message.length ≠ DHLEN then
    Method.raise (.noiseError "malformed handshake message 1")
  else
    Method.update fun st => { st with re := some message }
    let _ ← Method.eval (loadX25519Public message)
    mixHash P message
    Method.update fun st => { st with msgIndex := 1 }

/-! ## Message 2: ← e, ee, s, es -/

/-- `write_message_2` up to the call of the payload builder, which gets the hash `h` that this
leaves. It returns `epub` and `enc_s`. -/
def writeStatic2 (fresh : X) : Method (Exc β) (HandshakeState β X) (Bytes β × Bytes β) := do
  let st ← Method.self
  if st.initiator = true ∨ st.msgIndex ≠ 1 then
    Method.raise (.noiseError "write_message_2 out of order")
  else
    Method.update fun st => { st with e := some fresh }
    let epub := P.x25519PublicBytes fresh
    mixHash P epub
    mixDh P (some fresh) st.re
    let spub := P.x25519PublicBytes st.staticPrivate
    let encS ← onSymmetric (SymmetricState.encryptAndHash P spub)
    mixDh P (some st.staticPrivate) st.re
    return (epub, encS)

def writeMessage2 (payloadBuilder : Bytes β → Bytes β) (fresh : X) :
    Method (Exc β) (HandshakeState β X) (Bytes β) := do
  let (epub, encS) ← writeStatic2 P fresh
  let st ← Method.self
  let payload := payloadBuilder st.symmetric.h
  let encPayload ← onSymmetric (SymmetricState.encryptAndHash P payload)
  Method.update fun st => { st with msgIndex := 2 }
  return epub ++ encS ++ encPayload

/-- It returns the remote static key, the hash that the writer signed and the payload. -/
def readMessage2 (message : Bytes β) :
    Method (Exc β) (HandshakeState β X) (Bytes β × Bytes β × Bytes β) := do
  let st ← Method.self
  if st.initiator = false ∨ st.msgIndex ≠ 1 then
    Method.raise (.noiseError "read_message_2 out of order")
  else if message.length < DHLEN + DHLEN + TAGLEN then
    Method.raise (.noiseError "malformed handshake message 2")
  else
    let re := message.take DHLEN
    Method.update fun st => { st with re := some re }
    let _ ← Method.eval (loadX25519Public re)
    mixHash P re
    mixDh P st.e (some re)
    let encS := (message.drop DHLEN).take (DHLEN + TAGLEN)
    let rs ← onSymmetric (SymmetricState.decryptAndHash P encS)
    Method.update fun st => { st with rs := some rs }
    let _ ← Method.eval (loadX25519Public rs)
    mixDh P st.e (some rs)
    let st ← Method.self
    let signedH := st.symmetric.h
    let payload ← onSymmetric
      (SymmetricState.decryptAndHash P (message.drop (DHLEN + DHLEN + TAGLEN)))
    Method.update fun st => { st with msgIndex := 2 }
    return (rs, signedH, payload)

/-! ## Message 3: → s, se -/

/-- `write_message_3` up to the call of the payload builder. It returns `enc_s`. -/
def writeStatic3 : Method (Exc β) (HandshakeState β X) (Bytes β) := do
  let st ← Method.self
  if st.initiator = false ∨ st.msgIndex ≠ 2 then
    Method.raise (.noiseError "write_message_3 out of order")
  else
    let spub := P.x25519PublicBytes st.staticPrivate
    let encS ← onSymmetric (SymmetricState.encryptAndHash P spub)
    mixDh P (some st.staticPrivate) st.re
    return encS

def writeMessage3 (payloadBuilder : Bytes β → Bytes β) :
    Method (Exc β) (HandshakeState β X) (Bytes β) := do
  let encS ← writeStatic3 P
  let st ← Method.self
  let payload := payloadBuilder st.symmetric.h
  let encPayload ← onSymmetric (SymmetricState.encryptAndHash P payload)
  Method.update fun st => { st with splitPair := some (st.symmetric.split P), msgIndex := 3 }
  return encS ++ encPayload

def readMessage3 (message : Bytes β) :
    Method (Exc β) (HandshakeState β X) (Bytes β × Bytes β × Bytes β) := do
  let st ← Method.self
  if st.initiator = true ∨ st.msgIndex ≠ 2 then
    Method.raise (.noiseError "read_message_3 out of order")
  else if message.length < DHLEN + TAGLEN then
    Method.raise (.noiseError "malformed handshake message 3")
  else
    let encS := message.take (DHLEN + TAGLEN)
    let rs ← onSymmetric (SymmetricState.decryptAndHash P encS)
    Method.update fun st => { st with rs := some rs }
    let _ ← Method.eval (loadX25519Public rs)
    mixDh P st.e (some rs)
    let st ← Method.self
    let signedH := st.symmetric.h
    let payload ← onSymmetric (SymmetricState.decryptAndHash P (message.drop (DHLEN + TAGLEN)))
    Method.update fun st => { st with splitPair := some (st.symmetric.split P), msgIndex := 3 }
    return (rs, signedH, payload)

/-! ## Completion -/

/-- `(send, recv)` transport keys of this side. -/
def split (st : HandshakeState β X) : Except (Exc β) (CipherState β × CipherState β) :=
  match st.splitPair with
  | none => .error (.noiseError "handshake is not complete")
  | some (c1, c2) => .ok (if st.initiator then (c1, c2) else (c2, c1))

def chainingKey (st : HandshakeState β X) : Except (Exc β) (Bytes β) :=
  match st.splitPair with
  | none => .error (.noiseError "handshake is not complete")
  | some _ => .ok st.symmetric.ck

end HandshakeState

end Chatbit
