import Mathlib.Data.Rat.Init
import Chatbit.Bytes

/-!
# Cryptographic primitives

The wrappers of `chatbit/crypto/primitives.py`. What they wrap, the `cryptography` package and the
standard library's hashes, is the parameter `Primitives`; the constructions the source builds or
names on top of it (HKDF of RFC 5869, Noise's HKDF, the length and zero checks) are definitions.
-/

namespace Chatbit

/-- The exceptions the modelled code raises, with the text they carry. `skippedKeyLimit` is a
`RatchetError`, as its class says, and `callbackError` is whatever a callback of the application
raises. -/
inductive Exc (β : Type) where
  | valueError (msg : String)
  | overflowError (msg : String)
  | assertionError
  | attributeError
  | aeadError (msg : String)
  | noiseError (msg : String)
  | ratchetError (msg : String)
  | skippedKeyLimit (msg : String)
  | trustError (msg : String)
  | keyChangedError (name : String) (pinned presented : Bytes β)
  | sessionError (msg : String)
  | packetError (msg : String)
  | reassemblyError (msg : String)
  | dutyCycleExceeded (waitSeconds : ℚ)
  | transportError (msg : String)
  | indexError (msg : String)
  | callbackError (msg : String)
deriving DecidableEq

/-- `str(exc)` of the exceptions that other exceptions quote. -/
def Exc.msg {β : Type} : Exc β → String
  | .valueError m | .overflowError m | .aeadError m | .noiseError m | .ratchetError m
  | .skippedKeyLimit m | .trustError m | .sessionError m | .packetError m
  | .reassemblyError m | .transportError m | .indexError m | .callbackError m => m
  | _ => ""

/-- `except (NoiseError, ValueError)` -/
def Exc.isNoiseOrValueError {β : Type} : Exc β → Bool
  | .noiseError _ | .valueError _ => true
  | _ => false

/-- The outside world of the primitives: `X` are X25519 private keys, `E` are Ed25519 ones. -/
structure Primitives (β X E : Type) where
  sha256 : Bytes β → Bytes β
  hmacSha256 : (key data : Bytes β) → Bytes β
  /-- `ChaCha20Poly1305(key).encrypt(nonce, plaintext, ad)` -/
  chachaEncrypt : (key nonce plaintext ad : Bytes β) → Bytes β
  /-- `ChaCha20Poly1305(key).decrypt(nonce, ciphertext, ad)`; `none` is `InvalidTag`. -/
  chachaDecrypt : (key nonce ciphertext ad : Bytes β) → Option (Bytes β)
  x25519PublicBytes : X → Bytes β
  /-- `private.exchange(X25519PublicKey.from_public_bytes(raw))` -/
  exchange : X → Bytes β → Bytes β
  ed25519PublicBytes : E → Bytes β
  sign : E → Bytes β → Bytes β
  /-- Whether `Ed25519PublicKey.from_public_bytes(raw).verify(signature, message)` returns. -/
  ed25519Verify : (raw signature message : Bytes β) → Bool

/-- `n.to_bytes(len, "big")` of a nonnegative integer. -/
def intToBytes {β : Type} [Alphabet β] (len n : ℕ) : Except (Exc β) (Bytes β) :=
  if n < 256 ^ len then .ok (toBytesBig len n) else .error (.overflowError "int too big to convert")

def HASHLEN : ℕ := 32
def DHLEN : ℕ := 32
def KEYLEN : ℕ := 32
def TAGLEN : ℕ := 16

/-- The length check of `load_x25519_public`. The key object is its raw form. -/
def loadX25519Public {β : Type} (raw : Bytes β) : Except (Exc β) (Bytes β) :=
  if raw.length ≠ DHLEN then
    .error (.valueError s!"X25519 public key must be {DHLEN} bytes, got {raw.length}")
  else .ok raw

namespace Primitives

variable {β X E : Type} [Alphabet β] [DecidableEq β] (P : Primitives β X E)

/-! ## Hashing and key derivation -/

/-- The blocks `T(i), T(i+1), …` of HKDF-Expand, `count` of them. -/
def hkdfBlocks (prk info : Bytes β) : (count i : ℕ) → (prev : Bytes β) → Bytes β
  | 0, _, _ => []
  | count + 1, i, prev =>
    let t := P.hmacSha256 prk (prev ++ info ++ [ofOctet (UInt8.ofNat i)])
    t ++ hkdfBlocks prk info count (i + 1) t

/-- Standard HKDF-SHA256: extract, then expand. -/
def hkdf (ikm salt info : Bytes β) (length : ℕ) : Bytes β :=
  (P.hkdfBlocks (P.hmacSha256 salt ikm) info ((length + HASHLEN - 1) / HASHLEN) 1 []).take length

/-- Noise's own HKDF, with two outputs. -/
def noiseHkdf (chainingKey inputKeyMaterial : Bytes β) : Bytes β × Bytes β :=
  let tempKey := P.hmacSha256 chainingKey inputKeyMaterial
  let out1 := P.hmacSha256 tempKey [ofOctet 1]
  let out2 := P.hmacSha256 tempKey (out1 ++ [ofOctet 2])
  (out1, out2)

/-! ## AEAD -/

def aeadEncrypt (key nonce plaintext ad : Bytes β) : Except (Exc β) (Bytes β) :=
  if key.length ≠ KEYLEN then .error (.valueError "ChaCha20-Poly1305 needs a 32-byte key")
  else if nonce.length ≠ 12 then .error (.valueError "ChaCha20-Poly1305 needs a 12-byte nonce")
  else .ok (P.chachaEncrypt key nonce plaintext ad)

def aeadDecrypt (key nonce ciphertext ad : Bytes β) : Except (Exc β) (Bytes β) :=
  if key.length ≠ KEYLEN then .error (.valueError "ChaCha20-Poly1305 needs a 32-byte key")
  else if nonce.length ≠ 12 then .error (.valueError "ChaCha20-Poly1305 needs a 12-byte nonce")
  else match P.chachaDecrypt key nonce ciphertext ad with
    | some plaintext => .ok plaintext
    | none => .error (.aeadError "AEAD authentication failed")

/-! ## X25519 and Ed25519 -/

/-- X25519 that rejects the all-zero shared secret. -/
def dh (priv : X) (peerPublic : Bytes β) : Except (Exc β) (Bytes β) :=
  match loadX25519Public peerPublic with
  | .error e => .error e
  | .ok raw =>
    let shared := P.exchange priv raw
    if shared = zeros DHLEN then
      .error (.valueError "X25519 produced an all-zero shared secret (low-order point)")
    else .ok shared

/-- A public key of the wrong length verifies nothing. -/
def verify (pub signature message : Bytes β) : Bool :=
  pub.length = 32 && P.ed25519Verify pub signature message

end Primitives

end Chatbit
