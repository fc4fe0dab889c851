import Chatbit.Crypto.Primitives

/-!
# What is assumed of the primitives

The properties of the `cryptography` package and of the standard library's hashes that results
below rest on, in seven groups: what the functions are documented to do (`Correct`), that the two
hashes have no collisions (`HashIdeal`), that truncated tags have none (`TagIdeal`), that distinct
key pairs have distinct X25519 secrets, where both are known (`DhIdeal`) and where one is whatever
the peer sent (`RawDhIdeal`), that no ciphertext authenticates two associated data (`AeadIdeal`),
and that hashes, secrets and public keys are not mistaken for each other (`TermsIdeal`).

The last six are the symbolic idealisation. A fixed-size hash has collisions, and X25519 is a group
in which a secret of chosen bytes is any point, so none of these clauses is literally true of the
real functions: what is true is that nobody finds the exceptions. `TermsIdeal` says of each of its
clauses which it is. HMAC is only required to be injective on 32-byte keys: it pads shorter ones
with zeros. HKDF needs no assumption of its own, since it is defined from HMAC.
-/

namespace Chatbit

namespace Primitives

variable {β X E : Type} [Alphabet β] [DecidableEq β]

/-- The documented behaviour of the package. -/
structure Correct (P : Primitives β X E) : Prop where
  length_sha256 : ∀ d, (P.sha256 d).length = HASHLEN
  length_hmac : ∀ k d, (P.hmacSha256 k d).length = HASHLEN
  length_x25519Public : ∀ x, (P.x25519PublicBytes x).length = DHLEN
  length_ed25519Public : ∀ e, (P.ed25519PublicBytes e).length = 32
  length_sign : ∀ e m, (P.sign e m).length = 64
  length_encrypt : ∀ k n p ad, (P.chachaEncrypt k n p ad).length = p.length + TAGLEN
  /-- The AEAD is deterministic, and a ciphertext opens exactly when it is the sealed plaintext. -/
  decrypt_eq_some_iff : ∀ k n c p ad,
    P.chachaDecrypt k n c ad = some p ↔ c = P.chachaEncrypt k n p ad
  exchange_comm : ∀ a b,
    P.exchange a (P.x25519PublicBytes b) = P.exchange b (P.x25519PublicBytes a)
  exchange_ne_zero : ∀ a b, P.exchange a (P.x25519PublicBytes b) ≠ zeros DHLEN
  verify_sign : ∀ e m, P.ed25519Verify (P.ed25519PublicBytes e) (P.sign e m) m = true

/-- SHA-256 and HMAC-SHA256 have no collisions. -/
structure HashIdeal (P : Primitives β X E) : Prop where
  sha256_inj : ∀ d d', P.sha256 d = P.sha256 d' → d = d'
  hmac_inj : ∀ k k' d d', k.length = 32 → k'.length = 32 →
    P.hmacSha256 k d = P.hmacSha256 k' d' → k = k' ∧ d = d'

/-- Distinct pairs of public keys have distinct X25519 secrets. -/
structure DhIdeal (P : Primitives β X E) : Prop where
  exchange_inj : ∀ a b c d,
    P.exchange a (P.x25519PublicBytes b) = P.exchange c (P.x25519PublicBytes d) →
      (P.x25519PublicBytes a = P.x25519PublicBytes c ∧
        P.x25519PublicBytes b = P.x25519PublicBytes d) ∨
      (P.x25519PublicBytes a = P.x25519PublicBytes d ∧
        P.x25519PublicBytes b = P.x25519PublicBytes c)

/-- A key takes part in no secret of two other keys, whatever bytes the peer's key is. The zero
secret of a low-order point is everybody's. -/
structure RawDhIdeal (P : Primitives β X E) : Prop where
  exchange_half : ∀ x raw y raw', P.exchange x raw ≠ zeros DHLEN →
    P.exchange x raw = P.exchange y raw' →
      P.x25519PublicBytes x = P.x25519PublicBytes y ∨ P.x25519PublicBytes x = raw'

/-- A ciphertext has been sealed with one associated data. -/
structure AeadIdeal (P : Primitives β X E) : Prop where
  ad_inj : ∀ k k' n n' p p' ad ad',
    P.chachaEncrypt k n p ad = P.chachaEncrypt k' n' p' ad' → ad = ad'

/-- Tags are HMAC values cut to 8 bytes; under one key these have no collisions either. -/
structure TagIdeal (P : Primitives β X E) : Prop where
  tag_inj : ∀ k d d', (P.hmacSha256 k d).take 8 = (P.hmacSha256 k d').take 8 → d = d'

/-- Hashes, X25519 secrets and public keys are different terms, and a secret between two key pairs
takes one of their private keys. Only the length of a secret is documented behaviour. -/
structure TermsIdeal (P : Primitives β X E) : Prop where
  /-- X25519 returns 32 bytes for every peer key that it accepts. -/
  length_exchange : ∀ x raw, (P.exchange x raw).length = DHLEN
  /-- HMAC as a random function: it hits no public key. -/
  public_ne_hmac : ∀ x k d, P.x25519PublicBytes x ≠ P.hmacSha256 k d
  /-- HMAC as a random function: it hits no secret, with a peer key of any bytes. -/
  exchange_ne_hmac : ∀ x raw k d, P.exchange x raw ≠ P.hmacSha256 k d
  /-- The secret of two key pairs is nobody's public key. For a peer key of chosen bytes this
  fails: the exchange with the base point is the public key. -/
  public_ne_exchange : ∀ y x z, P.x25519PublicBytes y ≠ P.exchange x (P.x25519PublicBytes z)
  /-- The computational Diffie-Hellman assumption in its symbolic form: whoever computes the secret
  of two key pairs, from a peer key of any bytes, has one of the two private keys. -/
  exchange_half : ∀ x raw a b, P.exchange x raw = P.exchange a (P.x25519PublicBytes b) →
    P.x25519PublicBytes x = P.x25519PublicBytes a ∨ P.x25519PublicBytes x = P.x25519PublicBytes b

variable {P : Primitives β X E}

omit [Alphabet β] [DecidableEq β] in
/-- A salted extract is a 32-byte key, so it can be peeled off again. -/
lemma HashIdeal.extract_inj (hP : P.HashIdeal) {salt salt' ikm ikm' : Bytes β}
    (hs : salt.length = 32) (hs' : salt'.length = 32)
    (h : P.hmacSha256 salt ikm = P.hmacSha256 salt' ikm') : salt = salt' ∧ ikm = ikm' :=
  hP.hmac_inj _ _ _ _ hs hs' h

omit [DecidableEq β] in
lemma Correct.decrypt_encrypt (hP : P.Correct) (k n p ad : Bytes β) :
    P.chachaDecrypt k n (P.chachaEncrypt k n p ad) ad = some p :=
  (hP.decrypt_eq_some_iff k n _ p ad).mpr rfl

omit [DecidableEq β] in
/-- Opening a sealed plaintext gives that plaintext. -/
lemma Correct.encrypt_inj (hP : P.Correct) {k n p p' ad : Bytes β}
    (h : P.chachaEncrypt k n p ad = P.chachaEncrypt k n p' ad) : p = p' := by
  have hp := hP.decrypt_encrypt k n p ad
  rw [h, hP.decrypt_encrypt] at hp
  exact (Option.some.inj hp).symm

/-- `dh` succeeds on a key of the right size whose secret is not zero. -/
lemma dh_eq_ok {priv : X} {raw : Bytes β} (hlen : raw.length = DHLEN)
    (hz : P.exchange priv raw ≠ zeros DHLEN) : P.dh priv raw = .ok (P.exchange priv raw) := by
  simp [dh, loadX25519Public, hlen, hz]

lemma dh_error {priv : X} {raw : Bytes β} {err : Exc β} (h : P.dh priv raw = .error err) :
    ∃ m, err = .valueError m := by
  by_cases hlen : raw.length = DHLEN
  · by_cases hz : P.exchange priv raw = zeros DHLEN
    · simp only [dh, loadX25519Public, hlen, hz, ne_eq, not_true_eq_false, if_false, if_true,
        Except.error.injEq] at h
      exact ⟨_, h.symm⟩
    · rw [dh_eq_ok hlen hz] at h; cases h
  · simp only [dh, loadX25519Public, hlen, ne_eq, not_false_eq_true, if_true,
      Except.error.injEq] at h
    exact ⟨_, h.symm⟩

/-- `dh` with a public key that belongs to somebody always succeeds. -/
lemma Correct.dh_public (hP : P.Correct) (a b : X) :
    P.dh a (P.x25519PublicBytes b) = .ok (P.exchange a (P.x25519PublicBytes b)) :=
  dh_eq_ok (hP.length_x25519Public b) (hP.exchange_ne_zero a b)

omit [Alphabet β] [DecidableEq β] in
/-- `aead_encrypt` under a key and nonce of the right sizes. -/
lemma aeadEncrypt_eq {key nonce : Bytes β} (hk : key.length = KEYLEN) (hn : nonce.length = 12)
    (p ad : Bytes β) : P.aeadEncrypt key nonce p ad = .ok (P.chachaEncrypt key nonce p ad) := by
  simp [aeadEncrypt, hk, hn]

omit [Alphabet β] [DecidableEq β] in
lemma aeadDecrypt_ok_iff {key nonce c ad p : Bytes β} :
    P.aeadDecrypt key nonce c ad = .ok p ↔
      key.length = KEYLEN ∧ nonce.length = 12 ∧ P.chachaDecrypt key nonce c ad = some p := by
  by_cases hk : key.length = KEYLEN
  · by_cases hn : nonce.length = 12
    · cases hd : P.chachaDecrypt key nonce c ad <;> simp [aeadDecrypt, hk, hn, hd]
    · simp [aeadDecrypt, hk, hn]
  · simp [aeadDecrypt, hk]

/-! ## HKDF -/

omit [DecidableEq β] in
/-- HKDF-Expand to two blocks. -/
lemma Correct.hkdf_two_blocks (hP : P.Correct) (ikm salt info : Bytes β) (length : ℕ)
    (h : 33 ≤ length) (h' : length ≤ 64) :
    P.hkdf ikm salt info length =
      let prk := P.hmacSha256 salt ikm
      let t1 := P.hmacSha256 prk (info ++ [ofOctet 1])
      let t2 := P.hmacSha256 prk (t1 ++ info ++ [ofOctet 2])
      t1 ++ t2.take (length - 32) := by
  have hn : (length + HASHLEN - 1) / HASHLEN = 2 := by
    simp only [HASHLEN]; omega
  have h1 := hP.length_hmac (P.hmacSha256 salt ikm) (info ++ [ofOctet 1])
  simp only [HASHLEN] at h1
  have one : UInt8.ofNat 1 = 1 := rfl
  have two : UInt8.ofNat (1 + 1) = 2 := rfl
  simp only [hkdf, hn, hkdfBlocks, List.nil_append, List.append_nil, one, two]
  rw [List.take_append, h1, List.take_of_length_le (by rw [h1]; omega)]

end Primitives

end Chatbit
