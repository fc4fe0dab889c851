import Chatbit.Lib.Deduction
import Chatbit.Crypto.RatchetTheorems

/-!
# What an attacker derives from a ratchet state

The attacker knows every public key and every header, has some private keys, and applies X25519 and
the key derivation functions of the ratchet to what it knows. Given the complete state of a party it
knows the root key, both chain keys, all stored message keys and the ratchet key.
-/

namespace Chatbit

open Lib

variable {β X E : Type} [Alphabet β] [DecidableEq β] (P : Primitives β X E)

/-- What the attacker can do, with the private keys `privs`. Root keys and chain keys have 32
bytes. -/
inductive AttackerRule (privs : Set X) : List (Bytes β) → Bytes β → Prop
  | ratchetPub (x : X) : AttackerRule privs [] (P.x25519PublicBytes x)
  | header {header : MessageHeader β} {encoded : Bytes β} (hpub : header.ratchetPub.length = DHLEN)
      (h : header.encode = .ok encoded) : AttackerRule privs [] encoded
  | dh {x : X} (hx : x ∈ privs) (raw : Bytes β) : AttackerRule privs [raw] (P.exchange x raw)
  | kdfRkRoot {rk : Bytes β} (hrk : rk.length = 32) (dhOut : Bytes β) :
      AttackerRule privs [rk, dhOut] (kdfRk P rk dhOut).1
  | kdfRkChain {rk : Bytes β} (hrk : rk.length = 32) (dhOut : Bytes β) :
      AttackerRule privs [rk, dhOut] (kdfRk P rk dhOut).2
  | kdfCkChain {ck : Bytes β} (hck : ck.length = 32) : AttackerRule privs [ck] (kdfCk P ck).1
  | kdfCkMessage {ck : Bytes β} (hck : ck.length = 32) : AttackerRule privs [ck] (kdfCk P ck).2
  | aeadKey (mk : Bytes β) : AttackerRule privs [mk] (messageKeys P mk).1
  | aeadNonce (mk : Bytes β) : AttackerRule privs [mk] (messageKeys P mk).2

/-- The keys that a state consists of, but for the private key. -/
def DoubleRatchet.keys (st : DoubleRatchet β X) : Set (Bytes β) := fun t =>
  t = st.rk ∨ st.cks = some t ∨ st.ckr = some t ∨ t ∈ st.skipped.values

/-- The attacker derives the term from the complete state and private keys of its own. -/
def Learns (privs : Set X) (st : DoubleRatchet β X) (t : Bytes β) : Prop :=
  Derivable (AttackerRule P (insert st.dhsPriv privs)) st.keys t

/-- The shared key is none of the terms that the ratchet and the attacker make. -/
structure Independent (k : Bytes β) : Prop where
  ne_public : ∀ x, k ≠ P.x25519PublicBytes x
  ne_exchange : ∀ x raw, k ≠ P.exchange x raw
  ne_kdfRk : ∀ rk dhOut, k ≠ (kdfRk P rk dhOut).1 ∧ k ≠ (kdfRk P rk dhOut).2
  ne_kdfCk : ∀ ck, ck.length = 32 → k ≠ (kdfCk P ck).1 ∧ k ≠ (kdfCk P ck).2
  ne_messageKeys : ∀ mk, k ≠ (messageKeys P mk).1

variable {P}

/-! ## Outputs of the key derivation functions -/

/-- A hash of this many bytes under a 32-byte key. -/
def IsHmac (P : Primitives β X E) (len : ℕ) (t : Bytes β) : Prop :=
  ∃ key data, key.length = 32 ∧ data.length = len ∧ t = P.hmacSha256 key data

omit [Alphabet β] [DecidableEq β] in
/-- Hashes of strings of different lengths are different. -/
lemma IsHmac.length_unique (hH : P.HashIdeal) {len len' : ℕ} {t : Bytes β} (h : IsHmac P len t)
    (h' : IsHmac P len' t) : len = len' := by
  obtain ⟨key, data, hkey, rfl, rfl⟩ := h
  obtain ⟨key', data', hkey', rfl, heq⟩ := h'
  rw [(hH.hmac_inj _ _ _ _ hkey hkey' heq).2]

omit [DecidableEq β] in
lemma length_msgInfo : (msgInfo : Bytes β).length = 22 := by
  unfold msgInfo
  rw [length_ascii]
  decide

section Outputs

variable (hP : P.Correct)
include hP

omit [DecidableEq β] in
lemma isHmac_kdfRk_fst (rk dhOut : Bytes β) : IsHmac P 24 (kdfRk P rk dhOut).1 := by
  rw [kdfRk_eq hP]
  exact ⟨_, _, hP.length_hmac _ _, by simp [length_rootInfo], rfl⟩

omit [DecidableEq β] in
lemma isHmac_kdfRk_snd (rk dhOut : Bytes β) : IsHmac P 56 (kdfRk P rk dhOut).2 := by
  have hlen := hP.length_hmac
  simp only [HASHLEN] at hlen
  rw [kdfRk_eq hP]
  exact ⟨_, _, hlen _ _, by simp [length_rootInfo, hlen], rfl⟩

omit hP [DecidableEq β] in
lemma isHmac_kdfCk_fst {ck : Bytes β} (h : ck.length = 32) : IsHmac P 1 (kdfCk P ck).1 :=
  ⟨ck, chainNext, h, rfl, rfl⟩

omit hP [DecidableEq β] in
lemma isHmac_kdfCk_snd {ck : Bytes β} (h : ck.length = 32) : IsHmac P 1 (kdfCk P ck).2 :=
  ⟨ck, chainMsg, h, rfl, rfl⟩

omit [DecidableEq β] in
lemma isHmac_messageKeys_fst (mk : Bytes β) : IsHmac P 23 (messageKeys P mk).1 := by
  rw [messageKeys_eq hP]
  exact ⟨_, _, hP.length_hmac _ _, by simp [length_msgInfo], rfl⟩

variable (hH : P.HashIdeal)
include hH

omit hP [DecidableEq β] in
/-- A chain key is never a message key: their hashes end in different bytes. -/
lemma kdfCk_fst_ne_snd {ck ck' : Bytes β} (h : ck.length = 32) (h' : ck'.length = 32) :
    (kdfCk P ck).1 ≠ (kdfCk P ck').2 := by
  intro heq
  have hdata := (hH.hmac_inj _ _ _ _ h h' heq).2
  have hoctet : (2 : UInt8) = 1 := ofOctet_injective (List.cons.inj hdata).1
  exact absurd hoctet (by decide)

omit [DecidableEq β] in
/-- A root key determines the root key before it and the DH output that made it. -/
lemma kdfRk_fst_inj {rk rk' d d' : Bytes β} (h : rk.length = 32) (h' : rk'.length = 32)
    (heq : (kdfRk P rk d).1 = (kdfRk P rk' d').1) : rk = rk' ∧ d = d' := by
  rw [kdfRk_eq hP, kdfRk_eq hP] at heq
  obtain ⟨hprk, -⟩ := hH.hmac_inj _ _ _ _ (hP.length_hmac _ _) (hP.length_hmac _ _) heq
  exact hH.extract_inj h h' hprk

end Outputs

end Chatbit
