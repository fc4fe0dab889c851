import Chatbit.Crypto.Hex
import Chatbit.Crypto.Octets
import Chatbit.Crypto.SkippedKeysRun

/-!
# Ratchets in storage

`serialize` and `deserialize` of the ratchet, with the dictionary as the JSON values it is made of,
which JSON keeps. An optional key is written as `null` when it is not set, and also when it is
empty; in a state that a run reaches no key is empty (`Sized`).
-/

namespace Chatbit

open Lib

variable {X E : Type}

/-! ## The dictionary -/

/-- Raw private keys, as the `cryptography` package writes and reads them. -/
structure KeyFormat (X : Type) where
  /-- `key.private_bytes(Raw, Raw, NoEncryption())` -/
  privateBytes : X → Bytes UInt8
  /-- `X25519PrivateKey.from_private_bytes(raw)` -/
  fromPrivateBytes : Bytes UInt8 → X

/-- The documented behaviour of the package. -/
structure KeyFormat.Correct (F : KeyFormat X) : Prop where
  length_privateBytes : ∀ key, (F.privateBytes key).length = DHLEN
  fromPrivateBytes_privateBytes : ∀ key, F.fromPrivateBytes (F.privateBytes key) = key

/-- What `serialize` returns. Each item of `skipped` is a list of a ratchet key, a number and a
message key. -/
structure RatchetRecord where
  dhsPriv : String
  dhrPub : Option String
  rk : String
  cks : Option String
  ckr : Option String
  ns : ℕ
  nr : ℕ
  pn : ℕ
  skipped : Option (List (String × ℕ × String))
deriving DecidableEq

/-- `raw.hex() if raw else None` -/
def hexIfSet : Option (Bytes UInt8) → Option String
  | none => none
  | some raw => if raw = [] then none else some (hex raw)

/-- `bytes.fromhex(text) if text else None`; the outer `none` is `ValueError`. -/
def fromHexIfSet : Option String → Option (Option (Bytes UInt8))
  | none => some none
  | some text => if text = "" then some none else (fromHex text.toList).map some

/-- The length check of `load_x25519_private`. -/
def loadX25519Private (F : KeyFormat X) (raw : Bytes UInt8) : Option X :=
  if raw.length ≠ DHLEN then none else some (F.fromPrivateBytes raw)

namespace DoubleRatchet

def serialize (F : KeyFormat X) (st : DoubleRatchet UInt8 X) : RatchetRecord where
  dhsPriv := hex (F.privateBytes st.dhsPriv)
  dhrPub := hexIfSet st.dhrPub
  rk := hex st.rk
  cks := hexIfSet st.cks
  ckr := hexIfSet st.ckr
  ns := st.ns
  nr := st.nr
  pn := st.pn
  skipped := some (st.skipped.entries.map fun ((pub, n), msgKey) => (hex pub, n, hex msgKey))

/-- The loop that fills the dictionary. -/
def loadSkipped (skipped : OrderedDict (Bytes UInt8 × ℕ) (Bytes UInt8)) :
    List (String × ℕ × String) → Option (OrderedDict (Bytes UInt8 × ℕ) (Bytes UInt8))
  | [] => some skipped
  | (pubHex, n, keyHex) :: items => do
    let pub ← fromHex pubHex.toList
    let msgKey ← fromHex keyHex.toList
    loadSkipped (skipped.set (pub, n) msgKey) items

/-- `none` is `ValueError`. -/
def deserialize (F : KeyFormat X) (data : RatchetRecord) : Option (DoubleRatchet UInt8 X) := do
  let skipped ← loadSkipped .empty (data.skipped.getD [])
  return {
    dhsPriv := ← loadX25519Private F (← fromHex data.dhsPriv.toList)
    dhrPub := ← fromHexIfSet data.dhrPub
    rk := ← fromHex data.rk.toList
    cks := ← fromHexIfSet data.cks
    ckr := ← fromHexIfSet data.ckr
    ns := data.ns
    nr := data.nr
    pn := data.pn
    skipped := skipped }

end DoubleRatchet

/-! ## Keys that are set -/

/-- Bytes have a hexadecimal form that is not empty. -/
lemma hex_ne_empty {raw : Bytes UInt8} (h : raw ≠ []) : hex raw ≠ "" := by
  intro heq
  have hread := fromHex_hex raw
  rw [heq] at hread
  exact h (Option.some.inj hread).symm

/-- An optional key is read back, unless it is empty. -/
lemma fromHexIfSet_hexIfSet {key : Option (Bytes UInt8)} (h : ∀ raw ∈ key, raw ≠ []) :
    fromHexIfSet (hexIfSet key) = some key := by
  cases key with
  | none => rfl
  | some raw =>
    have hraw := h raw rfl
    rw [hexIfSet, if_neg hraw, fromHexIfSet, if_neg (hex_ne_empty hraw), fromHex_hex]
    rfl

namespace DoubleRatchet

variable {β : Type} [Alphabet β] [DecidableEq β]

/-- The keys that are set have 32 bytes. -/
structure Sized (st : DoubleRatchet β X) : Prop where
  dhrPub : ∀ pub ∈ st.dhrPub, pub.length = DHLEN
  cks : ∀ ck ∈ st.cks, ck.length = HASHLEN
  ckr : ∀ ck ∈ st.ckr, ck.length = HASHLEN

section Runs

variable {P : Primitives β X E} {st st' : DoubleRatchet β X}
  (hhmac : ∀ key data, (P.hmacSha256 key data).length = HASHLEN)

include hhmac

omit [DecidableEq β] in
lemma length_rootChain (rk dhOut : Bytes β) : (kdfRk P rk dhOut).2.length = HASHLEN := by
  rw [kdfRk, List.length_drop, Primitives.length_hkdf hhmac]
  rfl

/-- The keys of a new ratchet have their sizes. -/
lemma Constructed.sized (h : Constructed P st) : Sized st := by
  rcases h with ⟨sharedKey, peerRatchetPub, dhs, h⟩ | ⟨sharedKey, ratchetPrivate, h⟩
  · unfold initSender at h
    by_cases hlen : sharedKey.length ≠ 32
    · rw [if_pos hlen] at h
      cases h
    · rw [if_neg hlen] at h
      simp only [bind, Except.bind, pure, Except.pure] at h
      split at h
      · cases h
      · rename_i hload
        split at h
        · cases h
        · obtain rfl := Except.ok.inj h
          refine ⟨?_, ?_, by simp⟩
          · rintro pub ⟨⟩
            by_contra hpub
            rw [loadX25519Public, if_pos hpub] at hload
            cases hload
          · rintro ck ⟨⟩
            exact length_rootChain hhmac _ _
  · unfold initReceiver at h
    split_ifs at h
    obtain rfl := Except.ok.inj h
    exact ⟨by simp, by simp, by simp⟩

omit [DecidableEq β] in
/-- Encrypting keeps the sizes. -/
lemma Sized.encrypt (h : Sized st) (pt ad : Bytes β) : Sized (encrypt P pt ad st).2 := by
  rcases hcks : st.cks with _ | cks
  · rw [encrypt_of_none hcks]
    exact h
  · rw [encrypt_snd_of_some hcks]
    refine ⟨h.dhrPub, ?_, h.ckr⟩
    rintro ck ⟨⟩
    exact hhmac _ _

/-- So does decrypting, where it succeeds. -/
lemma Sized.decrypt {header : MessageHeader β} {ct ad pt : Bytes β} {fresh : X} (h : Sized st)
    (hdecrypt : decrypt P header ct ad fresh st = (.ok pt, st')) : Sized st' := by
  obtain ⟨mk, hdecrypts⟩ := decrypt_ok_iff.mp hdecrypt
  generalize decryptEvicts P header ct ad fresh st = evicts at hdecrypts
  cases hdecrypts with
  | stored hget hopen => exact ⟨h.dhrPub, h.cks, h.ckr⟩
  | current hget hpub hskip hck hopen =>
    obtain ⟨-, hcks, -⟩ := frame_skipMessageKeys hskip
    refine ⟨?_, ?_, ?_⟩
    · rw [show (advanceReceiving P _ _).dhrPub = _ from (dhrPub_skipMessageKeys hskip).1]
      exact h.dhrPub
    · rw [show (advanceReceiving P _ _).cks = _ from hcks]
      exact h.cks
    · rintro ck ⟨⟩
      exact hhmac _ _
  | newChain hget hpub hold hstep hskip hck hopen =>
    obtain ⟨-, hcks, -⟩ := frame_skipMessageKeys hskip
    refine ⟨?_, ?_, ?_⟩
    · rw [show (advanceReceiving P _ _).dhrPub = _ from (dhrPub_skipMessageKeys hskip).1]
      rintro pub ⟨⟩
      exact (dhRatchet_ok_iff.mp hstep).1
    · rw [show (advanceReceiving P _ _).cks = _ from hcks]
      rintro ck ⟨⟩
      exact length_rootChain hhmac _ _
    · rintro ck ⟨⟩
      exact hhmac _ _

/-- So does every call. -/
lemma Sized.apply (h : Sized st) (call : RatchetCall β X) : Sized (call.apply P st) := by
  cases call with
  | encrypt pt ad => exact h.encrypt hhmac pt ad
  | decrypt header ct ad fresh =>
    show Sized (DoubleRatchet.decrypt P header ct ad fresh st).2
    rcases hdecrypt : DoubleRatchet.decrypt P header ct ad fresh st with ⟨e | pt, st'⟩
    · rw [decrypt_error hdecrypt]
      exact h
    · exact h.decrypt hhmac hdecrypt

/-- So does every run. -/
lemma Sized.run (h : Sized st) (calls : List (RatchetCall β X)) :
    Sized (calls.foldl (fun st call => call.apply P st) st) := by
  induction calls generalizing st with
  | nil => exact h
  | cons call calls ih => exact ih (h.apply hhmac call)

end Runs

/-! ## What comes back -/

/-- The stored keys are read back in their order. -/
lemma loadSkipped_items (skipped : OrderedDict (Bytes UInt8 × ℕ) (Bytes UInt8))
    (items : List ((Bytes UInt8 × ℕ) × Bytes UInt8)) :
    loadSkipped skipped (items.map fun ((pub, n), msgKey) => (hex pub, n, hex msgKey)) =
      some (items.foldl (fun skipped item => skipped.set item.1 item.2) skipped) := by
  induction items generalizing skipped with
  | nil => rfl
  | cons item items ih =>
    obtain ⟨⟨pub, n⟩, msgKey⟩ := item
    rw [List.map_cons, loadSkipped, fromHex_hex, fromHex_hex]
    exact ih _

/-- A ratchet whose keys have their sizes is read back as it was. -/
lemma deserialize_of_sized {F : KeyFormat X} (hF : F.Correct) {st : DoubleRatchet UInt8 X}
    (h : Sized st) : deserialize F (serialize F st) = some st := by
  have hset : ∀ {key : Option (Bytes UInt8)}, (∀ raw ∈ key, raw.length = 32) →
      ∀ raw ∈ key, raw ≠ [] := by
    rintro key hlen raw hraw rfl
    exact absurd (hlen [] hraw) (by decide)
  have hprivate : loadX25519Private F (F.privateBytes st.dhsPriv) = some st.dhsPriv := by
    rw [loadX25519Private, if_neg (not_not.mpr (hF.length_privateBytes _)),
      hF.fromPrivateBytes_privateBytes]
  have hskipped : loadSkipped .empty ((serialize F st).skipped.getD []) = some st.skipped := by
    refine (loadSkipped_items _ _).trans ?_
    rw [OrderedDict.foldl_set_entries]
  rw [deserialize, hskipped]
  simp only [serialize, fromHex_hex, fromHexIfSet_hexIfSet (hset h.dhrPub),
    fromHexIfSet_hexIfSet (hset h.cks), fromHexIfSet_hexIfSet (hset h.ckr), hprivate,
    Option.bind_eq_bind, Option.bind_some]
  rfl

end DoubleRatchet

/-- What a call returns or raises, and the stored keys that it loses to the cap. -/
inductive RatchetOutcome (β : Type) where
  | encrypted (result : Except (Exc β) (MessageHeader β × Bytes β))
  | decrypted (result : Except (Exc β) (Bytes β)) (evicted : List (Bytes β × ℕ))

section Outcomes

variable {β : Type} [Alphabet β] [DecidableEq β] (P : Primitives β X E)

def RatchetCall.outcome (st : DoubleRatchet β X) : RatchetCall β X → RatchetOutcome β
  | encrypt plaintext associatedData =>
    .encrypted (DoubleRatchet.encrypt P plaintext associatedData st).1
  | decrypt header ciphertext associatedData fresh =>
    .decrypted (DoubleRatchet.decrypt P header ciphertext associatedData fresh st).1
      (DoubleRatchet.decryptEvicts P header ciphertext associatedData fresh st)

/-- What calls on one ratchet return, one after the other. -/
def RatchetCall.outcomes : DoubleRatchet β X → List (RatchetCall β X) → List (RatchetOutcome β)
  | _, [] => []
  | st, call :: calls => call.outcome P st :: outcomes (call.apply P st) calls

end Outcomes

namespace DoubleRatchet

/-- A ratchet in any state that calls lead to is read from storage as it was written, so all later
calls return on it what they return on the original. -/
theorem restores {P : Primitives UInt8 X E} {F : KeyFormat X} (hF : F.Correct)
    (hhmac : ∀ key data, (P.hmacSha256 key data).length = HASHLEN) {st₀ : DoubleRatchet UInt8 X}
    (hst₀ : Constructed P st₀) (calls : List (RatchetCall UInt8 X)) :
    let st := calls.foldl (fun st call => call.apply P st) st₀
    ∃ restored, deserialize F (serialize F st) = some restored ∧ restored = st ∧
      ∀ later, RatchetCall.outcomes P restored later = RatchetCall.outcomes P st later := by
  intro st
  have hsized : Sized st := (hst₀.sized hhmac).run hhmac calls
  exact ⟨st, deserialize_of_sized hF hsized, rfl, fun _ => rfl⟩

/-- Private keys that are their 32 bytes. -/
def rawKeys : KeyFormat RawKey where
  privateBytes key := key.val
  fromPrivateBytes raw :=
    if h : raw.length = DHLEN then ⟨raw, h⟩ else ⟨zeros DHLEN, length_zeros DHLEN⟩

/-- Keys that are their own bytes are a format. -/
lemma rawKeys_correct : rawKeys.Correct where
  length_privateBytes key := key.property
  fromPrivateBytes_privateBytes key := dif_pos key.property

def repeatedKey (b : UInt8) : RawKey := ⟨List.replicate DHLEN b, List.length_replicate⟩

/-- A receiver that has not heard from its peer. -/
def receiverOfOctets : DoubleRatchet UInt8 RawKey where
  dhsPriv := repeatedKey 2
  dhrPub := none
  rk := zeros 32

/-- The third message of the peer comes first, and is answered. -/
def answeredCalls : List (RatchetCall UInt8 RawKey) :=
  [visit octets receiverOfOctets (repeatedKey 1) 2 (repeatedKey 3), .encrypt [104, 105] []]

def answeredReceiver : DoubleRatchet UInt8 RawKey :=
  answeredCalls.foldl (fun st call => call.apply octets st) receiverOfOctets

/-- Both chains are set and two keys are stored, and the ratchet is read back so. -/
theorem restores_answered :
    (answeredReceiver.cks.isSome ∧ answeredReceiver.ckr.isSome ∧
      answeredReceiver.dhrPub = some (octets.x25519PublicBytes (repeatedKey 1)) ∧
      answeredReceiver.ns = 1 ∧ answeredReceiver.nr = 3 ∧
      answeredReceiver.skipped.keys.map Prod.snd = [0, 1]) ∧
    ∃ restored, deserialize rawKeys (serialize rawKeys answeredReceiver) = some restored ∧
      restored = answeredReceiver ∧ ∀ later, RatchetCall.outcomes octets restored later =
        RatchetCall.outcomes octets answeredReceiver later := by
  have hst₀ : Constructed octets receiverOfOctets := Or.inr ⟨zeros 32, repeatedKey 2, rfl⟩
  exact ⟨by decide +kernel,
    restores rawKeys_correct octets_correct.length_hmac hst₀ answeredCalls⟩

end DoubleRatchet

end Chatbit
