import Chatbit.Crypto.RatchetTheorems

/-!
# What a refused message raises

Of the exceptions that the parts of `decrypt` raise, two kinds are not caught: the assertion that a
receiving chain has a peer key, and a `ValueError` of the AEAD under a stored key. The first needs a
state that no run reaches (`PeerKnown`), and the second a key of the wrong size, so a message that
is refused raises `RatchetError`. All of this rests only on the size of HMAC's output.
-/

namespace Chatbit

open Lib

variable {β X E : Type} [Alphabet β] [DecidableEq β] {P : Primitives β X E}

/-! ## Sizes of keys -/

namespace Primitives

variable (hhmac : ∀ key data, (P.hmacSha256 key data).length = HASHLEN)
include hhmac

omit [DecidableEq β] in
lemma length_hkdfBlocks (prk info : Bytes β) (count i : ℕ) (prev : Bytes β) :
    (P.hkdfBlocks prk info count i prev).length = count * HASHLEN := by
  induction count generalizing i prev with
  | zero => simp [hkdfBlocks]
  | succ count ih =>
    unfold hkdfBlocks
    simp only
    rw [List.length_append, hhmac, ih, Nat.succ_mul, Nat.add_comm]

omit [DecidableEq β] in
/-- HKDF hands out what it is asked for. -/
lemma length_hkdf (ikm salt info : Bytes β) (length : ℕ) :
    (P.hkdf ikm salt info length).length = length := by
  unfold hkdf
  rw [List.length_take, length_hkdfBlocks hhmac]
  simp only [HASHLEN]
  omega

end Primitives

namespace DoubleRatchet

/-- The header comes from the wire, where its counters have four octets. -/
def Decoded (header : MessageHeader β) : Prop := header.pn < 256 ^ 4 ∧ header.n < 256 ^ 4

/-- A receiving chain belongs to a key of the peer. -/
def PeerKnown (st : DoubleRatchet β X) : Prop := st.ckr ≠ none → st.dhrPub ≠ none

section Errors

variable {st st' : DoubleRatchet β X} {header : MessageHeader β} {ct ad mk : Bytes β} {fresh : X}
  {err : Exc β} {until_ : ℕ}

omit [DecidableEq β] in
/-- Opening raises nothing but `AEADError`. -/
lemma openWith_error (hhmac : ∀ key data, (P.hmacSha256 key data).length = HASHLEN)
    (hheader : Decoded header) (h : openWith P mk header ct ad = .error err) :
    ∃ msg, err = .aeadError msg := by
  obtain ⟨hpn, hn⟩ := hheader
  have hout : (P.hkdf mk (zeros 32) msgInfo (KEYLEN + 12)).length = KEYLEN + 12 :=
    Primitives.length_hkdf hhmac _ _ _ _
  have hkey : (messageKeys P mk).1.length = KEYLEN := by
    unfold messageKeys
    simp only
    rw [List.length_take, hout]
    simp
  have hnonce : (messageKeys P mk).2.length = 12 := by
    unfold messageKeys
    simp only
    rw [List.length_drop, hout]
    simp
  have hencode := MessageHeader.encode_ok_iff.mpr ⟨hpn, hn, rfl⟩
  unfold openWith at h
  simp only [hencode, bind, Except.bind] at h
  unfold Primitives.aeadDecrypt at h
  rw [if_neg (not_not.mpr hkey), if_neg (not_not.mpr hnonce)] at h
  split at h
  · cases h
  · exact ⟨_, (Except.error.inj h).symm⟩

lemma trySkipped_error (hhmac : ∀ key data, (P.hmacSha256 key data).length = HASHLEN)
    (hheader : Decoded header) (h : trySkipped P header ct ad st = (.error err, st')) :
    ∃ msg, err = .ratchetError msg := by
  unfold trySkipped at h
  rw [Method.self_bind] at h
  rcases hget : st.skipped.get? (header.ratchetPub, header.n) with _ | mk
  · rw [hget] at h
    cases h
  · rw [hget] at h
    simp only at h
    rcases ho : openWith P mk header ct ad with e | pt
    · obtain ⟨msg, rfl⟩ := openWith_error hhmac hheader ho
      rw [ho] at h
      exact ⟨_, (Except.error.inj (Prod.mk.inj h).1).symm⟩
    · rw [ho] at h
      cases h

lemma skipMessageKeys_error (hst : PeerKnown st)
    (h : skipMessageKeys P until_ st = (.error err, st')) : ∃ msg, err = .skippedKeyLimit msg := by
  unfold skipMessageKeys at h
  rw [Method.self_bind] at h
  rcases hckr : st.ckr with _ | ckr
  · rw [hckr] at h
    simp only at h
    split_ifs at h
    · exact ⟨_, (Except.error.inj (Prod.mk.inj h).1).symm⟩
    · cases h
  · rw [hckr] at h
    simp only at h
    split_ifs at h
    · exact ⟨_, (Except.error.inj (Prod.mk.inj h).1).symm⟩
    · obtain ⟨dhrPub, hpub⟩ := Option.ne_none_iff_exists'.mp (hst (by simp [hckr]))
      rw [hpub] at h
      cases h

lemma dhRatchet_error (h : dhRatchet P header fresh st = (.error err, st')) :
    ∃ msg, err = .valueError msg := by
  by_cases hlen : header.ratchetPub.length = DHLEN
  · have hload : loadX25519Public header.ratchetPub = .ok header.ratchetPub := by
      simp [loadX25519Public, hlen]
    unfold dhRatchet at h
    rw [hload, Method.bind_of_ok (Method.eval_apply _ _), Method.update_bind, Method.self_bind] at h
    rcases Method.bind_error.mp h with h | ⟨shared, _, hdh, h⟩
    · exact Primitives.dh_error (Prod.mk.inj h).1
    · simp only [Method.update_bind] at h
      rcases Method.bind_error.mp h with h | ⟨shared', _, hdh', h⟩
      · exact Primitives.dh_error (Prod.mk.inj h).1
      · cases h
  · have hload : ∃ msg, loadX25519Public header.ratchetPub = .error (.valueError msg) :=
      ⟨_, if_pos hlen⟩
    obtain ⟨msg, hload⟩ := hload
    unfold dhRatchet at h
    rw [hload, Method.bind_of_error (Method.eval_apply _ _)] at h
    exact ⟨msg, (Except.error.inj (Prod.mk.inj h).1).symm⟩

omit [DecidableEq β] in
lemma decryptCurrent_error (hhmac : ∀ key data, (P.hmacSha256 key data).length = HASHLEN)
    (hheader : Decoded header) (h : decryptCurrent P header ct ad st = (.error err, st')) :
    (∃ msg, err = .ratchetError msg) ∨ ∃ msg, err = .aeadError msg := by
  unfold decryptCurrent at h
  rw [Method.self_bind] at h
  rcases hckr : st.ckr with _ | ckr
  · rw [hckr] at h
    exact Or.inl ⟨_, (Except.error.inj (Prod.mk.inj h).1).symm⟩
  · rw [hckr] at h
    simp only at h
    rcases Method.bind_error.mp h with h | ⟨pt, _, -, h⟩
    · exact Or.inr (openWith_error hhmac hheader (Prod.mk.inj h).1)
    · cases h

/-! ## States with a receiving chain -/

lemma dhrPub_skipMessageKeys {popped : List (Bytes β × ℕ)}
    (h : skipMessageKeys P until_ st = (.ok popped, st')) :
    st'.dhrPub = st.dhrPub ∧ (st'.ckr = none ↔ st.ckr = none) := by
  rcases skipMessageKeys_ok h with ⟨-, -, -, rfl⟩ | ⟨ck, dhrPub, hck, -, -, hskipped⟩
  · exact ⟨rfl, Iff.rfl⟩
  · rw [hskipped.frame, hck]
    simp

lemma PeerKnown.skipMessageKeys {popped : List (Bytes β × ℕ)} (hst : PeerKnown st)
    (h : skipMessageKeys P until_ st = (.ok popped, st')) : PeerKnown st' := by
  obtain ⟨hpub, hckr⟩ := dhrPub_skipMessageKeys h
  intro hne
  rw [hpub]
  exact hst fun hnone => hne (hckr.mpr hnone)

lemma PeerKnown.beginChain {popped : List (Bytes β × ℕ)} (hst : PeerKnown st)
    (h : beginChain P header fresh st = (.ok popped, st')) : PeerKnown st' := by
  unfold DoubleRatchet.beginChain at h
  rw [Method.self_bind] at h
  split_ifs at h
  · obtain ⟨popped, old, -, h⟩ := Method.bind_ok.mp h
    obtain ⟨⟨⟩, st₁, hstep, h⟩ := Method.bind_ok.mp h
    obtain ⟨-, rfl⟩ := Prod.mk.inj h
    obtain ⟨-, -, -, rfl⟩ := dhRatchet_ok_iff.mp hstep
    intro _
    simp [stepped]
  · obtain ⟨-, rfl⟩ := Prod.mk.inj h
    exact hst

/-- An accepted message leaves a state with a known peer. -/
lemma PeerKnown.decrypt {pt : Bytes β} (hst : PeerKnown st)
    (h : decrypt P header ct ad fresh st = (.ok pt, st')) : PeerKnown st' := by
  obtain ⟨mk, h⟩ := decrypt_ok_iff.mp h
  generalize decryptEvicts P header ct ad fresh st = evicts at h
  cases h with
  | stored hget hopen => exact hst
  | current hget hpub hskip hck hopen =>
    intro _
    show DoubleRatchet.dhrPub _ ≠ none
    rw [show (advanceReceiving P _ _).dhrPub = _ from (dhrPub_skipMessageKeys hskip).1, hpub]
    simp
  | newChain hget hpub hold hstep hskip hck hopen =>
    intro _
    rw [show (advanceReceiving P _ _).dhrPub = _ from (dhrPub_skipMessageKeys hskip).1]
    simp [stepped]

omit [DecidableEq β] in
lemma PeerKnown.encrypt (hst : PeerKnown st) (pt ad : Bytes β) :
    PeerKnown (encrypt P pt ad st).2 := by
  rcases hcks : st.cks with _ | cks
  · rw [encrypt_of_none hcks]
    exact hst
  · rw [encrypt_snd_of_some hcks]
    exact hst

/-! ## Refused messages -/

/-- What the first half of the `try` block raises is caught. -/
lemma beginChain_error (hst : PeerKnown st)
    (h : beginChain P header fresh st = (.error err, st')) :
    ∃ msg, trialError err = .ratchetError msg := by
  unfold beginChain at h
  rw [Method.self_bind] at h
  split_ifs at h
  · rcases Method.bind_error.mp h with hskip | ⟨popped, old, -, h⟩
    · obtain ⟨msg, rfl⟩ := skipMessageKeys_error hst hskip
      exact ⟨_, rfl⟩
    · rcases Method.bind_error.mp h with hstep | ⟨⟨⟩, st₁, -, h⟩
      · obtain ⟨msg, rfl⟩ := dhRatchet_error hstep
        exact ⟨_, rfl⟩
      · cases h
  · cases h

/-- What the `try` block raises is caught. -/
lemma trial_error (hhmac : ∀ key data, (P.hmacSha256 key data).length = HASHLEN)
    (hheader : Decoded header) (hst : PeerKnown st)
    (h : trial P header ct ad fresh st = (.error err, st')) :
    ∃ msg, trialError err = .ratchetError msg := by
  unfold trial at h
  rcases Method.bind_error.mp h with hbegin | ⟨popped, st₁, hbegin, h⟩
  · exact beginChain_error hst hbegin
  · rcases Method.bind_error.mp h with hskip | ⟨popped', st₂, -, h⟩
    · obtain ⟨msg, rfl⟩ := skipMessageKeys_error (hst.beginChain hbegin) hskip
      exact ⟨_, rfl⟩
    · rcases Method.bind_error.mp h with hcurrent | ⟨pt, st₃, -, h⟩
      · rcases decryptCurrent_error hhmac hheader hcurrent with ⟨msg, rfl⟩ | ⟨msg, rfl⟩
        · exact ⟨_, rfl⟩
        · exact ⟨_, rfl⟩
      · cases h

/-- A message that is refused raises `RatchetError` and leaves the ratchet as it was. -/
lemma decrypt_refused (hhmac : ∀ key data, (P.hmacSha256 key data).length = HASHLEN)
    (hheader : Decoded header) (hst : PeerKnown st)
    (h : decrypt P header ct ad fresh st = (.error err, st')) :
    (∃ msg, err = .ratchetError msg) ∧ st' = st := by
  refine ⟨?_, decrypt_error h⟩
  rcases hget : st.skipped.get? (header.ratchetPub, header.n) with _ | mk
  · unfold decrypt at h
    rw [Method.bind_of_ok (trySkipped_of_none ct ad hget)] at h
    simp only [Method.self_bind] at h
    rcases htrial : trial P header ct ad fresh st with ⟨e | ⟨pt, popped⟩, st₁⟩
    · obtain ⟨msg, hmsg⟩ := trial_error hhmac hheader hst htrial
      rw [htrial] at h
      exact ⟨msg, (Except.error.inj (Prod.mk.inj h).1).symm.trans hmsg⟩
    · rw [htrial] at h
      cases h
  · unfold decrypt at h
    rcases Method.bind_error.mp h with htry | ⟨found, st₁, hfound, h⟩
    · exact trySkipped_error hhmac hheader htry
    · -- with a stored key the call ends in `_try_skipped`
      rcases ho : openWith P mk header ct ad with e | pt
      · obtain ⟨e', htry⟩ := trySkipped_of_fails hget ho
        cases htry.symm.trans hfound
      · cases (trySkipped_of_opens hget ho).symm.trans hfound
        cases h

end Errors

end DoubleRatchet

end Chatbit
