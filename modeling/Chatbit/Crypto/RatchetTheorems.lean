import Chatbit.Lib.KeyChain
import Chatbit.Crypto.Assumptions
import Chatbit.Crypto.Ratchet

/-!
# What the methods of the ratchet do

One lemma for each method says everything a call can do; callers use these and never unfold the
method. The skip loop is described by where the receiving chain ends up and by what it leaves in
the dictionary of skipped keys.
-/

namespace Chatbit

open Lib

variable {β X E : Type} [Alphabet β] [DecidableEq β] {P : Primitives β X E}

/-! ## Headers -/

namespace MessageHeader

omit [DecidableEq β] in
/-- A header is encoded if its counters fit four bytes each. -/
lemma encode_ok_iff {header : MessageHeader β} {encoded : Bytes β} :
    header.encode = .ok encoded ↔ header.pn < 256 ^ 4 ∧ header.n < 256 ^ 4 ∧
      encoded = header.ratchetPub ++ toBytesBig 4 header.pn ++ toBytesBig 4 header.n := by
  by_cases hpn : header.pn < 256 ^ 4 <;> by_cases hn : header.n < 256 ^ 4 <;>
    simp only [encode, intToBytes, hpn, hn, if_true, if_false, Except.ok.injEq, reduceCtorEq,
      true_and, false_and, eq_comm]

omit [DecidableEq β] in
/-- The encoding of a header with a 32-byte key can be cut off the end of the associated data. -/
lemma encode_append_inj {ad ad' e e' : Bytes β} {header header' : MessageHeader β}
    (he : header.encode = .ok e) (he' : header'.encode = .ok e')
    (hlen : header.ratchetPub.length = 32) (hlen' : header'.ratchetPub.length = 32)
    (h : ad ++ e = ad' ++ e') : ad = ad' ∧ header = header' := by
  obtain ⟨hpn, hn, rfl⟩ := encode_ok_iff.mp he
  obtain ⟨hpn', hn', rfl⟩ := encode_ok_iff.mp he'
  obtain ⟨had, hrest⟩ := List.append_inj' h (by simp [hlen, hlen'])
  obtain ⟨hfront, hn''⟩ := List.append_inj' hrest (by simp)
  obtain ⟨hpub, hpn''⟩ := List.append_inj' hfront (by simp)
  refine ⟨had, ?_⟩
  rcases header with ⟨pub, pn, n⟩
  rcases header' with ⟨pub', pn', n'⟩
  simp only [MessageHeader.mk.injEq]
  exact ⟨hpub, toBytesBig_inj hpn hpn' hpn'', toBytesBig_inj hn hn' hn''⟩

omit [DecidableEq β] in
/-- An encoded header is its key and eight bytes. -/
lemma length_of_encode {header : MessageHeader β} {e : Bytes β} (h : header.encode = .ok e) :
    e.length = header.ratchetPub.length + 8 := by
  obtain ⟨-, -, rfl⟩ := encode_ok_iff.mp h
  simp

end MessageHeader

/-! ## The key derivation functions -/

omit [DecidableEq β] in
/-- The info string of the root chain has 23 bytes. -/
lemma length_rootInfo : (rootInfo : Bytes β).length = 23 := by
  rw [rootInfo, length_ascii]; decide

section KeyDerivation

variable (hP : P.Correct) (hH : P.HashIdeal)
include hP

omit [DecidableEq β] in
/-- Both outputs of the root KDF as HMAC values under the extracted key. -/
lemma kdfRk_eq (rk dhOut : Bytes β) :
    kdfRk P rk dhOut =
      let prk := P.hmacSha256 rk dhOut
      let t1 := P.hmacSha256 prk (rootInfo ++ [ofOctet 1])
      (t1, P.hmacSha256 prk (t1 ++ rootInfo ++ [ofOctet 2])) := by
  have hlen := hP.length_hmac
  simp only [HASHLEN] at hlen
  simp only [kdfRk, hP.hkdf_two_blocks dhOut rk rootInfo 64 (by omega) (by omega)]
  rw [List.take_append_of_le_length (by rw [hlen]), List.take_of_length_le (by rw [hlen]),
    List.drop_append_of_le_length (by rw [hlen]), List.drop_of_length_le (by rw [hlen]),
    List.take_of_length_le (by rw [hlen])]
  rfl

omit [DecidableEq β] in
/-- Root keys are 32 bytes. -/
@[simp] lemma length_kdfRk_fst (rk dhOut : Bytes β) : (kdfRk P rk dhOut).1.length = 32 := by
  rw [kdfRk_eq hP]; exact hP.length_hmac _ _

omit [DecidableEq β] in
/-- So are the chain keys that they give. -/
@[simp] lemma length_kdfRk_snd (rk dhOut : Bytes β) : (kdfRk P rk dhOut).2.length = 32 := by
  rw [kdfRk_eq hP]; exact hP.length_hmac _ _

omit [DecidableEq β] in
/-- A chain key gives 32 bytes again. -/
lemma length_kdfCk_fst (ck : Bytes β) : (kdfCk P ck).1.length = 32 := hP.length_hmac _ _

omit [DecidableEq β] in
/-- The AEAD key and nonce as HMAC values under the key extracted from the message key. -/
lemma messageKeys_eq (mk : Bytes β) :
    messageKeys P mk =
      let prk := P.hmacSha256 (zeros 32) mk
      let t1 := P.hmacSha256 prk (msgInfo ++ [ofOctet 1])
      (t1, (P.hmacSha256 prk (t1 ++ msgInfo ++ [ofOctet 2])).take 12) := by
  have hlen := hP.length_hmac
  simp only [HASHLEN] at hlen
  simp only [messageKeys, KEYLEN,
    hP.hkdf_two_blocks mk (zeros 32) msgInfo (32 + 12) (by omega) (by omega)]
  rw [List.take_append_of_le_length (by rw [hlen]), List.take_of_length_le (by rw [hlen]),
    List.drop_append_of_le_length (by rw [hlen]), List.drop_of_length_le (by rw [hlen])]
  rfl

omit [DecidableEq β] in
/-- A message key expands to a key of the cipher. -/
lemma length_messageKeys_fst (mk : Bytes β) : (messageKeys P mk).1.length = KEYLEN := by
  rw [messageKeys_eq hP]; exact hP.length_hmac _ _

omit [DecidableEq β] in
/-- It expands to a nonce as well. -/
lemma length_messageKeys_snd (mk : Bytes β) : (messageKeys P mk).2.length = 12 := by
  have hlen := hP.length_hmac
  simp only [HASHLEN] at hlen
  rw [messageKeys_eq hP]
  simp [hlen]

include hH

omit [DecidableEq β] in
/-- A chain key determines the root key and the DH output that made it. -/
lemma kdfRk_snd_inj {rk rk' d d' : Bytes β} (h : rk.length = 32) (h' : rk'.length = 32)
    (heq : (kdfRk P rk d).2 = (kdfRk P rk' d').2) : rk = rk' ∧ d = d' := by
  rw [kdfRk_eq hP, kdfRk_eq hP] at heq
  obtain ⟨hprk, -⟩ := hH.hmac_inj _ _ _ _ (hP.length_hmac _ _) (hP.length_hmac _ _) heq
  exact hH.extract_inj h h' hprk

omit [DecidableEq β] hP in
/-- Different chain keys have different successors. -/
lemma kdfCk_fst_inj {ck ck' : Bytes β} (h : ck.length = 32) (h' : ck'.length = 32)
    (heq : (kdfCk P ck).1 = (kdfCk P ck').1) : ck = ck' :=
  (hH.hmac_inj _ _ _ _ h h' heq).1

omit [DecidableEq β] hP in
/-- They give different message keys. -/
lemma kdfCk_snd_inj {ck ck' : Bytes β} (h : ck.length = 32) (h' : ck'.length = 32)
    (heq : (kdfCk P ck).2 = (kdfCk P ck').2) : ck = ck' :=
  (hH.hmac_inj _ _ _ _ h h' heq).1

omit [DecidableEq β] in
/-- A root KDF output is never a later key of a chain: the two HMACs have inputs of different
lengths. -/
lemma kdfCk_fst_ne_kdfRk_snd {ck rk d : Bytes β} (h : ck.length = 32) :
    (kdfCk P ck).1 ≠ (kdfRk P rk d).2 := by
  intro heq
  rw [kdfRk_eq hP] at heq
  have hdata := (hH.hmac_inj _ _ _ _ h (hP.length_hmac _ _) heq).2
  have hlen := congrArg List.length hdata
  simp [chainNext, length_rootInfo] at hlen

omit [DecidableEq β] in
/-- Different message keys give different keys of the cipher. -/
lemma messageKeys_fst_inj {mk mk' : Bytes β}
    (heq : (messageKeys P mk).1 = (messageKeys P mk').1) : mk = mk' := by
  rw [messageKeys_eq hP, messageKeys_eq hP] at heq
  obtain ⟨hprk, -⟩ := hH.hmac_inj _ _ _ _ (hP.length_hmac _ _) (hP.length_hmac _ _) heq
  exact (hH.extract_inj (length_zeros 32) (length_zeros 32) hprk).2

end KeyDerivation

/-! ## Chains -/

/-- The chain key after `n` messages of the chain that starts at `ck`. -/
def chainKey (P : Primitives β X E) (ck : Bytes β) (n : ℕ) : Bytes β :=
  (fun c => (kdfCk P c).1)^[n] ck

/-- The message key of message `n` of the chain that starts at `ck`. -/
def messageKey (P : Primitives β X E) (ck : Bytes β) (n : ℕ) : Bytes β :=
  (kdfCk P (chainKey P ck n)).2

omit [DecidableEq β] in
@[simp] lemma chainKey_zero (ck : Bytes β) : chainKey P ck 0 = ck := rfl

omit [DecidableEq β] in
/-- The last step of a chain is one of `_kdf_ck`. -/
lemma chainKey_succ (ck : Bytes β) (n : ℕ) :
    chainKey P ck (n + 1) = (kdfCk P (chainKey P ck n)).1 :=
  Function.iterate_succ_apply' _ _ _

omit [DecidableEq β] in
/-- A chain may be followed in two parts. -/
lemma chainKey_add (ck : Bytes β) (n m : ℕ) :
    chainKey P ck (n + m) = chainKey P (chainKey P ck n) m := by
  rw [chainKey, Nat.add_comm, Function.iterate_add_apply]; rfl

omit [DecidableEq β] in
/-- The message keys of the second part are those of the chain there. -/
lemma messageKey_add (ck : Bytes β) (n m : ℕ) :
    messageKey P ck (n + m) = messageKey P (chainKey P ck n) m := by
  rw [messageKey, chainKey_add]; rfl

omit [DecidableEq β] in
/-- Chain keys are 32 bytes. -/
lemma length_chainKey (hP : P.Correct) {ck : Bytes β} (h : ck.length = 32) (n : ℕ) :
    (chainKey P ck n).length = 32 := by
  cases n with
  | zero => exact h
  | succ n => rw [chainKey_succ]; exact length_kdfCk_fst hP _

omit [DecidableEq β] in
/-- Two equal message keys of chains that the root KDF started are the same message of the same
chain. -/
lemma messageKey_inj (hP : P.Correct) (hH : P.HashIdeal) {rk rk' d d' : Bytes β} {n m : ℕ}
    (h : messageKey P (kdfRk P rk d).2 n = messageKey P (kdfRk P rk' d').2 m) :
    (kdfRk P rk d).2 = (kdfRk P rk' d').2 ∧ n = m := by
  have hck := kdfCk_snd_inj hH (length_chainKey hP (length_kdfRk_snd hP _ _) n)
    (length_chainKey hP (length_kdfRk_snd hP _ _) m) h
  refine iterate_inj (S := {c : Bytes β | c.length = 32}) ?_ ?_ ?_ ?_ ?_ ?_ hck
  · exact fun c _ => length_kdfCk_fst hP c
  · exact fun c hc c' hc' heq => kdfCk_fst_inj hH hc hc' heq
  · exact length_kdfRk_snd hP _ _
  · exact length_kdfRk_snd hP _ _
  · exact fun c hc => kdfCk_fst_ne_kdfRk_snd hP hH hc
  · exact fun c hc => kdfCk_fst_ne_kdfRk_snd hP hH hc

namespace DoubleRatchet

/-! ## Sending -/

omit [DecidableEq β] in
/-- A party without a sending chain cannot send, and nothing changes. -/
lemma encrypt_of_none {st : DoubleRatchet β X} (h : st.cks = none) (pt ad : Bytes β) :
    encrypt P pt ad st = (.error
      (.ratchetError "no sending chain yet: this side must receive a message first"), st) := by
  simp [encrypt, Method.bind_apply, h]

/-- The header of the next message. -/
def nextHeader (P : Primitives β X E) (st : DoubleRatchet β X) : MessageHeader β :=
  ⟨ratchetPublic P st, st.pn, st.ns⟩

/-- The state after one more message on the sending chain `cks`. -/
def advanceSending (P : Primitives β X E) (cks : Bytes β) (st : DoubleRatchet β X) :
    DoubleRatchet β X :=
  { st with cks := some (kdfCk P cks).1, ns := st.ns + 1 }

omit [DecidableEq β] in
/-- With a sending chain the chain advances, also when the header does not fit its fields. -/
lemma encrypt_snd_of_some {st : DoubleRatchet β X} {cks : Bytes β} (h : st.cks = some cks)
    (pt ad : Bytes β) : (encrypt P pt ad st).2 = advanceSending P cks st := by
  rcases henc : (MessageHeader.mk (ratchetPublic P st) st.pn st.ns).encode with e | encoded
  · simp [encrypt, Method.bind_apply, h, henc, advanceSending]
  · rcases hct : P.aeadEncrypt (messageKeys P (kdfCk P cks).2).1
        (messageKeys P (kdfCk P cks).2).2 pt (ad ++ encoded) with e | ct <;>
      simp [encrypt, Method.bind_apply, h, henc, hct, advanceSending]

omit [DecidableEq β] in
/-- Everything about an `encrypt` call that returns. -/
lemma encrypt_ok_iff (hP : P.Correct) {st st' : DoubleRatchet β X} {pt ad ct : Bytes β}
    {header : MessageHeader β} :
    encrypt P pt ad st = (.ok (header, ct), st') ↔
      ∃ cks encoded, st.cks = some cks ∧ header = nextHeader P st ∧
        header.encode = .ok encoded ∧ st' = advanceSending P cks st ∧
        ct = P.chachaEncrypt (messageKeys P (kdfCk P cks).2).1
          (messageKeys P (kdfCk P cks).2).2 pt (ad ++ encoded) := by
  rcases hcks : st.cks with _ | cks
  · simp [encrypt_of_none hcks]
  · rcases henc : (MessageHeader.mk (ratchetPublic P st) st.pn st.ns).encode with e | encoded
    · simp only [encrypt, Method.bind_apply, hcks, henc, Method.self_apply, Method.update_apply,
        Method.eval_apply, Prod.mk.injEq, reduceCtorEq, false_and, false_iff]
      rintro ⟨_, encoded, -, rfl, h, -⟩
      exact absurd (henc.symm.trans h) (by simp)
    · have hct := Primitives.aeadEncrypt_eq (P := P) (length_messageKeys_fst hP (kdfCk P cks).2)
        (length_messageKeys_snd hP (kdfCk P cks).2) pt (ad ++ encoded)
      simp only [encrypt, Method.bind_apply, hcks, henc, hct, Method.self_apply,
        Method.update_apply, Method.eval_apply, Method.pure_apply, Prod.mk.injEq, Except.ok.injEq]
      constructor
      · rintro ⟨⟨rfl, rfl⟩, rfl⟩
        exact ⟨cks, encoded, rfl, rfl, henc, rfl, rfl⟩
      · rintro ⟨cks', encoded', hc, rfl, he, rfl, rfl⟩
        obtain rfl := Option.some.inj hc
        obtain rfl := Except.ok.inj (henc.symm.trans he)
        exact ⟨⟨rfl, rfl⟩, rfl⟩

/-! ## Skipping -/

/-- What the skip loop does to a state whose receiving chain is at `ck`, in `turns` turns: the
chain and the counter move on, and each dictionary entry is an old one or the key of a message
that was skipped. Nothing leaves the dictionary except by being popped. -/
structure Skipped (P : Primitives β X E) (dhrPub ck : Bytes β) (turns : ℕ)
    (st st' : DoubleRatchet β X) (popped : List (Bytes β × ℕ)) : Prop where
  frame : st' = { st with
    ckr := some (chainKey P ck turns), nr := st.nr + turns, skipped := st'.skipped }
  sound : ∀ e ∈ st'.skipped.entries, e ∈ st.skipped.entries ∨
    ∃ i < turns, e = ((dhrPub, st.nr + i), messageKey P ck i)
  keeps : ∀ k ∈ st.skipped.keys, k ∈ st'.skipped.keys ∨ k ∈ popped
  stores : ∀ i < turns,
    (dhrPub, st.nr + i) ∈ st'.skipped.keys ∨ (dhrPub, st.nr + i) ∈ popped

/-- One turn of the loop stores the next message key, and no other. -/
lemma skipOne_sound {dhrPub ck : Bytes β} {st : DoubleRatchet β X}
    {e : (Bytes β × ℕ) × Bytes β} (h : e ∈ (skipOne P dhrPub ck st).skipped.entries) :
    e ∈ st.skipped.entries ∨ e = ((dhrPub, st.nr), messageKey P ck 0) := by
  obtain ⟨k, v⟩ := e
  rcases OrderedDict.mem_set.mp (OrderedDict.mem_of_mem_evictOldest h) with ⟨rfl, rfl⟩ | ⟨-, h⟩
  · exact Or.inr rfl
  · exact Or.inl h

/-- What is stored, or to be stored in this turn, is stored after it or evicted in it. -/
lemma skipOne_keeps {dhrPub ck : Bytes β} {st : DoubleRatchet β X} {k : Bytes β × ℕ}
    (h : k ∈ st.skipped.keys ∨ k = (dhrPub, st.nr)) :
    k ∈ (skipOne P dhrPub ck st).skipped.keys ∨ k ∈ skipOnePops P dhrPub ck st := by
  have hset : ∃ v, (k, v) ∈ (st.skipped.set (dhrPub, st.nr) (kdfCk P ck).2).entries := by
    by_cases hk : k = (dhrPub, st.nr)
    · exact ⟨_, OrderedDict.mem_set.mpr (Or.inl ⟨hk, rfl⟩)⟩
    · obtain ⟨v, hv⟩ := OrderedDict.mem_keys_iff.mp (h.resolve_right hk)
      exact ⟨v, OrderedDict.mem_set.mpr (Or.inr ⟨hk, hv⟩)⟩
  obtain ⟨v, hv⟩ := hset
  rcases OrderedDict.mem_evictOldest_or_evicted MAX_SKIPPED_KEYS hv with h | h
  · exact Or.inl (OrderedDict.mem_keys_iff.mpr ⟨v, h⟩)
  · exact Or.inr h

/-- The turns of the loop store the keys of the chain one after the other. -/
lemma skipLoop_spec {dhrPub : Bytes β} (turns : ℕ) {ck : Bytes β} {st : DoubleRatchet β X}
    (hck : st.ckr = some ck) :
    Skipped P dhrPub ck turns st (skipLoop P dhrPub turns ck st).1
      (skipLoop P dhrPub turns ck st).2 := by
  induction turns generalizing ck st with
  | zero =>
    refine ⟨?_, fun e he => Or.inl he, fun k hk => Or.inl hk, fun i hi => absurd hi (by omega)⟩
    cases st
    simp_all [skipLoop]
  | succ turns ih =>
    obtain ⟨hframe, hsound, hkeeps, hstores⟩ :=
      ih (show (skipOne P dhrPub ck st).ckr = some (kdfCk P ck).1 from rfl)
    have hpop : (skipLoop P dhrPub (turns + 1) ck st).2 =
        skipOnePops P dhrPub ck st ++
          (skipLoop P dhrPub turns (kdfCk P ck).1 (skipOne P dhrPub ck st)).2 := by
      rw [skipLoop]
    have hst : (skipLoop P dhrPub (turns + 1) ck st).1 =
        (skipLoop P dhrPub turns (kdfCk P ck).1 (skipOne P dhrPub ck st)).1 := by
      rw [skipLoop]
    have hshift : ∀ i, chainKey P (kdfCk P ck).1 i = chainKey P ck (i + 1) := fun i => by
      rw [Nat.add_comm, chainKey_add]; rfl
    -- what the first turn leaves is kept or popped by the rest of the loop
    have hlater : ∀ k, k ∈ st.skipped.keys ∨ k = (dhrPub, st.nr) →
        k ∈ (skipLoop P dhrPub turns (kdfCk P ck).1 (skipOne P dhrPub ck st)).1.skipped.keys ∨
          k ∈ skipOnePops P dhrPub ck st ++
            (skipLoop P dhrPub turns (kdfCk P ck).1 (skipOne P dhrPub ck st)).2 := by
      intro k hk
      rcases skipOne_keeps hk with h | h
      · exact (hkeeps k h).imp_right fun h => List.mem_append_right _ h
      · exact Or.inr (List.mem_append_left _ h)
    rw [hst, hpop]
    refine ⟨?_, ?_, fun k hk => hlater k (Or.inl hk), ?_⟩
    · rw [hframe, hshift]
      simp [skipOne, Nat.add_comm, Nat.add_left_comm]
    · intro e he
      rcases hsound e he with h | ⟨i, hi, rfl⟩
      · exact (skipOne_sound h).imp_right fun h => ⟨0, by omega, h⟩
      · refine Or.inr ⟨i + 1, by omega, ?_⟩
        simp [skipOne, messageKey, hshift, Nat.add_comm, Nat.add_left_comm]
    · intro i hi
      cases i with
      | zero => exact hlater _ (Or.inr rfl)
      | succ i =>
        have hnr : (skipOne P dhrPub ck st).nr + i = st.nr + (i + 1) := by
          simp [skipOne, Nat.add_comm, Nat.add_left_comm]
        have := hstores i (by omega)
        rw [hnr] at this
        exact this.imp_right fun h => List.mem_append_right _ h

/-- Everything about a `_skip_message_keys` call that returns. -/
lemma skipMessageKeys_ok {until_ : ℕ} {st st' : DoubleRatchet β X}
    {popped : List (Bytes β × ℕ)} (h : skipMessageKeys P until_ st = (.ok popped, st')) :
    (st.ckr = none ∧ until_ = 0 ∧ popped = [] ∧ st' = st) ∨
      ∃ ck dhrPub, st.ckr = some ck ∧ st.dhrPub = some dhrPub ∧ until_ - st.nr ≤ MAX_SKIP ∧
        Skipped P dhrPub ck (until_ - st.nr) st st' popped := by
  rcases hckr : st.ckr with _ | ck
  · simp only [skipMessageKeys, Method.bind_apply, Method.self_apply, hckr] at h
    split_ifs at h with hu
    · simp at h
    · simp only [Method.pure_apply, Prod.mk.injEq, Except.ok.injEq] at h
      exact Or.inl ⟨rfl, by omega, h.1.symm, h.2.symm⟩
  · simp only [skipMessageKeys, Method.bind_apply, Method.self_apply, hckr] at h
    split_ifs at h with hu
    · simp at h
    · rcases hd : st.dhrPub with _ | dhrPub
      · simp [hd] at h
      · simp only [hd, Method.bind_apply, Method.update_apply, Method.pure_apply, Prod.mk.injEq,
          Except.ok.injEq] at h
        obtain ⟨rfl, rfl⟩ := h
        exact Or.inr ⟨ck, dhrPub, rfl, rfl, by omega, skipLoop_spec _ hckr⟩

/-- With a receiving chain and few enough keys to skip, the call returns. -/
lemma skipMessageKeys_of_some {until_ : ℕ} {st : DoubleRatchet β X} {ck dhrPub : Bytes β}
    (hckr : st.ckr = some ck) (hd : st.dhrPub = some dhrPub) (hu : until_ - st.nr ≤ MAX_SKIP) :
    ∃ st' popped, skipMessageKeys P until_ st = (.ok popped, st') := by
  simp only [skipMessageKeys, Method.bind_apply, Method.self_apply, hckr]
  rw [if_neg (by omega), hd]
  exact ⟨_, _, rfl⟩

/-- Without a receiving chain there is nothing to skip. -/
lemma skipMessageKeys_of_none {st : DoubleRatchet β X} (hckr : st.ckr = none) :
    skipMessageKeys P 0 st = (.ok [], st) := by
  simp [skipMessageKeys, Method.bind_apply, hckr]

/-! ## The DH step and the current chain -/

/-- The state after a DH step to the peer key `pub`: both chains start afresh from the two DH
outputs. -/
def stepped (P : Primitives β X E) (pub : Bytes β) (fresh : X) (st : DoubleRatchet β X) :
    DoubleRatchet β X :=
  let recv := kdfRk P st.rk (P.exchange st.dhsPriv pub)
  let send := kdfRk P recv.1 (P.exchange fresh pub)
  { st with
    pn := st.ns, ns := 0, nr := 0, dhrPub := some pub, dhsPriv := fresh
    rk := send.1, ckr := some recv.2, cks := some send.2 }

/-- A DH step fails at the length of the key and at low-order points only. -/
lemma dhRatchet_ok_iff {header : MessageHeader β} {fresh : X} {st st' : DoubleRatchet β X} :
    dhRatchet P header fresh st = (.ok (), st') ↔
      header.ratchetPub.length = DHLEN ∧
      P.exchange st.dhsPriv header.ratchetPub ≠ zeros DHLEN ∧
      P.exchange fresh header.ratchetPub ≠ zeros DHLEN ∧
      st' = stepped P header.ratchetPub fresh st := by
  by_cases hlen : header.ratchetPub.length = DHLEN
  · by_cases h1 : P.exchange st.dhsPriv header.ratchetPub = zeros DHLEN
    · simp [dhRatchet, Method.bind_apply, loadX25519Public, Primitives.dh, hlen, h1]
    · by_cases h2 : P.exchange fresh header.ratchetPub = zeros DHLEN
      · simp [dhRatchet, Method.bind_apply, loadX25519Public, Primitives.dh, hlen, h1, h2]
      · have heq : dhRatchet P header fresh st =
            (.ok (), stepped P header.ratchetPub fresh st) := by
          simp [dhRatchet, Method.bind_apply, loadX25519Public, Primitives.dh, hlen, h1, h2,
            stepped]
        simp [heq, hlen, h1, h2, eq_comm]
  · simp [dhRatchet, Method.bind_apply, loadX25519Public, hlen]

/-- The state after the next message of the receiving chain `ckr`. -/
def advanceReceiving (P : Primitives β X E) (ckr : Bytes β) (st : DoubleRatchet β X) :
    DoubleRatchet β X :=
  { st with ckr := some (kdfCk P ckr).1, nr := st.nr + 1 }

omit [DecidableEq β] in
/-- The receiving chain opens the message, and moves on. -/
lemma decryptCurrent_ok_iff {header : MessageHeader β} {ct ad pt : Bytes β}
    {st st' : DoubleRatchet β X} :
    decryptCurrent P header ct ad st = (.ok pt, st') ↔
      ∃ ckr, st.ckr = some ckr ∧ openWith P (kdfCk P ckr).2 header ct ad = .ok pt ∧
        st' = advanceReceiving P ckr st := by
  rcases hckr : st.ckr with _ | ckr
  · simp [decryptCurrent, Method.bind_apply, hckr]
  · rcases ho : openWith P (kdfCk P ckr).2 header ct ad with e | pt'
    · simp [decryptCurrent, Method.bind_apply, hckr, ho]
    · simp [decryptCurrent, Method.bind_apply, hckr, ho, advanceReceiving, eq_comm]

omit [DecidableEq β] in
/-- A message key opens what was sealed under it with this header. -/
lemma openWith_ok_iff (hP : P.Correct) {mk ct ad pt : Bytes β} {header : MessageHeader β} :
    openWith P mk header ct ad = .ok pt ↔
      ∃ encoded, header.encode = .ok encoded ∧
        P.chachaDecrypt (messageKeys P mk).1 (messageKeys P mk).2 ct (ad ++ encoded) =
          some pt := by
  rcases henc : header.encode with e | encoded
  · simp [openWith, henc, bind, Except.bind]
  · simp [openWith, henc, bind, Except.bind, Primitives.aeadDecrypt_ok_iff,
      length_messageKeys_fst hP, length_messageKeys_snd hP]

/-! ## Decrypting -/

/-- How a `decrypt` call can return: with a stored key, on the current receiving chain, or on a
new chain after a DH step. The indices are the message key, the plaintext, the new state and the
stored keys that the cap popped. -/
inductive Decrypts (P : Primitives β X E) (st : DoubleRatchet β X) (header : MessageHeader β)
    (ct ad : Bytes β) (fresh : X) :
    Bytes β → Bytes β → DoubleRatchet β X → List (Bytes β × ℕ) → Prop
  | stored {mk pt : Bytes β} (hget : st.skipped.get? (header.ratchetPub, header.n) = some mk)
      (hopen : openWith P mk header ct ad = .ok pt) :
      Decrypts P st header ct ad fresh mk pt
        { st with skipped := st.skipped.erase (header.ratchetPub, header.n) } []
  | current {pt ck : Bytes β} {mid : DoubleRatchet β X} {popped : List (Bytes β × ℕ)}
      (hget : st.skipped.get? (header.ratchetPub, header.n) = none)
      (hpub : st.dhrPub = some header.ratchetPub)
      (hskip : skipMessageKeys P header.n st = (.ok popped, mid))
      (hck : mid.ckr = some ck)
      (hopen : openWith P (kdfCk P ck).2 header ct ad = .ok pt) :
      Decrypts P st header ct ad fresh (kdfCk P ck).2 pt (advanceReceiving P ck mid) popped
  | newChain {pt ck : Bytes β} {old mid : DoubleRatchet β X}
      {popped popped' : List (Bytes β × ℕ)}
      (hget : st.skipped.get? (header.ratchetPub, header.n) = none)
      (hpub : st.dhrPub ≠ some header.ratchetPub)
      (hold : skipMessageKeys P header.pn st = (.ok popped, old))
      (hstep : dhRatchet P header fresh old = (.ok (), stepped P header.ratchetPub fresh old))
      (hskip : skipMessageKeys P header.n (stepped P header.ratchetPub fresh old) =
        (.ok popped', mid))
      (hck : mid.ckr = some ck)
      (hopen : openWith P (kdfCk P ck).2 header ct ad = .ok pt) :
      Decrypts P st header ct ad fresh (kdfCk P ck).2 pt (advanceReceiving P ck mid)
        (popped ++ popped')

/-- Skipping changes nothing that a later DH step or an `encrypt` call reads. -/
lemma frame_skipMessageKeys {until_ : ℕ} {st st' : DoubleRatchet β X}
    {popped : List (Bytes β × ℕ)} (h : skipMessageKeys P until_ st = (.ok popped, st')) :
    st'.rk = st.rk ∧ st'.cks = st.cks ∧ st'.dhsPriv = st.dhsPriv := by
  rcases skipMessageKeys_ok h with ⟨-, -, -, rfl⟩ | ⟨ck, dhrPub, -, -, -, hskipped⟩
  · exact ⟨rfl, rfl, rfl⟩
  · rw [hskipped.frame]
    exact ⟨rfl, rfl, rfl⟩

/-- The own ratchet key changes when the message comes on a new chain. -/
lemma Decrypts.dhsPriv {st st' : DoubleRatchet β X} {header : MessageHeader β}
    {ct ad mk pt : Bytes β} {fresh : X} {popped : List (Bytes β × ℕ)}
    (h : Decrypts P st header ct ad fresh mk pt st' popped) :
    st'.dhsPriv =
      if st.skipped.get? (header.ratchetPub, header.n) = none ∧
        st.dhrPub ≠ some header.ratchetPub then fresh else st.dhsPriv := by
  cases h with
  | stored hget hopen => rw [if_neg (by simp [hget])]
  | current hget hpub hskip hck hopen =>
    have hmid := (frame_skipMessageKeys hskip).2.2
    rw [if_neg (by simp [hpub])]
    exact hmid
  | newChain hget hpub hold hstep hskip hck hopen =>
    have hmid := (frame_skipMessageKeys hskip).2.2
    rw [if_pos ⟨hget, hpub⟩]
    exact hmid

/-- Where no key is stored for the header, there is nothing to try. -/
lemma trySkipped_of_none {st : DoubleRatchet β X} {header : MessageHeader β} (ct ad : Bytes β)
    (h : st.skipped.get? (header.ratchetPub, header.n) = none) :
    trySkipped P header ct ad st = (.ok none, st) := by
  simp [trySkipped, Method.bind_apply, h]

/-- A stored key that opens the message is used up. -/
lemma trySkipped_of_opens {st : DoubleRatchet β X} {header : MessageHeader β}
    {ct ad mk pt : Bytes β} (h : st.skipped.get? (header.ratchetPub, header.n) = some mk)
    (ho : openWith P mk header ct ad = .ok pt) :
    trySkipped P header ct ad st = (.ok (some pt),
      { st with skipped := st.skipped.erase (header.ratchetPub, header.n) }) := by
  simp [trySkipped, Method.bind_apply, h, ho]

/-- One that does not open it stays. -/
lemma trySkipped_of_fails {st : DoubleRatchet β X} {header : MessageHeader β}
    {ct ad mk : Bytes β} {e : Exc β}
    (h : st.skipped.get? (header.ratchetPub, header.n) = some mk)
    (ho : openWith P mk header ct ad = .error e) :
    ∃ e', trySkipped P header ct ad st = (.error e', st) := by
  simp only [trySkipped, Method.bind_apply, Method.self_apply, h, ho]
  cases e <;> exact ⟨_, rfl⟩

/-- The `try` block returns on the current chain or, after a DH step, on a new one. -/
lemma trial_ok_iff {st st' : DoubleRatchet β X} {header : MessageHeader β} {ct ad pt : Bytes β}
    {fresh : X} {evicts : List (Bytes β × ℕ)}
    (hget : st.skipped.get? (header.ratchetPub, header.n) = none) :
    trial P header ct ad fresh st = (.ok (pt, evicts), st') ↔
      ∃ mk, Decrypts P st header ct ad fresh mk pt st' evicts := by
  constructor
  · intro h
    obtain ⟨popped, mid, hfirst, h⟩ := Method.bind_ok.mp h
    obtain ⟨popped', mid', hskip, h⟩ := Method.bind_ok.mp h
    obtain ⟨pt', last, hcur, h⟩ := Method.bind_ok.mp h
    simp only [Method.pure_apply, Prod.mk.injEq, Except.ok.injEq] at h
    obtain ⟨⟨rfl, rfl⟩, rfl⟩ := h
    obtain ⟨ck, hck, hopen, rfl⟩ := decryptCurrent_ok_iff.mp hcur
    simp only [beginChain, Method.bind_apply, Method.self_apply] at hfirst
    -- a new public key starts a chain with a DH step
    split_ifs at hfirst with hpub
    · obtain ⟨popped1, old, hold, hfirst⟩ := Method.bind_ok.mp hfirst
      obtain ⟨_, mid1, hstep, hfirst⟩ := Method.bind_ok.mp hfirst
      simp only [Method.pure_apply, Prod.mk.injEq, Except.ok.injEq] at hfirst
      obtain ⟨rfl, rfl⟩ := hfirst
      obtain ⟨-, -, -, rfl⟩ := dhRatchet_ok_iff.mp hstep
      exact ⟨_, .newChain hget (fun h => hpub h.symm) hold hstep hskip hck hopen⟩
    · simp only [Method.pure_apply, Prod.mk.injEq, Except.ok.injEq] at hfirst
      obtain ⟨rfl, rfl⟩ := hfirst
      exact ⟨_, .current hget (not_not.mp hpub).symm hskip hck hopen⟩
  · rintro ⟨mk, h⟩
    cases h with
    | stored hget' => simp [hget] at hget'
    | current _ hpub hskip hck hopen =>
      have hcur := decryptCurrent_ok_iff.mpr ⟨_, hck, hopen, rfl⟩
      simp [trial, beginChain, Method.bind_apply, hpub, hskip, hcur]
    | newChain _ hpub hold hstep hskip hck hopen =>
      have hcur := decryptCurrent_ok_iff.mpr ⟨_, hck, hopen, rfl⟩
      simp [trial, beginChain, Method.bind_apply, Ne.symm hpub, hold, hstep, hskip, hcur]

/-- Everything about a `decrypt` call that returns. -/
lemma decrypt_ok_iff {st st' : DoubleRatchet β X} {header : MessageHeader β} {ct ad pt : Bytes β}
    {fresh : X} :
    decrypt P header ct ad fresh st = (.ok pt, st') ↔
      ∃ mk, Decrypts P st header ct ad fresh mk pt st'
        (decryptEvicts P header ct ad fresh st) := by
  rcases hget : st.skipped.get? (header.ratchetPub, header.n) with _ | mk
  · have htry := trySkipped_of_none (P := P) ct ad hget
    rcases htrial : trial P header ct ad fresh st with ⟨e | ⟨pt', evicts⟩, st''⟩
    · -- the trial copy fails, and nothing is adopted
      simp only [decrypt, Method.bind_apply, htry, htrial, Method.self_apply, Method.raise_apply,
        Prod.mk.injEq, reduceCtorEq, false_and, false_iff]
      intro hd
      exact absurd ((trial_ok_iff hget).mpr hd) (by simp [htrial])
    · have hev : decryptEvicts P header ct ad fresh st = evicts := by
        simp [decryptEvicts, htry, htrial]
      simp only [decrypt, Method.bind_apply, htry, htrial, hev, Method.self_apply,
        Method.update_apply, Method.pure_apply, Prod.mk.injEq, Except.ok.injEq]
      constructor
      · rintro ⟨rfl, rfl⟩
        exact (trial_ok_iff hget).mp htrial
      · intro hd
        have := (trial_ok_iff hget).mpr hd
        simp only [htrial, Prod.mk.injEq, Except.ok.injEq] at this
        exact ⟨this.1.1, this.2⟩
  · -- there is a stored key for the message
    rcases ho : openWith P mk header ct ad with e | pt'
    · obtain ⟨e', htry⟩ := trySkipped_of_fails hget ho
      simp only [decrypt, Method.bind_apply, htry, Prod.mk.injEq, reduceCtorEq, false_and,
        false_iff]
      rintro ⟨mk', hd⟩
      generalize decryptEvicts P header ct ad fresh st = evicts at hd
      cases hd <;> simp_all
    · have htry := trySkipped_of_opens hget ho
      have hev : decryptEvicts P header ct ad fresh st = [] := by simp [decryptEvicts, htry]
      simp only [decrypt, Method.bind_apply, htry, hev, Method.pure_apply, Prod.mk.injEq,
        Except.ok.injEq]
      constructor
      · rintro ⟨rfl, rfl⟩
        exact ⟨_, .stored hget ho⟩
      · rintro ⟨mk', hd⟩
        generalize hnil : ([] : List (Bytes β × ℕ)) = evicts at hd
        cases hd <;> simp_all

/-- Each way to decrypt is one that a `decrypt` call takes. -/
lemma decrypt_of_decrypts {st st' : DoubleRatchet β X} {header : MessageHeader β}
    {ct ad mk pt : Bytes β} {fresh : X} {popped : List (Bytes β × ℕ)}
    (h : Decrypts P st header ct ad fresh mk pt st' popped) :
    decrypt P header ct ad fresh st = (.ok pt, st') := by
  rcases hget : st.skipped.get? (header.ratchetPub, header.n) with _ | mk'
  · have htrial := (trial_ok_iff hget).mpr ⟨mk, h⟩
    simp [decrypt, Method.bind_apply, trySkipped_of_none ct ad hget, htrial]
  · cases h with
    | stored hget' ho => simp [decrypt, Method.bind_apply, trySkipped_of_opens hget' ho]
    | current hnone => simp [hget] at hnone
    | newChain hnone => simp [hget] at hnone

/-- Trial, then commit: a `decrypt` call that raises leaves the ratchet as it was. -/
theorem decrypt_error {st st' : DoubleRatchet β X} {header : MessageHeader β} {ct ad : Bytes β}
    {fresh : X} {e : Exc β} (h : decrypt P header ct ad fresh st = (.error e, st')) :
    st' = st := by
  rcases hget : st.skipped.get? (header.ratchetPub, header.n) with _ | mk
  · have htry := trySkipped_of_none (P := P) ct ad hget
    rcases htrial : trial P header ct ad fresh st with ⟨e' | ⟨pt', evicts⟩, st''⟩
    · simp only [decrypt, Method.bind_apply, htry, htrial, Method.self_apply, Method.raise_apply,
        Prod.mk.injEq] at h
      exact h.2.symm
    · simp [decrypt, Method.bind_apply, htry, htrial] at h
  · rcases ho : openWith P mk header ct ad with e' | pt'
    · obtain ⟨e'', htry⟩ := trySkipped_of_fails hget ho
      simp only [decrypt, Method.bind_apply, htry, Prod.mk.injEq] at h
      exact h.2.symm
    · simp [decrypt, Method.bind_apply, trySkipped_of_opens hget ho] at h

end DoubleRatchet

end Chatbit
