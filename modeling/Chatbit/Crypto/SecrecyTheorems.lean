import Chatbit.Crypto.RatchetSchedule
import Chatbit.Crypto.Secrecy

/-!
# Guarded sets of keys of the schedule

A set of root keys, DH outputs, chain keys and message keys of a schedule is guarded when it
contains, with each of its keys, one of the two terms that make it (`Schedule.Guards`). The attacker
then derives none of them from a state that holds none of them (`not_learns`), and what a state
holds is given by its place in the schedule (`Holds`).
-/

namespace Chatbit

open Lib

variable {β X E : Type} [Alphabet β] [DecidableEq β] {P : Primitives β X E} {σ : Schedule β X}

namespace Schedule

/-- The output of the DH between `key m` and `key (m + 1)`. -/
def secret (P : Primitives β X E) (σ : Schedule β X) (m : ℕ) : Bytes β :=
  P.exchange (σ.key m) (σ.pub P (m + 1))

/-- Which terms of a schedule are to be secret: root keys, DH outputs, positions of chain keys and
of message keys. Chains are numbered by the root key that they start from. -/
structure Guards where
  root : ℕ → Prop
  dh : ℕ → Prop
  chain : ℕ → ℕ → Prop
  msg : ℕ → ℕ → Prop

/-- The secret terms. -/
inductive Secret (P : Primitives β X E) (σ : Schedule β X) (G : Guards) : Bytes β → Prop
  | root {m : ℕ} (h : G.root m) : Secret P σ G (σ.root P m)
  | dh {m : ℕ} (h : G.dh m) : Secret P σ G (σ.secret P m)
  | chain {j n : ℕ} (h : G.chain j n) : Secret P σ G (chainKey P (σ.chain P (j + 1)) n)
  | msg {j n : ℕ} (h : G.msg j n) : Secret P σ G (σ.msgKey P (j + 1) n)

/-- Every secret needs a secret to make it, and the attacker has no private key of a DH that is
secret. -/
structure Guards.Closed (P : Primitives β X E) (σ : Schedule β X) (privs : Set X) (G : Guards) :
    Prop where
  root_succ : ∀ m, G.root (m + 1) → G.root m ∨ G.dh m
  chain_zero : ∀ j, G.chain j 0 → G.root j ∨ G.dh j
  chain_succ : ∀ j n, G.chain j (n + 1) → G.chain j n
  msg : ∀ j n, G.msg j n → G.chain j n
  dh : ∀ m, G.dh m → ∀ x ∈ privs,
    P.x25519PublicBytes x ≠ σ.pub P m ∧ P.x25519PublicBytes x ≠ σ.pub P (m + 1)

/-! ## The terms of a schedule are different -/

omit [DecidableEq β] in
/-- The next root key is derived from this one and the secret of the step. -/
lemma root_succ (m : ℕ) : σ.root P (m + 1) = (kdfRk P (σ.root P m) (σ.secret P m)).1 := rfl

omit [DecidableEq β] in
/-- So is the chain key of the new epoch. -/
lemma chain_succ (j : ℕ) : σ.chain P (j + 1) = (kdfRk P (σ.root P j) (σ.secret P j)).2 := rfl

section Distinct

variable (hP : P.Correct) (hH : P.HashIdeal) (hσ : σ.WF P) (hk : Independent P σ.k)
include hP hH hσ

omit hH hσ [DecidableEq β] in
/-- Chain keys are 32 bytes. -/
lemma length_chainKey (j n : ℕ) : (chainKey P (σ.chain P (j + 1)) n).length = 32 :=
  Chatbit.length_chainKey hP (length_kdfRk_snd hP _ _) n

omit hH hσ [DecidableEq β] in
lemma isHmac_msgKey (j n : ℕ) : IsHmac P 1 (σ.msgKey P (j + 1) n) :=
  isHmac_kdfCk_snd (length_chainKey hP j n)

include hk

omit [DecidableEq β] in
/-- Root keys of different epochs are different. -/
lemma root_inj {i j : ℕ} (h : σ.root P i = σ.root P j) : i = j := by
  induction i generalizing j with
  | zero =>
    cases j with
    | zero => rfl
    | succ j => exact absurd h (hk.ne_kdfRk _ _).1
  | succ i ih =>
    cases j with
    | zero => exact absurd h.symm (hk.ne_kdfRk _ _).1
    | succ j =>
      have hroot := (kdfRk_fst_inj hP hH (length_root hP hσ i) (length_root hP hσ j) h).1
      exact congrArg (· + 1) (ih hroot)

omit [DecidableEq β] in
/-- Different epochs have different chains. -/
lemma chain_inj {i j : ℕ} (h : σ.chain P (i + 1) = σ.chain P (j + 1)) : i = j :=
  root_inj hP hH hσ hk
    (kdfRk_snd_inj hP hH (length_root hP hσ i) (length_root hP hσ j) h).1

omit [DecidableEq β] in
/-- Chain keys determine the chain and the position. -/
lemma chainKey_inj {i j n m : ℕ}
    (h : chainKey P (σ.chain P (i + 1)) n = chainKey P (σ.chain P (j + 1)) m) :
    i = j ∧ n = m := by
  have hmsg : messageKey P (σ.chain P (i + 1)) n = messageKey P (σ.chain P (j + 1)) m := by
    unfold messageKey
    rw [h]
  obtain ⟨hchain, hn⟩ := messageKey_inj hP hH hmsg
  exact ⟨chain_inj hP hH hσ hk hchain, hn⟩

end Distinct

/-! ## What makes a secret -/

namespace Secret

variable {G : Guards} (hP : P.Correct) (hH : P.HashIdeal) (hT : P.TermsIdeal) (hσ : σ.WF P)
  (hk : Independent P σ.k)
include hP hH hT hσ hk

omit hH hk [DecidableEq β] in
/-- Secrets are 32 bytes. -/
lemma length {t : Bytes β} (h : Secret P σ G t) : t.length = 32 := by
  cases h with
  | root h => exact length_root hP hσ _
  | dh h => exact hT.length_exchange _ _
  | chain h => exact length_chainKey hP _ _
  | msg h => exact hP.length_hmac _ _

omit hσ hk [DecidableEq β] in
/-- A secret that is a hash under a 32-byte key is none of the DH outputs, nor the shared key. -/
lemma isHmac_cases {len : ℕ} {t : Bytes β} (ht : IsHmac P len t) (hne : t ≠ σ.k)
    (h : Secret P σ G t) :
    (∃ m, G.root (m + 1) ∧ t = σ.root P (m + 1) ∧ len = 24) ∨
    (∃ j, G.chain j 0 ∧ t = σ.chain P (j + 1) ∧ len = 56) ∨
    (∃ j n, G.chain j (n + 1) ∧ t = (kdfCk P (chainKey P (σ.chain P (j + 1)) n)).1 ∧ len = 1) ∨
    ∃ j n, G.msg j n ∧ t = (kdfCk P (chainKey P (σ.chain P (j + 1)) n)).2 ∧ len = 1 := by
  cases h with
  | @root m h =>
    cases m with
    | zero => exact absurd rfl hne
    | succ m =>
      have hlen := ht.length_unique hH (isHmac_kdfRk_fst hP (σ.root P m) (σ.secret P m))
      exact Or.inl ⟨m, h, rfl, hlen⟩
  | @dh m h =>
    obtain ⟨key, data, -, -, heq⟩ := ht
    exact absurd heq (hT.exchange_ne_hmac _ _ _ _)
  | @chain j n h =>
    cases n with
    | zero =>
      have hlen := ht.length_unique hH (isHmac_kdfRk_snd hP (σ.root P j) (σ.secret P j))
      exact Or.inr (Or.inl ⟨j, h, rfl, hlen⟩)
    | succ n =>
      rw [chainKey_succ] at ht ⊢
      have hlen := ht.length_unique hH (isHmac_kdfCk_fst (length_chainKey hP j n))
      exact Or.inr (Or.inr (Or.inl ⟨j, n, h, rfl, hlen⟩))
  | @msg j n h =>
    have hlen := ht.length_unique hH (isHmac_msgKey hP j n)
    exact Or.inr (Or.inr (Or.inr ⟨j, n, h, rfl, hlen⟩))

omit hH hσ [DecidableEq β] in
/-- No public key is a secret. -/
lemma not_public (x : X) : ¬ Secret P σ G (P.x25519PublicBytes x) := by
  intro h
  generalize ht : P.x25519PublicBytes x = t at h
  cases h with
  | @root m h =>
    cases m with
    | zero => exact hk.ne_public x ht.symm
    | succ m =>
      obtain ⟨key, data, -, -, heq⟩ := isHmac_kdfRk_fst hP (σ.root P m) (σ.secret P m)
      exact hT.public_ne_hmac _ _ _ (ht.trans heq)
  | dh h => exact hT.public_ne_exchange _ _ _ ht
  | @chain j n h =>
    cases n with
    | zero =>
      obtain ⟨key, data, -, -, heq⟩ := isHmac_kdfRk_snd hP (σ.root P j) (σ.secret P j)
      exact hT.public_ne_hmac _ _ _ (ht.trans heq)
    | succ n =>
      rw [chainKey_succ] at ht
      exact hT.public_ne_hmac _ _ _ ht
  | msg h => exact hT.public_ne_hmac _ _ _ ht

omit hH hσ [DecidableEq β] in
/-- An X25519 output that is secret is one of the secret DH outputs. -/
lemma of_exchange {x : X} {raw : Bytes β} (h : Secret P σ G (P.exchange x raw)) :
    ∃ m, G.dh m ∧ P.exchange x raw = σ.secret P m := by
  generalize ht : P.exchange x raw = t at h
  cases h with
  | @root m h =>
    cases m with
    | zero => exact absurd ht.symm (hk.ne_exchange x raw)
    | succ m =>
      obtain ⟨key, data, -, -, heq⟩ := isHmac_kdfRk_fst hP (σ.root P m) (σ.secret P m)
      exact absurd (ht.trans heq) (hT.exchange_ne_hmac _ _ _ _)
  | @dh m h => exact ⟨m, h, rfl⟩
  | @chain j n h =>
    cases n with
    | zero =>
      obtain ⟨key, data, -, -, heq⟩ := isHmac_kdfRk_snd hP (σ.root P j) (σ.secret P j)
      exact absurd (ht.trans heq) (hT.exchange_ne_hmac _ _ _ _)
    | succ n =>
      rw [chainKey_succ] at ht
      exact absurd ht (hT.exchange_ne_hmac _ _ _ _)
  | msg h => exact absurd ht (hT.exchange_ne_hmac _ _ _ _)

omit [DecidableEq β] in
/-- A root key that is secret comes from the root key and the DH output before it. -/
lemma of_kdfRk_fst {rk d : Bytes β} (hrk : rk.length = 32)
    (h : Secret P σ G (kdfRk P rk d).1) :
    ∃ m, G.root (m + 1) ∧ rk = σ.root P m ∧ d = σ.secret P m := by
  have hne := (hk.ne_kdfRk rk d).1
  rcases isHmac_cases hP hH hT (isHmac_kdfRk_fst hP rk d) hne.symm h with
    ⟨m, hm, heq, -⟩ | ⟨j, -, -, hlen⟩ | ⟨j, n, -, -, hlen⟩ | ⟨j, n, -, -, hlen⟩
  · exact ⟨m, hm, kdfRk_fst_inj hP hH hrk (length_root hP hσ m) heq⟩
  · exact absurd hlen (by decide)
  · exact absurd hlen (by decide)
  · exact absurd hlen (by decide)

omit [DecidableEq β] in
/-- So does a chain key that begins a chain. -/
lemma of_kdfRk_snd {rk d : Bytes β} (hrk : rk.length = 32)
    (h : Secret P σ G (kdfRk P rk d).2) :
    ∃ j, G.chain j 0 ∧ rk = σ.root P j ∧ d = σ.secret P j := by
  have hne := (hk.ne_kdfRk rk d).2
  rcases isHmac_cases hP hH hT (isHmac_kdfRk_snd hP rk d) hne.symm h with
    ⟨m, -, -, hlen⟩ | ⟨j, hj, heq, -⟩ | ⟨j, n, -, -, hlen⟩ | ⟨j, n, -, -, hlen⟩
  · exact absurd hlen (by decide)
  · exact ⟨j, hj, kdfRk_snd_inj hP hH hrk (length_root hP hσ j) heq⟩
  · exact absurd hlen (by decide)
  · exact absurd hlen (by decide)

omit [DecidableEq β] hσ in
/-- A chain key that is secret comes from the one before it. -/
lemma of_kdfCk_fst {ck : Bytes β} (hck : ck.length = 32) (h : Secret P σ G (kdfCk P ck).1) :
    ∃ j n, G.chain j (n + 1) ∧ ck = chainKey P (σ.chain P (j + 1)) n := by
  have hne := (hk.ne_kdfCk ck hck).1
  rcases isHmac_cases hP hH hT (isHmac_kdfCk_fst hck) hne.symm h with
    ⟨m, -, -, hlen⟩ | ⟨j, -, -, hlen⟩ | ⟨j, n, hj, heq, -⟩ | ⟨j, n, -, heq, -⟩
  · exact absurd hlen (by decide)
  · exact absurd hlen (by decide)
  · exact ⟨j, n, hj, kdfCk_fst_inj hH hck (length_chainKey hP j n) heq⟩
  · exact absurd heq (kdfCk_fst_ne_snd hH hck (length_chainKey hP j n))

omit [DecidableEq β] hσ in
/-- So does a message key. -/
lemma of_kdfCk_snd {ck : Bytes β} (hck : ck.length = 32) (h : Secret P σ G (kdfCk P ck).2) :
    ∃ j n, G.msg j n ∧ ck = chainKey P (σ.chain P (j + 1)) n := by
  have hne := (hk.ne_kdfCk ck hck).2
  rcases isHmac_cases hP hH hT (isHmac_kdfCk_snd hck) hne.symm h with
    ⟨m, -, -, hlen⟩ | ⟨j, -, -, hlen⟩ | ⟨j, n, -, heq, -⟩ | ⟨j, n, hj, heq, -⟩
  · exact absurd hlen (by decide)
  · exact absurd hlen (by decide)
  · exact absurd heq.symm (kdfCk_fst_ne_snd hH (length_chainKey hP j n) hck)
  · exact ⟨j, n, hj, kdfCk_snd_inj hH hck (length_chainKey hP j n) heq⟩

omit hH hT hσ [DecidableEq β] in
/-- The shared key is secret only as the first root key. -/
lemma of_sharedKey (h : Secret P σ G σ.k) : G.root 0 := by
  generalize ht : σ.k = t at h
  cases h with
  | @root m h =>
    cases m with
    | zero => exact h
    | succ m => exact absurd ht (hk.ne_kdfRk _ _).1
  | dh h => exact absurd ht (hk.ne_exchange _ _)
  | @chain j n h =>
    cases n with
    | zero => exact absurd ht (hk.ne_kdfRk _ _).2
    | succ n =>
      rw [chainKey_succ] at ht
      exact absurd ht (hk.ne_kdfCk _ (length_chainKey hP j n)).1
  | @msg j n h => exact absurd ht (hk.ne_kdfCk _ (length_chainKey hP j n)).2

omit [DecidableEq β] in
/-- A root key is secret as the root key of its epoch. -/
lemma of_root {i : ℕ} (h : Secret P σ G (σ.root P i)) : G.root i := by
  cases i with
  | zero => exact of_sharedKey hP hk h
  | succ i =>
    obtain ⟨m, hm, hroot, -⟩ := of_kdfRk_fst hP hH hT hσ hk (length_root hP hσ i) h
    rw [root_inj hP hH hσ hk hroot]
    exact hm

omit [DecidableEq β] in
/-- A chain key is secret at its place in its chain. -/
lemma of_chainKey {j n : ℕ} (h : Secret P σ G (chainKey P (σ.chain P (j + 1)) n)) :
    G.chain j n := by
  cases n with
  | zero =>
    obtain ⟨j', hj', hroot, -⟩ := of_kdfRk_snd hP hH hT hσ hk (length_root hP hσ j) h
    rw [root_inj hP hH hσ hk hroot]
    exact hj'
  | succ n =>
    rw [chainKey_succ] at h
    obtain ⟨j', n', hj', hck⟩ :=
      of_kdfCk_fst hP hH hT hk (length_chainKey hP j n) h
    obtain ⟨rfl, rfl⟩ := chainKey_inj hP hH hσ hk hck
    exact hj'

omit [DecidableEq β] in
/-- So is a message key. -/
lemma of_msgKey {j n : ℕ} (h : Secret P σ G (σ.msgKey P (j + 1) n)) : G.msg j n := by
  obtain ⟨j', n', hj', hck⟩ := of_kdfCk_snd hP hH hT hk (length_chainKey hP j n) h
  obtain ⟨rfl, rfl⟩ := chainKey_inj hP hH hσ hk hck
  exact hj'

omit [DecidableEq β] hσ in
/-- The keys of the cipher are derived from message keys, and are none. -/
lemma not_aeadKey (mk : Bytes β) : ¬ Secret P σ G (messageKeys P mk).1 := by
  intro h
  rcases isHmac_cases hP hH hT (isHmac_messageKeys_fst hP mk) (hk.ne_messageKeys mk).symm h
    with ⟨m, -, -, hlen⟩ | ⟨j, -, -, hlen⟩ | ⟨j, n, -, -, hlen⟩ | ⟨j, n, -, -, hlen⟩
  all_goals exact absurd hlen (by decide)

end Secret

/-! ## Guarded sets -/

section Guarded

variable {G : Guards} {privs : Set X} (hP : P.Correct) (hH : P.HashIdeal) (hT : P.TermsIdeal)
  (hσ : σ.WF P) (hk : Independent P σ.k)
include hP hH hT hσ hk

omit [DecidableEq β] in
/-- The attacker needs one of the secrets to make one. -/
lemma guarded_secret (hG : G.Closed P σ privs) :
    Guarded (AttackerRule P privs) (fun t => Secret P σ G t) := by
  -- one case for each rule: it makes no secret, or one of its premises is a secret
  intro premises a hrule hsecret
  cases hrule with
  | ratchetPub x => exact absurd hsecret (Secret.not_public hP hT hk x)
  | header hpub henc =>
    have hlen := Secret.length hP hT hσ hsecret
    rw [MessageHeader.length_of_encode henc, hpub] at hlen
    exact absurd hlen (by decide)
  | @dh x hx raw =>
    obtain ⟨m, hm, heq⟩ := Secret.of_exchange hP hT hk hsecret
    obtain ⟨hne, hne'⟩ := hG.dh m hm x hx
    rcases hT.exchange_half _ _ _ _ heq with h | h
    · exact absurd h hne
    · exact absurd h hne'
  | kdfRkRoot hrk d =>
    obtain ⟨m, hm, rfl, rfl⟩ := Secret.of_kdfRk_fst hP hH hT hσ hk hrk hsecret
    rcases hG.root_succ m hm with h | h
    · exact ⟨_, List.mem_cons_self, .root h⟩
    · exact ⟨_, List.mem_cons_of_mem _ List.mem_cons_self, .dh h⟩
  | kdfRkChain hrk d =>
    obtain ⟨j, hj, rfl, rfl⟩ := Secret.of_kdfRk_snd hP hH hT hσ hk hrk hsecret
    rcases hG.chain_zero j hj with h | h
    · exact ⟨_, List.mem_cons_self, .root h⟩
    · exact ⟨_, List.mem_cons_of_mem _ List.mem_cons_self, .dh h⟩
  | kdfCkChain hck =>
    obtain ⟨j, n, hj, rfl⟩ := Secret.of_kdfCk_fst hP hH hT hk hck hsecret
    exact ⟨_, List.mem_cons_self, .chain (hG.chain_succ j n hj)⟩
  | kdfCkMessage hck =>
    obtain ⟨j, n, hj, rfl⟩ := Secret.of_kdfCk_snd hP hH hT hk hck hsecret
    exact ⟨_, List.mem_cons_self, .chain (hG.msg j n hj)⟩
  | aeadKey mk => exact absurd hsecret (Secret.not_aeadKey hP hH hT hk mk)
  | aeadNonce mk =>
    have hlen := Secret.length hP hT hσ hsecret
    rw [length_messageKeys_snd hP] at hlen
    exact absurd hlen (by decide)

end Guarded

/-! ## What a state holds -/

/-- The keys of a state are the root key `i`, chain keys at these positions and message keys at
those. -/
structure Holds (P : Primitives β X E) (σ : Schedule β X) (i : ℕ) (chain stored : ℕ → ℕ → Prop)
    (st : DoubleRatchet β X) : Prop where
  rk : st.rk = σ.root P i
  cks : ∀ ck, st.cks = some ck → ∃ j n, chain j n ∧ ck = chainKey P (σ.chain P (j + 1)) n
  ckr : ∀ ck, st.ckr = some ck → ∃ j n, chain j n ∧ ck = chainKey P (σ.chain P (j + 1)) n
  skipped : ∀ mk ∈ st.skipped.values, ∃ j n, stored j n ∧ mk = σ.msgKey P (j + 1) n

omit [DecidableEq β] in
/-- From a state that holds none of the secrets the attacker learns none of them. -/
lemma Holds.not_learns {G : Guards} {privs : Set X} {i : ℕ} {chain stored : ℕ → ℕ → Prop}
    {st : DoubleRatchet β X} (hP : P.Correct) (hH : P.HashIdeal) (hT : P.TermsIdeal)
    (hσ : σ.WF P) (hk : Independent P σ.k) (hG : G.Closed P σ (insert st.dhsPriv privs))
    (h : Holds P σ i chain stored st) (hroot : ¬ G.root i)
    (hchain : ∀ j n, chain j n → ¬ G.chain j n) (hstored : ∀ j n, stored j n → ¬ G.msg j n)
    {t : Bytes β} (ht : Secret P σ G t) : ¬ Learns P privs st t := by
  intro hlearns
  apply Derivable.not_mem (guarded_secret hP hH hT hσ hk hG) _ hlearns ht
  intro key hkey hsecret
  rcases hkey with rfl | hcks | hckr | hskipped
  · rw [h.rk] at hsecret
    exact hroot (Secret.of_root hP hH hT hσ hk hsecret)
  · obtain ⟨j, n, hj, rfl⟩ := h.cks key hcks
    exact hchain j n hj (Secret.of_chainKey hP hH hT hσ hk hsecret)
  · obtain ⟨j, n, hj, rfl⟩ := h.ckr key hckr
    exact hchain j n hj (Secret.of_chainKey hP hH hT hσ hk hsecret)
  · obtain ⟨j, n, hj, rfl⟩ := h.skipped key hskipped
    exact hstored j n hj (Secret.of_msgKey hP hH hT hσ hk hsecret)

end Schedule

end Chatbit
