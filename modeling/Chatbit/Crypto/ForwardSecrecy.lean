import Chatbit.Session
import Chatbit.Crypto.RatchetRunTheorems
import Chatbit.Crypto.SecrecyTheorems

/-!
# Forward secrecy

A party at epoch `i` of the schedule holds the root key `i`, a sending and a receiving chain key,
and stored keys of messages that it has passed. From these the attacker does not get back to the key
of a message that the party has sent or accepted: the chain key of that message has been replaced,
its root key has been replaced, and its own key is not stored. This holds even for an attacker that
has every private key, since every guarded chain of derivations starts at an older root key.
-/

namespace Chatbit

open Lib DoubleRatchet Schedule

variable {β X E : Type} [Alphabet β] [DecidableEq β] {P : Primitives β X E}

/-! ## The keys of a party -/

/-- The places of the two chain keys of a party at epoch `i`. -/
def Schedule.ChainPlace (σ : Schedule β X) (i nr j n : ℕ) : Prop :=
  j + 1 = i ∧ n = σ.count i ∨ j + 2 = i ∧ n = nr

/-- The places of the stored keys. -/
def Schedule.StoredPlace (P : Primitives β X E) (σ : Schedule β X) (i : ℕ)
    (st : DoubleRatchet β X) (j n : ℕ) : Prop :=
  σ.Behind i st.nr (j + 1) n ∧ (σ.pub P (j + 1), n) ∈ st.skipped.keys

variable {σ : Schedule β X} {i : ℕ} {st : DoubleRatchet β X}

omit [DecidableEq β] in
/-- A party holds the keys of its epoch. -/
lemma PartyOk.holds (h : PartyOk P σ i st) :
    Holds P σ i (σ.ChainPlace i st.nr) (σ.StoredPlace P i st) st := by
  refine ⟨h.rk, ?_, ?_, ?_⟩
  · intro ck hck
    rw [h.cks] at hck
    split_ifs at hck with hi
    obtain ⟨j, rfl⟩ : ∃ j, i = j + 1 := ⟨i - 1, by omega⟩
    exact ⟨j, _, Or.inl ⟨rfl, rfl⟩, (Option.some.inj hck).symm⟩
  · intro ck hck
    rw [h.ckr] at hck
    split_ifs at hck with hi
    obtain ⟨j, rfl⟩ : ∃ j, i = j + 2 := ⟨i - 2, by omega⟩
    exact ⟨j, _, Or.inr ⟨rfl, rfl⟩, (Option.some.inj hck).symm⟩
  · intro mk hmk
    obtain ⟨e, he, rfl⟩ := List.mem_map.mp hmk
    obtain ⟨j, n, hj, rfl⟩ := h.skipped e he
    have hj' := hj
    obtain ⟨hj0, -⟩ := hj'
    obtain ⟨j, rfl⟩ : ∃ j', j = j' + 1 := ⟨j - 1, by omega⟩
    exact ⟨j, n, ⟨hj, OrderedDict.mem_keys_iff.mpr ⟨_, he⟩⟩, rfl⟩

/-! ## What makes one message key -/

/-- Message `n` of the chain that starts from root key `j`, the chain keys up to it and the root
keys up to that one. -/
def Guards.message (j n : ℕ) : Guards where
  root m := m ≤ j
  dh _ := False
  chain j' m := j' = j ∧ m ≤ n
  msg j' m := j' = j ∧ m = n

omit [Alphabet β] [DecidableEq β] in
lemma Guards.closed_message (privs : Set X) (j n : ℕ) :
    (Guards.message j n).Closed P σ privs where
  root_succ _ hm := Or.inl (Nat.le_of_succ_le hm)
  chain_zero _ hj := Or.inl hj.1.le
  chain_succ _ _ hj := ⟨hj.1, Nat.le_of_succ_le hj.2⟩
  msg _ _ hj := ⟨hj.1, hj.2.le⟩
  dh _ hm := hm.elim

section Secrecy

variable (hP : P.Correct) (hH : P.HashIdeal) (hT : P.TermsIdeal)
include hP hH hT

omit [DecidableEq β] in
/-- A message key that a party has left behind is not learned from its state. -/
lemma PartyOk.not_learns_msgKey (hσ : σ.WF P) (hk : Independent P σ.k) (h : PartyOk P σ i st)
    {j n : ℕ} (hj : 1 ≤ j) (hji : j ≤ i) (hsent : j = i → n < σ.count i)
    (hreceived : j + 1 = i → n < st.nr) (hgone : (σ.pub P j, n) ∉ st.skipped.keys)
    (privs : Set X) : ¬ Learns P privs st (σ.msgKey P j n) := by
  obtain ⟨j, rfl⟩ : ∃ j', j = j' + 1 := ⟨j - 1, by omega⟩
  apply h.holds.not_learns hP hH hT hσ hk (Guards.closed_message _ j n)
  · -- the root key is a later one
    show ¬ i ≤ j
    omega
  · rintro j' m hplace ⟨rfl, hm⟩
    rcases hplace with ⟨hj', rfl⟩ | ⟨hj', rfl⟩
    · have := hsent hj'
      omega
    · have := hreceived hj'
      omega
  · rintro j' m ⟨-, hin⟩ ⟨rfl, rfl⟩
    exact hgone hin
  · exact .msg ⟨rfl, rfl⟩

variable {s : RatchetRun β X}

omit [DecidableEq β] in
/-- The sender of a message has left its key behind. -/
lemma RunOk.not_learns_sent (h : RunOk P σ s) (hk : Independent P σ.k) {m : Sent β}
    (hm : m ∈ s.sent) (privs : Set X) : ¬ Learns P privs (s.ratchet m.side) m.msgKey := by
  obtain ⟨j, hj⟩ := h.sent_at m hm
  have hparity := hj.parity
  rw [← h.wf.parity m.side] at hparity
  rw [hj.msgKey]
  apply (h.party m.side).not_learns_msgKey hP hH hT h.wf hk hj.one_le hj.le_epoch
  · rintro rfl
    exact hj.n_lt
  · intro heq
    omega
  · -- only keys of the peer's chains are stored
    intro hin
    obtain ⟨j', ⟨-, hlt, hne, -⟩, hpub⟩ := (h.party m.side).passed_of_mem hin
    have htop := h.wf.le_top m.side
    have hle := hj.le_epoch
    obtain rfl := h.wf.pub_inj j (by omega) j' (by omega) hpub
    exact hne hparity

omit [DecidableEq β] in
/-- So has a receiver that has accepted it. -/
lemma RunOk.not_learns_accepted (h : RunOk P σ s) (hk : Independent P σ.k) {m : Sent β}
    (hm : m ∈ s.sent) (hacc : m.delivery ∈ s.accepted) (privs : Set X) :
    ¬ Learns P privs (s.ratchet m.side.peer) m.msgKey := by
  obtain ⟨j, hj⟩ := h.sent_at m hm
  have hpassed := h.accepted_passed _ hacc
  have hgone := h.accepted_gone _ hacc
  change σ.Passed P (σ.epoch m.side.peer) (s.ratchet m.side.peer).nr m.header.index at hpassed
  change m.header.index ∉ (s.ratchet m.side.peer).skipped.keys at hgone
  obtain ⟨j', ⟨-, hlt, -, hn⟩, hpub⟩ := hpassed
  have htop := h.wf.le_top m.side.peer
  obtain rfl : j = j' := h.wf.pub_inj j (hj.le_epoch.trans (h.wf.le_top _)) j' (by omega)
    (hj.pub.symm.trans hpub)
  rw [hj.msgKey]
  apply (h.party m.side.peer).not_learns_msgKey hP hH hT h.wf hk hj.one_le hlt.le
  · intro heq
    omega
  · intro heq
    rwa [if_pos heq] at hn
  · rw [← hj.pub]
    exact hgone

end Secrecy

/-! ## Later moments -/

/-- What was sent and accepted stays so. -/
lemma RatchetRun.mem_step (s : RatchetRun β X) (event : RatchetEvent β X) :
    s.sent ⊆ (s.step P event).sent ∧ s.accepted ⊆ (s.step P event).accepted := by
  cases event with
  | encrypt side pt ad =>
    refine ⟨?_, List.Subset.refl _⟩
    show s.sent ⊆ (s.afterEncrypt P side pt ad).sent
    unfold RatchetRun.afterEncrypt
    rcases DoubleRatchet.encrypt P pt ad (s.ratchet side) with ⟨e | ⟨header, ct⟩, st'⟩
    · exact List.Subset.refl _
    · exact List.subset_append_left _ _
  | deliver side header ct ad fresh =>
    refine ⟨List.Subset.refl _, ?_⟩
    show s.accepted ⊆ (s.afterDeliver P side header ct ad fresh).accepted
    unfold RatchetRun.afterDeliver
    rcases DoubleRatchet.decrypt P header ct ad fresh (s.ratchet side) with ⟨e | pt, st'⟩
    · exact List.Subset.refl _
    · exact List.subset_append_left _ _

lemma RatchetRun.mem_reaches {s t : RatchetRun β X}
    (hst : Reaches (RatchetRun.Admissible P) (RatchetRun.step P) s t) :
    s.sent ⊆ t.sent ∧ s.accepted ⊆ t.accepted := by
  refine hst.invariant (I := fun u => s.sent ⊆ u.sent ∧ s.accepted ⊆ u.accepted)
    ⟨List.Subset.refl _, List.Subset.refl _⟩ ?_
  intro u event hu _
  have hstep := u.mem_step (P := P) event
  exact ⟨List.Subset.trans hu.1 hstep.1, List.Subset.trans hu.2 hstep.2⟩

lemma RatchetRun.Reachable.trans {k : Bytes β} {a r : X} {s t : RatchetRun β X}
    (hs : RatchetRun.Reachable P k a r s)
    (hst : Reaches (RatchetRun.Admissible P) (RatchetRun.step P) s t) :
    RatchetRun.Reachable P k a r t := by
  obtain ⟨initiator, responder, hne, hsender, hreceiver, hreach⟩ := hs
  exact ⟨initiator, responder, hne, hsender, hreceiver, Relation.ReflTransGen.trans hreach hst⟩

/-! ## The shared key of a session -/

omit [DecidableEq β] in
/-- The root key of a session is a hash of the session info, and no other term is. -/
lemma independent_rootKey (hP : P.Correct) (hH : P.HashIdeal) (hT : P.TermsIdeal)
    (chainingKey handshakeHash : Bytes β) :
    Independent P (deriveSessionKeys P chainingKey handshakeHash).1 := by
  have hlen := hP.length_hmac
  simp only [HASHLEN] at hlen
  -- the first block of the HKDF output
  have hroot : (deriveSessionKeys P chainingKey handshakeHash).1 =
      P.hmacSha256 (P.hmacSha256 handshakeHash chainingKey) (sessionInfo ++ [ofOctet 1]) := by
    simp only [deriveSessionKeys, Primitives.hkdf, HASHLEN, Primitives.hkdfBlocks,
      Nat.reduceAdd, Nat.reduceSub, Nat.reduceDiv, List.nil_append]
    rw [List.take_take, show min 32 96 = 32 from rfl,
      List.take_append_of_le_length (by rw [hlen]), List.take_of_length_le (by rw [hlen])]
    rfl
  have hmac : IsHmac P 19 (deriveSessionKeys P chainingKey handshakeHash).1 := by
    refine ⟨_, _, hP.length_hmac _ _, ?_, hroot⟩
    rw [List.length_append, sessionInfo, length_ascii, List.length_singleton]
    decide
  have hne : ∀ {len : ℕ} {t : Bytes β}, IsHmac P len t → len ≠ 19 →
      (deriveSessionKeys P chainingKey handshakeHash).1 ≠ t := by
    rintro len t ht hlen rfl
    exact hlen (ht.length_unique hH hmac)
  refine ⟨?_, ?_, ?_, ?_, ?_⟩
  · intro x heq
    rw [hroot] at heq
    exact hT.public_ne_hmac _ _ _ heq.symm
  · intro x raw heq
    rw [hroot] at heq
    exact hT.exchange_ne_hmac _ _ _ _ heq.symm
  · intro rk dhOut
    exact ⟨hne (isHmac_kdfRk_fst hP _ _) (by decide), hne (isHmac_kdfRk_snd hP _ _) (by decide)⟩
  · intro ck hck
    exact ⟨hne (isHmac_kdfCk_fst hck) (by decide), hne (isHmac_kdfCk_snd hck) (by decide)⟩
  · intro mk
    exact hne (isHmac_messageKeys_fst hP mk) (by decide)

/-! ## Results -/

section Results

variable (hP : P.Correct) (hH : P.HashIdeal) (hD : P.DhIdeal) (hT : P.TermsIdeal)
include hP hH hD hT

/-- At no moment after a message was encrypted does the attacker learn its key from the complete
state of the sender, and at none after it was accepted from that of the receiver, whatever private
keys the attacker has. -/
theorem RatchetRun.forward_secrecy {k : Bytes β} {a r : X} {s t : RatchetRun β X}
    (hs : RatchetRun.Reachable P k a r s) (hk : Independent P k)
    (hst : Reaches (RatchetRun.Admissible P) (RatchetRun.step P) s t) {m : Sent β}
    (hm : m ∈ s.sent) (privs : Set X) :
    ¬ Learns P privs (t.ratchet m.side) m.msgKey ∧
      (m.delivery ∈ s.accepted → ¬ Learns P privs (t.ratchet m.side.peer) m.msgKey) := by
  obtain ⟨σ, rfl, h⟩ := (hs.trans hst).runOk_shared hP hH hD
  obtain ⟨hsent, haccepted⟩ := RatchetRun.mem_reaches hst
  exact ⟨h.not_learns_sent hP hH hT hk (hsent hm) privs,
    fun hacc => h.not_learns_accepted hP hH hT hk (hsent hm) (haccepted hacc) privs⟩

end Results

/-- No byte of the first shared key of the symbolic runs is a mark. -/
lemma symbolic_independent : Independent symbolic (zeros 32) := by
  have hne : ∀ (op : SymOp) (args : List (Bytes SymByte)) (len : ℕ),
      zeros 32 ≠ SymByte.output op args len := by
    intro op args len heq
    have hhead := (List.cons.inj heq).1
    cases hhead
  have hmac : ∀ {len : ℕ} {t : Bytes SymByte}, IsHmac symbolic len t → zeros 32 ≠ t := by
    rintro len t ⟨key, data, -, -, rfl⟩
    exact hne _ _ _
  refine ⟨fun x => hne _ _ _, ?_, ?_, ?_, ?_⟩
  · intro x raw
    change zeros 32 ≠ SymByte.secret x raw
    rcases SymByte.secret_cases x raw with ⟨y, -, h⟩ | h
    · rw [h]
      exact hne _ _ _
    · rw [h]
      exact hne _ _ _
  · intro rk dhOut
    exact ⟨hmac (isHmac_kdfRk_fst symbolic_correct _ _),
      hmac (isHmac_kdfRk_snd symbolic_correct _ _)⟩
  · intro ck hck
    exact ⟨hmac (isHmac_kdfCk_fst hck), hmac (isHmac_kdfCk_snd hck)⟩
  · intro mk
    exact hmac (isHmac_messageKeys_fst symbolic_correct mk)

/-- Once the greeting has been accepted, late, with its stored key, the key is learned from neither
state, and a replay does not bring it back. -/
theorem RatchetRun.forward_secrecy_late :
    ¬ Learns symbolic Set.univ (replayed.ratchet .initiator) hello.msgKey ∧
      ¬ Learns symbolic Set.univ (replayed.ratchet .responder) hello.msgKey := by
  have hsent : hello ∈ late.sent := by decide +kernel
  have haccepted : hello.delivery ∈ late.accepted := by decide +kernel
  have hreplay : Reaches (RatchetRun.Admissible symbolic) (RatchetRun.step symbolic) late
      replayed := (Reaches.refl _).tail replay_admissible
  have h := RatchetRun.forward_secrecy symbolic_correct symbolic_hashIdeal symbolic_dhIdeal
    symbolic_termsIdeal late_reachable symbolic_independent hreplay hsent Set.univ
  exact ⟨h.1, h.2 haccepted⟩

/-- The two ratchets of a session have forward secrecy: their shared key is its root key. -/
theorem RatchetRun.forward_secrecy_session (hP : P.Correct) (hH : P.HashIdeal) (hD : P.DhIdeal)
    (hT : P.TermsIdeal) {chainingKey handshakeHash : Bytes β} {a r : X} {s t : RatchetRun β X}
    (hs : RatchetRun.Reachable P (deriveSessionKeys P chainingKey handshakeHash).1 a r s)
    (hst : Reaches (RatchetRun.Admissible P) (RatchetRun.step P) s t) {m : Sent β}
    (hm : m ∈ s.sent) (hacc : m.delivery ∈ s.accepted) (privs : Set X) :
    ¬ Learns P privs (t.ratchet m.side) m.msgKey ∧
      ¬ Learns P privs (t.ratchet m.side.peer) m.msgKey := by
  obtain ⟨σ, hσ, h⟩ := (hs.trans hst).runOk_shared hP hH hD
  have hk : Independent P σ.k := hσ ▸ independent_rootKey hP hH hT _ _
  obtain ⟨hsent, haccepted⟩ := RatchetRun.mem_reaches hst
  exact ⟨h.not_learns_sent hP hH hT hk (hsent hm) privs,
    h.not_learns_accepted hP hH hT hk (hsent hm) (haccepted hacc) privs⟩

end Chatbit
