import Chatbit.Crypto.RatchetTheorems
import Chatbit.Crypto.RatchetRun

/-!
# The schedule of a run

The ratchet keys of both parties, in the order in which they take effect, form one sequence
`key 0, key 1, …` (the responder's published key, the initiator's first key, and then in turns).
Each consecutive pair makes one root step, whose second output starts the chain that the owner of
the later key sends on: chain `j` is sent with `key j` and received with `key (j - 1)`. A party is
placed in the schedule by the index of its current key, its *epoch*, and everything it stores is
determined by that epoch and its two counters (`PartyOk`).

The abstract facts are two: message keys determine their chain and position (`msgKey_inj`), and
the only chain that a DH step from epoch `i` can reach is chain `i + 1` (`step_reaches_next`).
-/

namespace Chatbit

open Lib

variable {β X E : Type} [Alphabet β] [DecidableEq β] {P : Primitives β X E}

namespace Side

/-- The initiator owns the odd epochs. -/
def parity : Side → ℕ
  | initiator => 1
  | responder => 0

lemma parity_peer (s : Side) : s.peer.parity ≠ s.parity := by cases s <;> decide

lemma parity_lt (s : Side) : s.parity < 2 := by cases s <;> decide

@[simp] lemma peer_peer (s : Side) : s.peer.peer = s := by cases s <;> rfl

lemma peer_ne (s : Side) : s.peer ≠ s := by cases s <;> decide

/-- There are two sides. -/
lemma eq_peer_of_ne {s t : Side} (h : t ≠ s) : t = s.peer := by
  cases s <;> cases t <;> first | rfl | exact absurd rfl h

lemma eq_or_eq_peer (s t : Side) : s = t ∨ s = t.peer := by
  cases s <;> cases t <;> simp [Side.peer]

end Side

/-- The ratchet keys of a run in order, how many messages each chain has carried, where each side
is, and the last epoch. -/
structure Schedule (β X : Type) where
  k : Bytes β
  key : ℕ → X
  count : ℕ → ℕ
  epoch : Side → ℕ
  top : ℕ

namespace Schedule

variable (P) (σ : Schedule β X)

def pub (i : ℕ) : Bytes β := P.x25519PublicBytes (σ.key i)

/-- The root key of epoch `i`. -/
def root : ℕ → Bytes β
  | 0 => σ.k
  | i + 1 => (kdfRk P (root i) (P.exchange (σ.key i) (σ.pub P (i + 1)))).1

/-- The chain key that chain `j` starts from; there is no chain 0. -/
def chain : ℕ → Bytes β
  | 0 => []
  | j + 1 => (kdfRk P (σ.root P j) (P.exchange (σ.key j) (σ.pub P (j + 1)))).2

/-- The key of message `n` of chain `j`. -/
def msgKey (j n : ℕ) : Bytes β := messageKey P (σ.chain P j) n

/-- The well-formed schedules: the sides own alternating epochs, are at most one epoch apart, and
no ratchet key occurs twice. -/
structure WF : Prop where
  length_k : σ.k.length = 32
  parity : ∀ s, σ.epoch s % 2 = s.parity
  le_top : ∀ s, σ.epoch s ≤ σ.top
  top_le : ∀ s, σ.top ≤ σ.epoch s + 1
  pub_inj : ∀ i ≤ σ.top, ∀ j ≤ σ.top, σ.pub P i = σ.pub P j → i = j
  count_zero : σ.count 0 = 0
  count_above : ∀ j, σ.top < j → σ.count j = 0

/-- The schedule after one more message on chain `j`. -/
def bump (j : ℕ) : Schedule β X := { σ with count := Function.update σ.count j (σ.count j + 1) }

/-- The schedule after `side` has stepped to a fresh key. -/
def extend (side : Side) (fresh : X) : Schedule β X :=
  { σ with
    key := Function.update σ.key (σ.top + 1) fresh
    epoch := Function.update σ.epoch side (σ.top + 1)
    top := σ.top + 1 }

variable {P σ}

omit [DecidableEq β] in
/-- Root keys are 32 bytes. -/
lemma length_root (hP : P.Correct) (hσ : σ.WF P) (i : ℕ) : (σ.root P i).length = 32 := by
  cases i with
  | zero => exact hσ.length_k
  | succ i => exact length_kdfRk_fst hP _ _

omit [DecidableEq β] in
/-- So are ratchet public keys. -/
lemma length_pub (hP : P.Correct) (i : ℕ) : (σ.pub P i).length = 32 := hP.length_x25519Public _

omit [DecidableEq β] in
/-- The sender of chain `i + 1` and its receiver compute the same secret. -/
lemma exchange_comm (hP : P.Correct) (i j : ℕ) :
    P.exchange (σ.key i) (σ.pub P j) = P.exchange (σ.key j) (σ.pub P i) :=
  hP.exchange_comm _ _

section Injective

variable (hP : P.Correct) (hH : P.HashIdeal) (hD : P.DhIdeal)
include hP hH hD

omit [DecidableEq β] in
/-- Message keys determine the chain and the position on it. -/
lemma msgKey_inj (hσ : σ.WF P) {i j n m : ℕ} (hi : 1 ≤ i) (hi' : i ≤ σ.top) (hj : 1 ≤ j)
    (hj' : j ≤ σ.top) (h : σ.msgKey P i n = σ.msgKey P j m) : i = j ∧ n = m := by
  obtain ⟨i, rfl⟩ : ∃ i', i = i' + 1 := ⟨i - 1, by omega⟩
  obtain ⟨j, rfl⟩ : ∃ j', j = j' + 1 := ⟨j - 1, by omega⟩
  obtain ⟨hchain, hnm⟩ := messageKey_inj hP hH h
  obtain ⟨-, hdh⟩ := kdfRk_snd_inj hP hH (length_root hP hσ i) (length_root hP hσ j) hchain
  refine ⟨?_, hnm⟩
  rcases hD.exchange_inj _ _ _ _ hdh with ⟨h1, -⟩ | ⟨h1, h2⟩
  · have := hσ.pub_inj i (by omega) j (by omega) h1
    omega
  · have := hσ.pub_inj i (by omega) (j + 1) hj' h1
    have := hσ.pub_inj (i + 1) hi' j (by omega) h2
    omega

omit [DecidableEq β] in
/-- A DH step from epoch `i` to a public key of the schedule derives a message key of the schedule
only when it is the step to the next chain. -/
lemma step_reaches_next (hσ : σ.WF P) {i j n m : ℕ} (hi : i ≤ σ.top) (hj : 1 ≤ j)
    (hj' : j ≤ σ.top)
    (h : messageKey P (kdfRk P (σ.root P i) (P.exchange (σ.key i) (σ.pub P j))).2 n =
      σ.msgKey P j m) : j = i + 1 ∧ n = m := by
  obtain ⟨j, rfl⟩ : ∃ j', j = j' + 1 := ⟨j - 1, by omega⟩
  obtain ⟨hchain, hnm⟩ := messageKey_inj hP hH h
  obtain ⟨-, hdh⟩ := kdfRk_snd_inj hP hH (length_root hP hσ i) (length_root hP hσ j) hchain
  refine ⟨?_, hnm⟩
  rcases hD.exchange_inj _ _ _ _ hdh with ⟨h1, -⟩ | ⟨h1, h2⟩
  · have := hσ.pub_inj i hi j (by omega) h1
    omega
  · have := hσ.pub_inj i hi (j + 1) hj' h1
    have := hσ.pub_inj (j + 1) hj' j (by omega) h2
    omega

end Injective

omit [Alphabet β] [DecidableEq β] in
/-- The epochs of the two sides have different parities and differ by one. -/
lemma WF.epoch_peer (hσ : σ.WF P) (side : Side) :
    σ.epoch side.peer % 2 ≠ σ.epoch side % 2 ∧ σ.epoch side.peer ≤ σ.epoch side + 1 ∧
      σ.top ≤ max (σ.epoch side) (σ.epoch side.peer) := by
  have h1 := hσ.parity side
  have h2 := hσ.parity side.peer
  have h3 := Side.parity_peer side
  have h4 := hσ.le_top side.peer
  have h5 := hσ.top_le side
  have h6 := hσ.top_le side.peer
  have h7 := hσ.le_top side
  omega

/-! ## Keys that have taken effect -/

/-- The keys that have taken effect in `σ` are those of `σ'`. -/
structure Extends (σ σ' : Schedule β X) : Prop where
  k : σ'.k = σ.k
  top_le : σ.top ≤ σ'.top
  key : ∀ i ≤ σ.top, σ'.key i = σ.key i

namespace Extends

variable {σ' σ'' : Schedule β X}

omit [Alphabet β] [DecidableEq β] in
lemma refl (σ : Schedule β X) : σ.Extends σ := ⟨rfl, le_rfl, fun _ _ => rfl⟩

omit [Alphabet β] [DecidableEq β] in
/-- A schedule may be extended again and again. -/
lemma trans (h : σ.Extends σ') (h' : σ'.Extends σ'') : σ.Extends σ'' :=
  ⟨h'.k.trans h.k, h.top_le.trans h'.top_le,
    fun i hi => (h'.key i (hi.trans h.top_le)).trans (h.key i hi)⟩

omit [Alphabet β] [DecidableEq β] in
/-- Sending extends the schedule. -/
lemma bump (j : ℕ) : σ.Extends (σ.bump j) := ⟨rfl, le_rfl, fun _ _ => rfl⟩

omit [Alphabet β] [DecidableEq β] in
/-- A DH step extends the schedule. -/
lemma extend (side : Side) (fresh : X) : σ.Extends (σ.extend side fresh) :=
  ⟨rfl, Nat.le_succ _, fun _ _ => Function.update_of_ne (by omega) _ _⟩

omit [Alphabet β] [DecidableEq β] in
/-- Extensions keep the public keys of the epochs that there are. -/
lemma pub (h : σ.Extends σ') {i : ℕ} (hi : i ≤ σ.top) : σ'.pub P i = σ.pub P i := by
  unfold Schedule.pub
  rw [h.key i hi]

omit [DecidableEq β] in
/-- They keep the root keys. -/
lemma root (h : σ.Extends σ') {i : ℕ} (hi : i ≤ σ.top) : σ'.root P i = σ.root P i := by
  induction i with
  | zero => exact h.k
  | succ i ih =>
    unfold Schedule.root
    rw [ih (by omega), h.key i (by omega), h.pub hi]

omit [DecidableEq β] in
/-- They keep the chain keys. -/
lemma chain (h : σ.Extends σ') {i : ℕ} (hi : i ≤ σ.top) : σ'.chain P i = σ.chain P i := by
  cases i with
  | zero => rfl
  | succ i =>
    show (kdfRk P (σ'.root P i) (P.exchange (σ'.key i) (σ'.pub P (i + 1)))).2 = _
    rw [h.root (by omega), h.key i (by omega), h.pub hi]
    rfl

omit [DecidableEq β] in
/-- So they keep the message keys. -/
lemma msgKey (h : σ.Extends σ') {i : ℕ} (hi : i ≤ σ.top) (n : ℕ) :
    σ'.msgKey P i n = σ.msgKey P i n := by
  unfold Schedule.msgKey
  rw [h.chain hi]

end Extends

/-! ## Growing the schedule -/

section Extend

variable {side : Side} {fresh : X}

omit [Alphabet β] [DecidableEq β] in
lemma extend_key {i : ℕ} (hi : i ≤ σ.top) : (σ.extend side fresh).key i = σ.key i :=
  (Extends.extend side fresh).key i hi

omit [Alphabet β] [DecidableEq β] in
lemma extend_pub {i : ℕ} (hi : i ≤ σ.top) : (σ.extend side fresh).pub P i = σ.pub P i :=
  (Extends.extend side fresh).pub hi

omit [DecidableEq β] in
lemma extend_root {i : ℕ} (hi : i ≤ σ.top) : (σ.extend side fresh).root P i = σ.root P i :=
  (Extends.extend side fresh).root hi

omit [DecidableEq β] in
lemma extend_chain {i : ℕ} (hi : i ≤ σ.top) : (σ.extend side fresh).chain P i = σ.chain P i :=
  (Extends.extend side fresh).chain hi

omit [DecidableEq β] in
/-- A DH step changes no message key of an earlier epoch. -/
lemma extend_msgKey {i : ℕ} (hi : i ≤ σ.top) (n : ℕ) :
    (σ.extend side fresh).msgKey P i n = σ.msgKey P i n :=
  (Extends.extend side fresh).msgKey hi n

omit [Alphabet β] [DecidableEq β] in
lemma extend_key_top : (σ.extend side fresh).key (σ.top + 1) = fresh := Function.update_self ..

omit [Alphabet β] [DecidableEq β] in
/-- The new epoch has the key pair that was drawn. -/
lemma extend_pub_top :
    (σ.extend side fresh).pub P (σ.top + 1) = P.x25519PublicBytes fresh := by
  rw [pub, extend_key_top]

omit [Alphabet β] [DecidableEq β] in
lemma extend_epoch_self : (σ.extend side fresh).epoch side = σ.top + 1 := Function.update_self ..

omit [Alphabet β] [DecidableEq β] in
lemma extend_epoch_peer : (σ.extend side fresh).epoch side.peer = σ.epoch side.peer :=
  Function.update_of_ne (Side.peer_ne side) _ _

omit [Alphabet β] [DecidableEq β] in
/-- A side that is one epoch behind may step to a key that is not in the schedule. -/
lemma WF.extend (hσ : σ.WF P) (hside : σ.epoch side + 1 = σ.top)
    (hfresh : ∀ i ≤ σ.top, P.x25519PublicBytes fresh ≠ σ.pub P i) :
    (σ.extend side fresh).WF P := by
  have hpeer : ∀ s, s = side ∨ s = side.peer := fun s => by
    by_cases h : s = side
    · exact Or.inl h
    · exact Or.inr (Side.eq_peer_of_ne h)
  have hpar := hσ.parity side
  refine ⟨hσ.length_k, fun s => ?_, fun s => ?_, fun s => ?_, ?_, hσ.count_zero, ?_⟩
  · rcases hpeer s with rfl | rfl
    · rw [extend_epoch_self]; omega
    · rw [extend_epoch_peer]; exact hσ.parity _
  · rcases hpeer s with rfl | rfl
    · rw [extend_epoch_self]; exact le_refl _
    · rw [extend_epoch_peer]; exact (hσ.le_top _).trans (Nat.le_succ _)
  · change σ.top + 1 ≤ _
    rcases hpeer s with rfl | rfl
    · rw [extend_epoch_self]; omega
    · -- the peer's epoch has the other parity, so it is the old top
      rw [extend_epoch_peer]
      have h1 := hσ.parity side.peer
      have h2 := hσ.top_le side.peer
      have h3 := Side.parity_peer side
      have h4 := Side.parity_lt side
      have h5 := Side.parity_lt side.peer
      have h6 := hσ.le_top side.peer
      omega
  · change ∀ i ≤ σ.top + 1, ∀ j ≤ σ.top + 1, _
    intro i hi j hj hij
    rcases Nat.lt_or_ge σ.top i with hi' | hi' <;> rcases Nat.lt_or_ge σ.top j with hj' | hj'
    · omega
    · obtain rfl : i = σ.top + 1 := by omega
      rw [extend_pub_top, extend_pub hj'] at hij
      exact absurd hij (hfresh j hj')
    · obtain rfl : j = σ.top + 1 := by omega
      rw [extend_pub hi', extend_pub_top] at hij
      exact absurd hij.symm (hfresh i hi')
    · rw [extend_pub hi', extend_pub hj'] at hij
      exact hσ.pub_inj i hi' j hj' hij
  · intro j hj
    have hj : σ.top + 1 < j := hj
    exact hσ.count_above j (by omega)

end Extend

section Bump

omit [Alphabet β] [DecidableEq β] in
lemma bump_count_self (j : ℕ) : (σ.bump j).count j = σ.count j + 1 := Function.update_self ..

omit [Alphabet β] [DecidableEq β] in
lemma bump_count_of_ne {i j : ℕ} (h : i ≠ j) : (σ.bump j).count i = σ.count i :=
  Function.update_of_ne h _ _

omit [Alphabet β] [DecidableEq β] in
/-- The counts of messages grow. -/
lemma count_le_bump (i j : ℕ) : σ.count i ≤ (σ.bump j).count i := by
  by_cases h : i = j
  · subst h; rw [bump_count_self]; exact Nat.le_succ _
  · rw [bump_count_of_ne h]

omit [DecidableEq β] in
/-- Sending changes no root key. -/
lemma bump_root (i j : ℕ) : (σ.bump j).root P i = σ.root P i := by
  induction i with
  | zero => rfl
  | succ i ih => rw [root, root, ih]; rfl

omit [DecidableEq β] in
/-- It changes no chain key. -/
lemma bump_chain (i j : ℕ) : (σ.bump j).chain P i = σ.chain P i := by
  cases i with
  | zero => rfl
  | succ i => rw [chain, chain, bump_root]; rfl

omit [DecidableEq β] in
/-- So it changes no message key. -/
lemma bump_msgKey (i j n : ℕ) : (σ.bump j).msgKey P i n = σ.msgKey P i n := by
  rw [msgKey, bump_chain]; rfl

omit [Alphabet β] [DecidableEq β] in
/-- Sending in an epoch that there is keeps a schedule well formed. -/
lemma WF.bump (hσ : σ.WF P) {j : ℕ} (hj : 1 ≤ j) (hj' : j ≤ σ.top) : (σ.bump j).WF P where
  length_k := hσ.length_k
  parity := hσ.parity
  le_top := hσ.le_top
  top_le := hσ.top_le
  pub_inj := hσ.pub_inj
  count_zero := by rw [bump_count_of_ne (by omega)]; exact hσ.count_zero
  count_above i hi := by
    have hi : σ.top < i := hi
    rw [bump_count_of_ne (by omega)]
    exact hσ.count_above i hi

end Bump

end Schedule

end Chatbit
