import Chatbit.Crypto.ForwardSecrecy

/-!
# Healing after a compromise

The complete state of one side leaks at some moment of a run, to an attacker that only listens. With
the leaked ratchet key the attacker follows the first DH step of that side, up to the root key of
the peer's chain. The next root key takes a DH output between the peer's key and one that the side
has generated since: every chain from there on is guarded by DH outputs of which the attacker has
neither private key.

The run after the leak is watched (`LeakedRun`): each DH step of the side leaves the state that
`_dh_ratchet` has made, with the two chains that it has created.
-/

namespace Chatbit

open Lib DoubleRatchet Schedule

variable {β X E : Type} [Alphabet β] [DecidableEq β] (P : Primitives β X E)

/-- The state that `_dh_ratchet` makes in a `decrypt` call that takes a DH step and returns. -/
def DoubleRatchet.dhStep (header : MessageHeader β) (ciphertext ad : Bytes β) (fresh : X)
    (st : DoubleRatchet β X) : Option (DoubleRatchet β X) :=
  match decrypt P header ciphertext ad fresh st with
  | (.error _, _) => none
  | (.ok _, _) =>
    if st.skipped.get? (header.ratchetPub, header.n) = none ∧
        st.dhrPub ≠ some header.ratchetPub then
      some (beginChain P header fresh st).2
    else none

/-- A run since the moment of a leak, and the DH steps that the leaked side has taken in it. -/
structure LeakedRun (β X : Type) where
  run : RatchetRun β X
  steps : List (DoubleRatchet β X) := []

namespace LeakedRun

variable (side : Side)

/-- The DH step that the side takes in an event. -/
def dhStep (w : LeakedRun β X) : RatchetEvent β X → Option (DoubleRatchet β X)
  | .encrypt _ _ _ => none
  | .deliver receiver header ciphertext ad fresh =>
    if receiver = side then DoubleRatchet.dhStep P header ciphertext ad fresh (w.run.ratchet side)
    else none

def step (w : LeakedRun β X) (event : RatchetEvent β X) : LeakedRun β X where
  run := w.run.step P event
  steps := w.steps ++ (w.dhStep P side event).toList

/-- The states that the run may reach after the leak in `s`. -/
def Since (s : RatchetRun β X) (w : LeakedRun β X) : Prop :=
  Reaches (fun w event => w.run.Admissible P event) (step P side) ⟨s, []⟩ w

end LeakedRun

variable {P}

/-! ## What a DH step makes -/

/-- A call that returns has taken a DH step or kept the ratchet key. -/
lemma DoubleRatchet.dhStep_of_ok {st st' : DoubleRatchet β X} {header : MessageHeader β}
    {ct ad pt : Bytes β} {fresh : X} (h : decrypt P header ct ad fresh st = (.ok pt, st')) :
    DoubleRatchet.dhStep P header ct ad fresh st = none ∧ st'.dhsPriv = st.dhsPriv ∨
      ∃ old, old.rk = st.rk ∧ old.dhsPriv = st.dhsPriv ∧
        DoubleRatchet.dhStep P header ct ad fresh st =
          some (stepped P header.ratchetPub fresh old) ∧
        st'.dhsPriv = fresh ∧ st'.dhrPub = some header.ratchetPub := by
  obtain ⟨mk, hd⟩ := decrypt_ok_iff.mp h
  have hpriv := hd.dhsPriv
  unfold DoubleRatchet.dhStep
  rw [h]
  generalize decryptEvicts P header ct ad fresh st = evicts at hd
  cases hd with
  | stored hget hopen =>
    left
    exact ⟨if_neg (by simp [hget]), rfl⟩
  | current hget hpub hskip hck hopen =>
    left
    rw [if_neg (by simp [hpub])] at hpriv
    exact ⟨if_neg (by simp [hpub]), hpriv⟩
  -- only a new chain takes the step; the two skips around it leave what it read
  | @newChain _ ck old mid popped popped' hget hpub hold hstep hskip hck hopen =>
    right
    rw [if_pos ⟨hget, hpub⟩] at hpriv
    have hbegin : beginChain P header fresh st =
        (.ok popped, stepped P header.ratchetPub fresh old) := by
      simp [beginChain, Method.bind_apply, Ne.symm hpub, hold, hstep]
    refine ⟨old, ?_, (frame_skipMessageKeys hold).2.2, ?_, hpriv, ?_⟩
    · rcases skipMessageKeys_ok hold with ⟨-, -, -, rfl⟩ | ⟨_, _, -, -, -, hs⟩
      · rfl
      · rw [hs.frame]
    · rw [if_pos ⟨hget, hpub⟩, hbegin]
    · show mid.dhrPub = _
      rcases skipMessageKeys_ok hskip with ⟨-, -, -, rfl⟩ | ⟨_, _, -, -, -, hs⟩
      · rfl
      · rw [hs.frame]
        rfl

variable {σ₀ σ : Schedule β X} {side : Side} {i : ℕ} {w : LeakedRun β X}

/-- The run follows a schedule that extends the one of the leak, and the steps since then have
created one chain after the other. -/
structure Healing (P : Primitives β X E) (σ₀ σ : Schedule β X) (side : Side) (i : ℕ)
    (w : LeakedRun β X) : Prop where
  run : RunOk P σ w.run
  extended : σ₀.Extends σ
  epoch : σ.epoch side = i + 2 * w.steps.length
  chains : ∀ m mid, w.steps[m]? = some mid →
    mid.ckr = some (σ.chain P (i + 2 * m + 1)) ∧ mid.cks = some (σ.chain P (i + 2 * m + 2))

omit [DecidableEq β] in
/-- The chains of the steps so far are those of every schedule that extends this one. -/
lemma Healing.chains_extended {σ' : Schedule β X} (h : Healing P σ₀ σ side i w)
    (hσ' : σ.Extends σ') : ∀ m mid, w.steps[m]? = some mid →
      mid.ckr = some (σ'.chain P (i + 2 * m + 1)) ∧
        mid.cks = some (σ'.chain P (i + 2 * m + 2)) := by
  intro m mid hmid
  obtain ⟨hm, -⟩ := List.getElem?_eq_some_iff.mp hmid
  have htop := h.run.wf.le_top side
  have hepoch := h.epoch
  rw [hσ'.chain (by omega), hσ'.chain (by omega)]
  exact h.chains m mid hmid

omit [DecidableEq β] in
/-- An event in which the side takes no step. -/
lemma Healing.stay {σ' : Schedule β X} {run : RatchetRun β X} (h : Healing P σ₀ σ side i w)
    (hσ' : σ.Extends σ') (hrun : RunOk P σ' run) (hepoch : σ'.epoch side = σ.epoch side) :
    Healing P σ₀ σ' side i ⟨run, w.steps ++ (none : Option (DoubleRatchet β X)).toList⟩ where
  run := hrun
  extended := h.extended.trans hσ'
  epoch := by
    show σ'.epoch side = i + 2 * (w.steps ++ []).length
    rw [List.append_nil, hepoch]
    exact h.epoch
  chains := by
    show ∀ m mid, (w.steps ++ [])[m]? = some mid → _
    rw [List.append_nil]
    exact h.chains_extended hσ'

section Step

variable (hP : P.Correct) (hH : P.HashIdeal) (hD : P.DhIdeal)
include hP hH hD

/-- An event on the leaked side: the schedule grows when the side takes a DH step. -/
lemma Healing.deliver (h : Healing P σ₀ σ side i w) {header : MessageHeader β}
    {ct ad : Bytes β} {fresh : X}
    (hadm : w.run.Admissible P (.deliver side header ct ad fresh)) :
    ∃ σ', Healing P σ₀ σ' side i (w.step P side (.deliver side header ct ad fresh)) := by
  obtain ⟨σ', hg, hrun⟩ := h.run.deliver hP hH hD hadm.1 hadm.2
  refine ⟨σ', ?_⟩
  have hold := (h.run.party side).dhsPriv
  have hnew := (hrun.party side).dhsPriv
  have hdhr := (hrun.party side).dhrPub
  have hstate : (w.run.afterDeliver P side header ct ad fresh).ratchet side =
      (decrypt P header ct ad fresh (w.run.ratchet side)).2 := Function.update_self ..
  rw [hstate] at hnew hdhr
  -- the old key has been handed out, the fresh one has not
  have hne : fresh ≠ σ.key (σ.epoch side) := by
    rintro rfl
    exact hadm.1 (h.run.minted _ (h.run.wf.le_top side))
  have hkeeps : ∀ st', (decrypt P header ct ad fresh (w.run.ratchet side)).2 = st' →
      st'.dhsPriv = (w.run.ratchet side).dhsPriv → σ' = σ := by
    rintro st' rfl hpriv
    rcases hg with hσ | ⟨-, rfl⟩
    · exact hσ
    · rw [extend_epoch_self, extend_key_top, hpriv, hold] at hnew
      exact absurd hnew.symm hne
  show Healing P σ₀ σ' side i ⟨w.run.afterDeliver P side header ct ad fresh,
    w.steps ++ (if side = side then
      DoubleRatchet.dhStep P header ct ad fresh (w.run.ratchet side) else none).toList⟩
  rw [if_pos rfl]
  rcases hdec : decrypt P header ct ad fresh (w.run.ratchet side) with ⟨err | pt, st'⟩
  · have hnone : DoubleRatchet.dhStep P header ct ad fresh (w.run.ratchet side) = none := by
      unfold DoubleRatchet.dhStep
      rw [hdec]
    obtain rfl := decrypt_error hdec
    obtain rfl := hkeeps _ (congrArg Prod.snd hdec) rfl
    rw [hnone]
    exact h.stay (.refl _) hrun rfl
  · rcases DoubleRatchet.dhStep_of_ok hdec with
      ⟨hnone, hpriv⟩ | ⟨old, hrk, hpriv, hsome, hfresh, hpub⟩
    · obtain rfl := hkeeps _ (congrArg Prod.snd hdec) hpriv
      rw [hnone]
      exact h.stay (.refl _) hrun rfl
    · rw [hsome]
      rw [hdec] at hnew hdhr
      rcases hg with rfl | ⟨htop, rfl⟩
      · rw [hfresh] at hnew
        exact absurd hnew hne
      -- the header names the key of the last epoch
      have hlast : header.ratchetPub = σ.pub P (σ.epoch side + 1) := by
        rw [hpub, extend_epoch_self, if_neg (by omega)] at hdhr
        have heq := Option.some.inj hdhr
        rwa [show σ.top + 1 - 1 = σ.epoch side + 1 by omega, extend_pub htop.le] at heq
      obtain ⟨-, hchains⟩ := stepped_keys hP side fresh htop
        (hrk.trans (h.run.party side).rk) (hpriv.trans hold)
      rw [← hlast] at hchains
      have hepoch := h.epoch
      refine ⟨hrun, h.extended.trans (.extend _ _), ?_, ?_⟩
      · rw [extend_epoch_self]
        show σ.top + 1 = i + 2 * (w.steps ++ [_]).length
        rw [List.length_append, List.length_singleton]
        omega
      · intro m mid hmid
        change (w.steps ++ [_])[m]? = some mid at hmid
        rcases Nat.lt_or_ge m w.steps.length with hlt | hge
        · rw [List.getElem?_append_left hlt] at hmid
          exact h.chains_extended (.extend _ _) m mid hmid
        · rw [List.getElem?_append_right hge] at hmid
          obtain ⟨hm, rfl⟩ := List.getElem?_eq_some_iff.mp hmid
          rw [List.length_singleton] at hm
          obtain rfl : m = w.steps.length := by omega
          rw [← hepoch]
          simpa only [Nat.sub_self, List.getElem_cons_zero] using hchains

/-- One step after the leak. -/
lemma Healing.step {event : RatchetEvent β X} (h : Healing P σ₀ σ side i w)
    (hadm : w.run.Admissible P event) : ∃ σ', Healing P σ₀ σ' side i (w.step P side event) := by
  cases event with
  | encrypt sender pt ad =>
    obtain ⟨σ', hσ', hrun⟩ := h.run.encrypt hP sender pt ad
    refine ⟨σ', h.stay ?_ hrun ?_⟩
    · rcases hσ' with rfl | rfl
      · exact .refl _
      · exact .bump _
    · rcases hσ' with rfl | rfl <;> rfl
  | deliver receiver header ct ad fresh =>
    by_cases hside : receiver = side
    · subst hside
      exact h.deliver hP hH hD hadm
    · obtain ⟨σ', hg, hrun⟩ := h.run.deliver hP hH hD hadm.1 hadm.2
      obtain rfl := Side.eq_peer_of_ne (Ne.symm hside)
      refine ⟨σ', ?_⟩
      have hstay := h.stay hg.extends hrun hg.epoch_peer
      show Healing P σ₀ σ' receiver.peer i
        ⟨_, w.steps ++ (if receiver = receiver.peer then _ else none).toList⟩
      rw [if_neg hside]
      exact hstay

/-- The run since the leak. -/
lemma RunOk.healing {s : RatchetRun β X} (h : RunOk P σ₀ s) (hw : LeakedRun.Since P side s w) :
    ∃ σ, Healing P σ₀ σ side (σ₀.epoch side) w := by
  refine hw.invariant (I := fun w => ∃ σ, Healing P σ₀ σ side (σ₀.epoch side) w)
    ⟨σ₀, h, .refl _, rfl, by simp⟩ ?_
  rintro u event ⟨σ, hu⟩ hadm
  exact hu.step hP hH hD hadm

end Step

/-! ## What the leak does not open -/

/-- The terms that fresh keys make after a leak at epoch `i`: the DH outputs from `i + 1` on and
what follows from them, up to the last epoch. -/
def Guards.after (i top : ℕ) : Guards where
  root m := i + 2 ≤ m ∧ m ≤ top
  dh m := i + 1 ≤ m ∧ m + 1 ≤ top
  chain j _ := i + 1 ≤ j ∧ j + 1 ≤ top
  msg j _ := i + 1 ≤ j ∧ j + 1 ≤ top

omit [Alphabet β] [DecidableEq β] in
/-- The attacker has no private key of the epochs after the leak. -/
lemma Guards.closed_after {privs : Set X}
    (hprivs : ∀ x ∈ privs, ∀ m, i + 1 ≤ m → m ≤ σ.top → P.x25519PublicBytes x ≠ σ.pub P m) :
    (Guards.after i σ.top).Closed P σ privs where
  root_succ _ hm := Or.inr ⟨Nat.le_of_succ_le_succ hm.1, hm.2⟩
  chain_zero _ hj := Or.inr hj
  chain_succ _ _ hj := hj
  msg _ _ hj := hj
  dh m hm x hx := ⟨hprivs x hx m hm.1 (Nat.le_of_succ_le hm.2),
    hprivs x hx (m + 1) (Nat.le_succ_of_le hm.1) hm.2⟩

omit [DecidableEq β] in
/-- What a state held, it holds of every schedule that extends its own. -/
lemma PartyOk.holds_extended {st : DoubleRatchet β X} (h : PartyOk P σ₀ i st) (hi : i ≤ σ₀.top)
    (hσ : σ₀.Extends σ) : Holds P σ i (fun j _ => j < i) (fun j _ => j < i) st where
  rk := by
    rw [hσ.root hi]
    exact h.rk
  cks ck hck := by
    obtain ⟨j, n, hj, rfl⟩ := h.holds.cks ck hck
    have hlt : j < i := by rcases hj with hj | hj <;> omega
    exact ⟨j, n, hlt, by rw [hσ.chain (by omega)]⟩
  ckr ck hck := by
    obtain ⟨j, n, hj, rfl⟩ := h.holds.ckr ck hck
    have hlt : j < i := by rcases hj with hj | hj <;> omega
    exact ⟨j, n, hlt, by rw [hσ.chain (by omega)]⟩
  skipped mk hmk := by
    obtain ⟨j, n, ⟨⟨-, hlt, -⟩, -⟩, rfl⟩ := h.holds.skipped mk hmk
    exact ⟨j, n, Nat.lt_of_succ_lt hlt, by rw [hσ.msgKey (by omega)]⟩

section Secrecy

variable (hP : P.Correct) (hH : P.HashIdeal) (hT : P.TermsIdeal)
include hP hH hT

omit [DecidableEq β] in
omit [DecidableEq β] in
/-- The leaked state does not open the chains after the next one. -/
lemma PartyOk.not_learns_later (hσ : σ.WF P) (hk : Independent P σ.k) {st : DoubleRatchet β X}
    (h : PartyOk P σ₀ i st) (hi : i ≤ σ₀.top) (hext : σ₀.Extends σ) {privs : Set X}
    (hprivs : ∀ x ∈ privs, ∀ m ≤ σ.top, P.x25519PublicBytes x ≠ σ.pub P m)
    {j : ℕ} (hj : i + 2 ≤ j) (hj' : j ≤ σ.top) (n : ℕ) :
    ¬ Learns P privs st (messageKey P (σ.chain P j) n) := by
  obtain ⟨j, rfl⟩ : ∃ j', j = j' + 1 := ⟨j - 1, by omega⟩
  have hclosed : (Guards.after i σ.top).Closed P σ (insert st.dhsPriv privs) := by
    apply Guards.closed_after
    intro x hx m hm hm'
    rcases hx with rfl | hx
    · -- the leaked key is that of epoch `i`
      intro heq
      have hpub : σ.pub P i = σ.pub P m := by
        rw [← heq, h.dhsPriv, ← hext.key i hi]
        rfl
      have := hσ.pub_inj i (hi.trans hext.top_le) m hm' hpub
      omega
    · exact hprivs x hx m hm'
  apply (h.holds_extended hi hext).not_learns hP hH hT hσ hk hclosed
  · rintro ⟨hroot, -⟩
    omega
  · rintro j' - hlt ⟨hle, -⟩
    omega
  · rintro j' - hlt ⟨hle, -⟩
    omega
  · exact .msg ⟨by omega, hj'⟩

end Secrecy

/-! ## A leak in a symbolic run -/

section SymbolicLeak

/-- The run goes on from where the leak happened. -/
lemma LeakedRun.Since.reaches {s : RatchetRun β X} (hw : LeakedRun.Since P side s w) :
    Reaches (RatchetRun.Admissible P) (RatchetRun.step P) s w.run :=
  hw.invariant (I := fun w => Reaches (RatchetRun.Admissible P) (RatchetRun.step P) s w.run)
    (Reaches.refl s) fun _ _ hu hadm => hu.tail hadm

/-- In a symbolic run any sealed message may be delivered. -/
lemma LeakedRun.Since.deliver {k : Bytes SymByte} {a r : ℕ} {s : RatchetRun SymByte ℕ}
    {w : LeakedRun SymByte ℕ} (hs : RatchetRun.Reachable symbolic k a r s)
    (hw : LeakedRun.Since symbolic side s w) {m : Sent SymByte} (hm : m ∈ w.run.sent)
    (receiver : Side) {fresh : ℕ} (hfresh : symbolic.x25519PublicBytes fresh ∉ w.run.minted) :
    LeakedRun.Since symbolic side s
      (w.step symbolic side (.deliver receiver m.header m.ciphertext m.ad fresh)) := by
  obtain ⟨σ, h⟩ :=
    (hs.trans hw.reaches).runOk symbolic_correct symbolic_hashIdeal symbolic_dhIdeal
  obtain ⟨j, hj⟩ := h.sent_at m hm
  exact Reaches.tail hw ⟨hfresh, Sent.authentic hm hj _ _ _ _⟩

/-- The responder's state leaks before it gets the greeting. -/
def leaked : LeakedRun SymByte ℕ := ⟨greeting, []⟩

/-- A side sends a message, which its peer gets. -/
def LeakedRun.exchange (w : LeakedRun SymByte ℕ) (sender : Side) (fresh : ℕ) :
    LeakedRun SymByte ℕ :=
  let w := w.step symbolic .responder (.encrypt sender (ascii "hi") (ascii "ad"))
  let m := w.run.sent.getLastD hello
  w.step symbolic .responder (.deliver sender.peer m.header m.ciphertext m.ad fresh)

/-- The responder gets the initiator's messages, sends one of its own and gets another one. -/
def healed : LeakedRun SymByte ℕ :=
  ((leaked.exchange .initiator 2).exchange .responder 3).exchange .initiator 4

lemma LeakedRun.Since.exchange {w : LeakedRun SymByte ℕ}
    (hw : LeakedRun.Since symbolic .responder greeting w) (sender : Side) (fresh : ℕ)
    (hfresh : symbolic.x25519PublicBytes fresh ∉ w.run.minted)
    (hm : let sent := (w.run.afterEncrypt symbolic sender (ascii "hi") (ascii "ad")).sent
      sent.getLastD hello ∈ sent) :
    LeakedRun.Since symbolic .responder greeting (w.exchange sender fresh) := by
  have hsend : LeakedRun.Since symbolic .responder greeting
      (w.step symbolic .responder (.encrypt sender (ascii "hi") (ascii "ad"))) :=
    Reaches.tail hw trivial
  exact hsend.deliver greeting_reachable hm sender.peer hfresh

lemma healed_since : LeakedRun.Since symbolic .responder greeting healed := by
  have h₁ := LeakedRun.Since.exchange (Reaches.refl leaked) .initiator 2
    (by decide +kernel) (by decide +kernel)
  have h₂ := h₁.exchange .responder 3 (by decide +kernel) (by decide +kernel)
  exact h₂.exchange .initiator 4 (by decide +kernel) (by decide +kernel)

end SymbolicLeak

/-! ## Results -/

/-- The complete state of a side leaks. No message key of a chain that the side creates in its
second DH step after that, or in a later one, is learned from the leaked state, in whatever way the
run goes on: the attacker's own keys are none that `keygen` has handed out in the run. -/
theorem RatchetRun.post_compromise_healing (hP : P.Correct) (hH : P.HashIdeal) (hD : P.DhIdeal)
    (hT : P.TermsIdeal) {k : Bytes β} {a r : X} {s : RatchetRun β X}
    (hs : RatchetRun.Reachable P k a r s) (hk : Independent P k) {side : Side}
    {w : LeakedRun β X} (hw : LeakedRun.Since P side s w) {privs : Set X}
    (hprivs : ∀ x ∈ privs, P.x25519PublicBytes x ∉ w.run.minted) {m : ℕ} (hm : 1 ≤ m)
    {mid : DoubleRatchet β X} (hmid : w.steps[m]? = some mid) {ck : Bytes β}
    (hck : mid.ckr = some ck ∨ mid.cks = some ck) (n : ℕ) :
    ¬ Learns P privs (s.ratchet side) (messageKey P ck n) := by
  obtain ⟨σ₀, rfl, h₀⟩ := hs.runOk_shared hP hH hD
  obtain ⟨σ, h⟩ := h₀.healing hP hH hD hw
  have hk' : Independent P σ.k := h.extended.k ▸ hk
  have hprivs' : ∀ x ∈ privs, ∀ j ≤ σ.top, P.x25519PublicBytes x ≠ σ.pub P j := by
    intro x hx j hj heq
    exact hprivs x hx (heq ▸ h.run.minted j hj)
  obtain ⟨hlt, -⟩ := List.getElem?_eq_some_iff.mp hmid
  have htop := h.run.wf.le_top side
  have hepoch := h.epoch
  have hlater := fun j => (h₀.party side).not_learns_later hP hH hT h.run.wf hk'
    (h₀.wf.le_top side) h.extended hprivs' (j := j)
  obtain ⟨hckr, hcks⟩ := h.chains m mid hmid
  rcases hck with hck | hck
  · obtain rfl := Option.some.inj (hckr.symm.trans hck)
    exact hlater _ (by omega) (by omega) n
  · obtain rfl := Option.some.inj (hcks.symm.trans hck)
    exact hlater _ (by omega) (by omega) n

/-- The responder has taken two steps since its state leaked, and its new sending chain is closed
to the attacker. -/
theorem RatchetRun.post_compromise_healing_healed :
    ∃ mid ck, healed.steps[1]? = some mid ∧ mid.cks = some ck ∧
      ∀ n, ¬ Learns symbolic {9} (greeting.ratchet .responder) (messageKey symbolic ck n) := by
  have hsteps : ((healed.steps[1]?).bind DoubleRatchet.cks).isSome := by decide +kernel
  obtain ⟨ck, hck⟩ := Option.isSome_iff_exists.mp hsteps
  obtain ⟨mid, hmid, hck⟩ := Option.bind_eq_some_iff.mp hck
  refine ⟨mid, ck, hmid, hck, ?_⟩
  intro n
  have hprivs : ∀ x ∈ ({9} : Set ℕ), symbolic.x25519PublicBytes x ∉ healed.run.minted := by
    rintro x rfl
    decide +kernel
  exact RatchetRun.post_compromise_healing symbolic_correct symbolic_hashIdeal symbolic_dhIdeal
    symbolic_termsIdeal greeting_reachable symbolic_independent healed_since hprivs (le_refl 1)
    hmid (Or.inr hck) n

end Chatbit
