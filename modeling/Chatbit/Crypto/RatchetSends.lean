import Chatbit.Crypto.RatchetParty

/-!
# Sending in a ratchet run

`RunOk` is the invariant of a run: both parties follow one schedule, everything that was sealed has
its place there, and every passed message has been accepted, is stored or was evicted. It holds at
the start, and encrypting moves one counter of the schedule.
-/

namespace Chatbit

open Lib DoubleRatchet Schedule

variable {β X E : Type} [Alphabet β] [DecidableEq β] {P : Primitives β X E}

/-- What a stored key is indexed by. -/
def MessageHeader.index (header : MessageHeader β) : Bytes β × ℕ := (header.ratchetPub, header.n)

/-- The genuine first delivery of a message to the peer of its sender. -/
def Sent.delivery (m : Sent β) : Accepted β :=
  ⟨m.side.peer, m.header, m.ad, m.ciphertext, m.plaintext⟩

/-- A sealed message has its place on a chain of its sender. -/
structure SentAt (P : Primitives β X E) (σ : Schedule β X) (m : Sent β) (j : ℕ) : Prop where
  one_le : 1 ≤ j
  le_epoch : j ≤ σ.epoch m.side
  parity : j % 2 = m.side.parity
  pub : m.header.ratchetPub = σ.pub P j
  n_lt : m.header.n < σ.count j
  pn : m.header.pn = σ.count (j - 2)
  msgKey : m.msgKey = σ.msgKey P j m.header.n
  sealed : ∃ encoded, m.header.encode = .ok encoded ∧
    m.ciphertext = P.chachaEncrypt (messageKeys P m.msgKey).1 (messageKeys P m.msgKey).2
      m.plaintext (m.ad ++ encoded)

/-- The invariant of a run. -/
structure RunOk (P : Primitives β X E) (σ : Schedule β X) (s : RatchetRun β X) : Prop where
  wf : σ.WF P
  party : ∀ side, PartyOk P σ (σ.epoch side) (s.ratchet side)
  sent_at : ∀ m ∈ s.sent, ∃ j, SentAt P σ m j
  sent_unique : ∀ m ∈ s.sent, ∀ m' ∈ s.sent, m.header.index = m'.header.index → m = m'
  accepted_sent : ∀ a ∈ s.accepted, ∃ m ∈ s.sent, a = m.delivery
  accepted_passed : ∀ a ∈ s.accepted,
    σ.Passed P (σ.epoch a.side) (s.ratchet a.side).nr a.header.index
  accepted_gone : ∀ a ∈ s.accepted, a.header.index ∉ (s.ratchet a.side).skipped.keys
  accepted_nodup : (s.accepted.map fun a => (a.side, a.header.index)).Nodup
  kept : ∀ side k, σ.Passed P (σ.epoch side) (s.ratchet side).nr k →
    k ∈ (s.ratchet side).skipped.keys ∨ k ∈ s.evicted side ∨
      ∃ a ∈ s.accepted, a.side = side ∧ a.header.index = k
  minted : ∀ i ≤ σ.top, σ.pub P i ∈ s.minted

/-! ## The start -/

/-- The schedule of the first two keys. -/
def Schedule.initial (k : Bytes β) (a r : X) : Schedule β X where
  k := k
  key i := if i = 0 then r else a
  count _ := 0
  epoch := Side.parity
  top := 1

lemma initSender_ok (hP : P.Correct) {k : Bytes β} {a r : X} {st : DoubleRatchet β X}
    (h : initSender P k (P.x25519PublicBytes r) a = .ok st) :
    k.length = 32 ∧ st =
      { dhsPriv := a, dhrPub := some (P.x25519PublicBytes r)
        rk := (kdfRk P k (P.exchange a (P.x25519PublicBytes r))).1
        cks := some (kdfRk P k (P.exchange a (P.x25519PublicBytes r))).2 } := by
  have hlen := hP.length_x25519Public r
  by_cases hk : k.length = 32
  · simp only [initSender, hk, hP.dh_public, loadX25519Public, hlen, bind, Except.bind, pure,
      Except.pure, ne_eq, not_true_eq_false, if_false, Except.ok.injEq] at h
    exact ⟨hk, h.symm⟩
  · simp [initSender, hk, bind, Except.bind, throw, throwThe, MonadExceptOf.throw] at h

omit [Alphabet β] [DecidableEq β] in
lemma initReceiver_ok {k : Bytes β} {r : X} {st : DoubleRatchet β X}
    (h : initReceiver k r = .ok st) :
    k.length = 32 ∧ st = { dhsPriv := r, dhrPub := none, rk := k } := by
  by_cases hk : k.length = 32
  · simp only [initReceiver, hk, ne_eq, not_true_eq_false, if_false, Except.ok.injEq] at h
    exact ⟨hk, h.symm⟩
  · simp [initReceiver, hk] at h

lemma RunOk.start (hP : P.Correct) {k : Bytes β} {a r : X} {st st' : DoubleRatchet β X}
    (hne : P.x25519PublicBytes a ≠ P.x25519PublicBytes r)
    (h : initSender P k (P.x25519PublicBytes r) a = .ok st) (h' : initReceiver k r = .ok st') :
    RunOk P (Schedule.initial k a r) (RatchetRun.start P a r st st') := by
  obtain ⟨hk, rfl⟩ := initSender_ok hP h
  obtain ⟨-, rfl⟩ := initReceiver_ok h'
  have hpub : ∀ i, (Schedule.initial k a r).pub P i =
      if i = 0 then P.x25519PublicBytes r else P.x25519PublicBytes a := fun i => by
    simp only [Schedule.pub, Schedule.initial]; split_ifs <;> rfl
  -- no chain has been left behind
  have hnone : ∀ side nr k',
      ¬ (Schedule.initial k a r).Passed P (side : Side).parity nr k' := by
    rintro side nr k' ⟨j, ⟨h1, h2, -⟩, -⟩
    have := Side.parity_lt side
    omega
  refine ⟨⟨hk, ?_, ?_, ?_, ?_, rfl, fun _ _ => rfl⟩, ?_, by simp [RatchetRun.start],
    by simp [RatchetRun.start], by simp [RatchetRun.start], by simp [RatchetRun.start],
    by simp [RatchetRun.start], by simp [RatchetRun.start],
    fun side k' hk' => absurd hk' (hnone side _ k'), ?_⟩
  · intro side; cases side <;> rfl
  · intro side; cases side <;> simp [Schedule.initial, Side.parity]
  · intro side; cases side <;> simp [Schedule.initial, Side.parity]
  · intro i hi j hj hij
    have hi : i ≤ 1 := hi
    have hj : j ≤ 1 := hj
    rw [hpub, hpub] at hij
    split_ifs at hij with h1 h2 h2
    · omega
    · exact absurd hij.symm hne
    · exact absurd hij hne
    · omega
  · intro side
    cases side with
    | initiator =>
      -- the initiator has taken the first DH step already
      have hdh : P.exchange r (P.x25519PublicBytes a) = P.exchange a (P.x25519PublicBytes r) :=
        hP.exchange_comm r a
      have hkdf : kdfRk P k (P.exchange a (P.x25519PublicBytes r)) =
          ((Schedule.initial k a r).root P 1, (Schedule.initial k a r).chain P 1) := by
        rw [← hdh]; rfl
      refine ⟨rfl, ?_, ?_, ?_, rfl, rfl, Nat.zero_le _, rfl, by simp [RatchetRun.start,
        OrderedDict.empty]⟩
      · simp only [RatchetRun.start, hkdf]; rfl
      · simp only [RatchetRun.start]; rfl
      · simp only [RatchetRun.start, hkdf]; rfl
    | responder =>
      exact ⟨rfl, rfl, rfl, rfl, rfl, rfl, Nat.zero_le _, rfl, by simp [RatchetRun.start,
        OrderedDict.empty]⟩
  · intro i hi
    rw [hpub]
    split_ifs <;> simp [RatchetRun.start]

/-! ## Encrypting -/

section Frame

variable {σ : Schedule β X} {st : DoubleRatchet β X} {i : ℕ} {side : Side} {fresh : X}

omit [Alphabet β] [DecidableEq β] in
/-- A message on chain `j₀` is not on a chain that a party of the other parity still sends. -/
lemma Schedule.bump_behind {j₀ nr j n : ℕ} (hj₀ : i ≤ j₀ + 1) :
    (σ.bump j₀).Behind i nr j n ↔ σ.Behind i nr j n := by
  simp only [Schedule.Behind]
  refine and_congr_right fun h1 => and_congr_right fun h2 => and_congr_right fun h3 => ?_
  by_cases hj : j + 1 = i
  · rw [if_pos hj, if_pos hj]
  · rw [if_neg hj, if_neg hj, bump_count_of_ne (by omega)]

omit [Alphabet β] [DecidableEq β] in
lemma Schedule.bump_passed {j₀ nr : ℕ} {k : Bytes β × ℕ} (hj₀ : i ≤ j₀ + 1) :
    (σ.bump j₀).Passed P i nr k ↔ σ.Passed P i nr k :=
  exists_congr fun _ => and_congr (bump_behind hj₀) Iff.rfl

omit [DecidableEq β] in
lemma PartyOk.skipped_bump {j₀ : ℕ} (h : PartyOk P σ i st) (hj₀ : i ≤ j₀ + 1) :
    ∀ e ∈ st.skipped.entries, ∃ j n, (σ.bump j₀).Behind i st.nr j n ∧
      e = (((σ.bump j₀).pub P j, n), (σ.bump j₀).msgKey P j n) := by
  intro e he
  obtain ⟨j, n, hj, rfl⟩ := h.skipped e he
  exact ⟨j, n, (bump_behind hj₀).mpr hj, by rw [bump_msgKey]; rfl⟩

omit [DecidableEq β] in
/-- The peer of the sender does not notice a message that is sent. -/
lemma PartyOk.bump_peer {j₀ : ℕ} (h : PartyOk P σ i st) (hj₀ : 1 ≤ j₀) (hi : i ≤ j₀ + 1)
    (hpar : i % 2 ≠ j₀ % 2) : PartyOk P (σ.bump j₀) i st where
  dhsPriv := h.dhsPriv
  rk := by rw [bump_root]; exact h.rk
  dhrPub := h.dhrPub
  cks := by rw [bump_chain, bump_count_of_ne (by omega)]; exact h.cks
  ckr := by rw [bump_chain]; exact h.ckr
  ns := by rw [bump_count_of_ne (by omega)]; exact h.ns
  nr_le := h.nr_le.trans (count_le_bump _ _)
  pn := by rw [bump_count_of_ne (by omega)]; exact h.pn
  skipped := h.skipped_bump hi

omit [DecidableEq β] in
/-- The sender is one message further on its chain. -/
lemma PartyOk.bump_self (h : PartyOk P σ i st) (hi : 1 ≤ i) {cks : Bytes β}
    (hcks : st.cks = some cks) : PartyOk P (σ.bump i) i (advanceSending P cks st) := by
  have hcks' : cks = chainKey P (σ.chain P i) (σ.count i) := by
    rw [h.cks, if_neg (by omega)] at hcks
    exact (Option.some.inj hcks).symm
  refine ⟨h.dhsPriv, ?_, h.dhrPub, ?_, ?_, ?_, ?_, ?_, h.skipped_bump (by omega)⟩
  · rw [bump_root]; exact h.rk
  · simp only [advanceSending]
    rw [if_neg (by omega), bump_chain, bump_count_self, chainKey_succ, ← hcks']
  · rw [bump_chain]; exact h.ckr
  · rw [bump_count_self]; exact congrArg (· + 1) h.ns
  · rw [bump_count_of_ne (by omega)]; exact h.nr_le
  · rw [bump_count_of_ne (by omega)]; exact h.pn

omit [DecidableEq β] in
/-- A message that was sent keeps its place when another one is. -/
lemma SentAt.bump {m : Sent β} {j j₀ : ℕ} (h : SentAt P σ m j) (hj₀ : 1 ≤ j₀)
    (hpar : j₀ % 2 ≠ m.side.parity ∨ σ.epoch m.side ≤ j₀) : SentAt P (σ.bump j₀) m j := by
  have h1 := h.one_le
  have h2 := h.le_epoch
  have h3 := h.parity
  have hne : j - 2 ≠ j₀ := by rcases hpar with hpar | hpar <;> omega
  exact ⟨h1, h2, h3, h.pub, h.n_lt.trans_le (count_le_bump _ _),
    by rw [bump_count_of_ne hne]; exact h.pn, by rw [bump_msgKey]; exact h.msgKey, h.sealed⟩

end Frame

variable {σ : Schedule β X} {s : RatchetRun β X}

omit [DecidableEq β] in
lemma PartyOk.one_le_of_cks {i : ℕ} {st : DoubleRatchet β X} (h : PartyOk P σ i st)
    {cks : Bytes β} (hcks : st.cks = some cks) : 1 ≤ i := by
  by_contra hi
  rw [h.cks, if_pos (by omega)] at hcks
  exact absurd hcks (by simp)

omit [DecidableEq β] in
/-- Everything of the invariant that does not speak of sealed messages survives an `encrypt`. -/
lemma RunOk.bump (h : RunOk P σ s) {side : Side} {cks : Bytes β}
    (hcks : (s.ratchet side).cks = some cks) :
    let σ' := σ.bump (σ.epoch side)
    σ'.WF P ∧ (∀ t, PartyOk P σ' (σ'.epoch t)
        (Function.update s.ratchet side (advanceSending P cks (s.ratchet side)) t)) ∧
      (∀ t nr k, σ'.Passed P (σ'.epoch t) nr k ↔ σ.Passed P (σ.epoch t) nr k) ∧
      ∀ m j, SentAt P σ m j → SentAt P σ' m j := by
  have h1 := (h.party side).one_le_of_cks hcks
  obtain ⟨hpar, hle, -⟩ := h.wf.epoch_peer side
  have hepoch : ∀ t, σ.epoch t ≤ σ.epoch side + 1 := fun t => by
    rcases Side.eq_or_eq_peer t side with rfl | rfl <;> omega
  refine ⟨h.wf.bump h1 (h.wf.le_top side), fun t => ?_, fun t nr k => bump_passed (hepoch t),
    fun m j hm => hm.bump h1 ?_⟩
  · rcases Side.eq_or_eq_peer t side with rfl | rfl
    · rw [Function.update_self]
      exact (h.party t).bump_self h1 hcks
    · rw [Function.update_of_ne (Side.peer_ne side)]
      exact (h.party side.peer).bump_peer h1 hle hpar
  · rcases Side.eq_or_eq_peer m.side side with hside | hside
    · exact Or.inr (by rw [hside])
    · refine Or.inl ?_
      rw [hside, h.wf.parity side]
      exact (Side.parity_peer side).symm

omit [DecidableEq β] in
/-- Encrypting keeps the invariant, and moves the counter of the sender's chain. -/
lemma RunOk.encrypt_of_some (hP : P.Correct) (h : RunOk P σ s) {side : Side} {cks : Bytes β}
    (hcks : (s.ratchet side).cks = some cks) (pt ad : Bytes β) :
    RunOk P (σ.bump (σ.epoch side)) (s.afterEncrypt P side pt ad) := by
  obtain ⟨hwf, hparty, hpassed, hsent⟩ := h.bump hcks
  have hsnd := encrypt_snd_of_some (P := P) hcks pt ad
  have hskipped : ∀ t,
      (Function.update s.ratchet side (advanceSending P cks (s.ratchet side)) t).skipped =
        (s.ratchet t).skipped ∧
      (Function.update s.ratchet side (advanceSending P cks (s.ratchet side)) t).nr =
        (s.ratchet t).nr := fun t => by
    by_cases ht : t = side
    · subst ht; rw [Function.update_self]; exact ⟨rfl, rfl⟩
    · rw [Function.update_of_ne ht]; exact ⟨rfl, rfl⟩
  -- what is left is the list of sealed messages, which grows by at most one
  have hrest : ∀ sent', (∀ m ∈ s.sent, m ∈ sent') →
      (∀ m ∈ sent', ∃ j, SentAt P (σ.bump (σ.epoch side)) m j) →
      (∀ m ∈ sent', ∀ m' ∈ sent', m.header.index = m'.header.index → m = m') →
      RunOk P (σ.bump (σ.epoch side)) { s with
        ratchet := Function.update s.ratchet side (advanceSending P cks (s.ratchet side))
        sent := sent' } := by
    intro sent' hsub hat huniq
    refine ⟨hwf, hparty, hat, huniq, fun a ha => ?_, fun a ha => ?_, fun a ha => ?_,
      h.accepted_nodup, fun t k hk => ?_, h.minted⟩
    · obtain ⟨m, hm, rfl⟩ := h.accepted_sent a ha
      exact ⟨m, hsub m hm, rfl⟩
    · rw [hpassed, (hskipped _).2]
      exact h.accepted_passed a ha
    · rw [(hskipped _).1]
      exact h.accepted_gone a ha
    · rw [hpassed, (hskipped _).2] at hk
      rw [(hskipped _).1]
      exact h.kept t k hk
  rcases henc : DoubleRatchet.encrypt P pt ad (s.ratchet side) with ⟨e | ⟨header, ct⟩, st'⟩
  · rw [henc] at hsnd
    obtain rfl : st' = _ := hsnd
    rw [RatchetRun.afterEncrypt, henc]
    exact hrest s.sent (fun _ hm => hm) (fun m hm => (h.sent_at m hm).imp fun j => hsent m j)
      h.sent_unique
  · obtain ⟨cks', encoded, hcks', rfl, hencode, rfl, rfl⟩ := (encrypt_ok_iff hP).mp henc
    obtain rfl := Option.some.inj (hcks.symm.trans hcks')
    rw [RatchetRun.afterEncrypt, henc]
    have hp := h.party side
    have h1 := hp.one_le_of_cks hcks
    have hcks'' : cks = chainKey P (σ.chain P (σ.epoch side)) (σ.count (σ.epoch side)) := by
      rw [hp.cks, if_neg (by omega)] at hcks
      exact (Option.some.inj hcks).symm
    have hsealing : (s.ratchet side).sealingKey P = (kdfCk P cks).2 := by rw [sealingKey, hcks]
    have hn : (nextHeader P (s.ratchet side)).n = σ.count (σ.epoch side) := hp.ns
    have hpub : (nextHeader P (s.ratchet side)).ratchetPub = σ.pub P (σ.epoch side) :=
      congrArg P.x25519PublicBytes hp.dhsPriv
    -- no message so far has the number that is used now
    have hnew : ∀ m ∈ s.sent, m.header.index ≠ (nextHeader P (s.ratchet side)).index := by
      intro m hm heq
      obtain ⟨j, hj⟩ := h.sent_at m hm
      obtain ⟨hpub', hn'⟩ := Prod.mk.inj heq
      have hjn := hj.n_lt
      have := h.wf.pub_inj j (hj.le_epoch.trans (h.wf.le_top _)) _ (h.wf.le_top side)
        (by rw [← hj.pub, hpub', hpub])
      rw [hn', hn, this] at hjn
      omega
    refine hrest _ (fun m hm => List.mem_append_left _ hm) (fun m hm => ?_) ?_
    · rcases List.mem_append.mp hm with hm | hm
      · exact (h.sent_at m hm).imp fun j => hsent m j
      · obtain rfl := List.mem_singleton.mp hm
        refine ⟨σ.epoch side, h1, le_refl _, h.wf.parity side, hpub, ?_, ?_, ?_, encoded, hencode,
          ?_⟩
        · rw [hn, bump_count_self]; exact Nat.lt_succ_self _
        · rw [bump_count_of_ne (by omega)]; exact hp.pn
        · rw [bump_msgKey, hn, hsealing, hcks'']; rfl
        · rw [hsealing]
    · intro m hm m' hm' heq
      rcases List.mem_append.mp hm with hm | hm <;> rcases List.mem_append.mp hm' with hm' | hm'
      · exact h.sent_unique m hm m' hm' heq
      · obtain rfl := List.mem_singleton.mp hm'
        exact absurd heq (hnew m hm)
      · obtain rfl := List.mem_singleton.mp hm
        exact absurd heq.symm (hnew m' hm')
      · exact (List.mem_singleton.mp hm).trans (List.mem_singleton.mp hm').symm

omit [DecidableEq β] in
lemma RatchetRun.ratchet_afterEncrypt (s : RatchetRun β X) (side : Side) (pt ad : Bytes β) :
    (s.afterEncrypt P side pt ad).ratchet =
      Function.update s.ratchet side (DoubleRatchet.encrypt P pt ad (s.ratchet side)).2 := rfl

omit [DecidableEq β] in
/-- Without a sending chain nothing changes. -/
lemma RunOk.encrypt (hP : P.Correct) (h : RunOk P σ s) (side : Side) (pt ad : Bytes β) :
    ∃ σ', (σ' = σ ∨ σ' = σ.bump (σ.epoch side)) ∧ RunOk P σ' (s.afterEncrypt P side pt ad) := by
  rcases hcks : (s.ratchet side).cks with _ | cks
  · refine ⟨σ, Or.inl rfl, ?_⟩
    rw [RatchetRun.afterEncrypt, encrypt_of_none hcks]
    simpa only [Function.update_eq_self] using h
  · exact ⟨_, Or.inr rfl, h.encrypt_of_some hP hcks pt ad⟩

omit [DecidableEq β] in
/-- The next message of a side has not been passed by its peer. -/
lemma RunOk.next_not_passed (h : RunOk P σ s) {side : Side} {cks : Bytes β}
    (hcks : (s.ratchet side).cks = some cks) :
    ¬ σ.Passed P (σ.epoch side.peer) (s.ratchet side.peer).nr
      (nextHeader P (s.ratchet side)).index := by
  have hp := h.party side
  have hpeer := h.party side.peer
  have h1 := hp.one_le_of_cks hcks
  have htop := h.wf.le_top side
  have htop' := h.wf.le_top side.peer
  obtain ⟨-, hle, -⟩ := h.wf.epoch_peer side
  rintro ⟨j, ⟨-, hj, -, hn⟩, hpub⟩
  have hkey : (nextHeader P (s.ratchet side)).index.1 = σ.pub P (σ.epoch side) :=
    congrArg P.x25519PublicBytes hp.dhsPriv
  obtain rfl : σ.epoch side = j := h.wf.pub_inj _ htop j (by omega) (hkey.symm.trans hpub)
  have hcount : (nextHeader P (s.ratchet side)).index.2 = σ.count (σ.epoch side) := hp.ns
  have hnr := hpeer.nr_le
  rw [hcount, if_pos (by omega)] at hn
  rw [show σ.epoch side.peer - 1 = σ.epoch side by omega] at hnr
  omega

end Chatbit
