import Chatbit.Crypto.RatchetSends

/-!
# Delivering in a ratchet run

An accepted delivery moves one party along the schedule (`decrypts_advance`), and a rejected one
changes nothing. A run thus keeps `RunOk`, in a schedule that only grows.
-/

namespace Chatbit

open Lib DoubleRatchet Schedule

variable {β X E : Type} [Alphabet β] [DecidableEq β] {P : Primitives β X E}

variable {σ : Schedule β X} {s : RatchetRun β X}

/-! ## Delivering -/

/-- The schedule grows by one key or not at all. -/
def Schedule.Grown (σ σ' : Schedule β X) (side : Side) (fresh : X) : Prop :=
  σ' = σ ∨ σ.epoch side + 1 = σ.top ∧ σ' = σ.extend side fresh

section Grown

variable {σ' : Schedule β X} {side : Side} {fresh : X}

omit [Alphabet β] [DecidableEq β] in
lemma Schedule.extend_passed {i nr : ℕ} (hi : i ≤ σ.top) {k : Bytes β × ℕ} :
    (σ.extend side fresh).Passed P i nr k ↔ σ.Passed P i nr k := by
  refine exists_congr fun j => and_congr_right fun hj => ?_
  rw [extend_pub (by obtain ⟨-, h2, -⟩ := hj; omega)]

omit [DecidableEq β] in
lemma PartyOk.extend {i : ℕ} {st : DoubleRatchet β X} (h : PartyOk P σ i st) (hi : i ≤ σ.top) :
    PartyOk P (σ.extend side fresh) i st where
  dhsPriv := by rw [extend_key hi]; exact h.dhsPriv
  rk := by rw [extend_root hi]; exact h.rk
  dhrPub := by rw [extend_pub (by omega)]; exact h.dhrPub
  cks := by rw [extend_chain hi]; exact h.cks
  ckr := by rw [extend_chain (by omega)]; exact h.ckr
  ns := h.ns
  nr_le := h.nr_le
  pn := h.pn
  skipped e he := by
    obtain ⟨j, n, hj, rfl⟩ := h.skipped e he
    have hj' : j ≤ σ.top := by obtain ⟨-, h2, -⟩ := hj; omega
    exact ⟨j, n, hj, by rw [extend_pub hj', extend_msgKey hj']⟩

omit [Alphabet β] [DecidableEq β] in
lemma Schedule.Grown.extends (hg : σ.Grown σ' side fresh) : σ.Extends σ' := by
  rcases hg with rfl | ⟨-, rfl⟩
  · exact .refl _
  · exact .extend _ _

omit [Alphabet β] [DecidableEq β] in
lemma Schedule.Grown.wf (hg : σ.Grown σ' side fresh) (hσ : σ.WF P)
    (hfresh : ∀ i ≤ σ.top, P.x25519PublicBytes fresh ≠ σ.pub P i) : σ'.WF P := by
  rcases hg with rfl | ⟨htop, rfl⟩
  · exact hσ
  · exact hσ.extend htop hfresh

omit [Alphabet β] [DecidableEq β] in
lemma Schedule.Grown.epoch_peer (hg : σ.Grown σ' side fresh) :
    σ'.epoch side.peer = σ.epoch side.peer := by
  rcases hg with rfl | ⟨-, rfl⟩
  · rfl
  · exact extend_epoch_peer

omit [DecidableEq β] in
lemma Schedule.Grown.party (hg : σ.Grown σ' side fresh) {i : ℕ} (hi : i ≤ σ.top)
    {st : DoubleRatchet β X} (h : PartyOk P σ i st) : PartyOk P σ' i st := by
  rcases hg with rfl | ⟨-, rfl⟩
  · exact h
  · exact h.extend hi

omit [Alphabet β] [DecidableEq β] in
lemma Schedule.Grown.passed (hg : σ.Grown σ' side fresh) {i nr : ℕ} (hi : i ≤ σ.top)
    {k : Bytes β × ℕ} : σ'.Passed P i nr k ↔ σ.Passed P i nr k := by
  rcases hg with rfl | ⟨-, rfl⟩
  · rfl
  · exact extend_passed hi

omit [DecidableEq β] in
lemma Schedule.Grown.sentAt (hg : σ.Grown σ' side fresh) (hσ : σ.WF P) {m : Sent β} {j : ℕ}
    (h : SentAt P σ m j) : SentAt P σ' m j := by
  rcases hg with rfl | ⟨-, rfl⟩
  · exact h
  have hj : j ≤ σ.top := h.le_epoch.trans (hσ.le_top _)
  refine ⟨h.one_le, ?_, h.parity, by rw [extend_pub hj]; exact h.pub, h.n_lt, h.pn,
    by rw [extend_msgKey hj]; exact h.msgKey, h.sealed⟩
  rcases Side.eq_or_eq_peer m.side side with hside | hside
  · rw [hside, extend_epoch_self]; omega
  · have := h.le_epoch
    rw [hside] at this ⊢
    rwa [extend_epoch_peer]

omit [Alphabet β] [DecidableEq β] in
lemma Schedule.Grown.minted (hg : σ.Grown σ' side fresh) {minted : List (Bytes β)}
    (h : ∀ i ≤ σ.top, σ.pub P i ∈ minted) :
    ∀ i ≤ σ'.top, σ'.pub P i ∈ P.x25519PublicBytes fresh :: minted := by
  rcases hg with rfl | ⟨-, rfl⟩
  · exact fun i hi => List.mem_cons_of_mem _ (h i hi)
  · intro i hi
    rcases Nat.lt_or_ge σ.top i with hlt | hge
    · obtain rfl : i = σ.top + 1 := le_antisymm hi hlt
      rw [extend_pub_top]
      exact List.mem_cons_self
    · rw [extend_pub hge]
      exact List.mem_cons_of_mem _ (h i hge)

end Grown

/-- `attemptKey` is the key that a `decrypt` call uses when it returns. -/
lemma attemptKey_of_decrypts {st st' : DoubleRatchet β X} {header : MessageHeader β}
    {ct ad mk pt : Bytes β} {fresh : X} {popped : List (Bytes β × ℕ)}
    (h : Decrypts P st header ct ad fresh mk pt st' popped) :
    attemptKey P header fresh st = some mk := by
  cases h with
  | stored hget _ => simp [attemptKey, hget]
  | current hget hpub hskip hck _ =>
    simp [attemptKey, hget, beginChain, Method.bind_apply, hpub, hskip, hck]
  | newChain hget hpub hold hstep hskip hck _ =>
    simp [attemptKey, hget, beginChain, Method.bind_apply, Ne.symm hpub, hold, hstep, hskip, hck]

/-- The key that `decrypt` opens the ciphertext under. -/
lemma DoubleRatchet.Decrypts.opens {st st' : DoubleRatchet β X} {header : MessageHeader β}
    {ct ad mk pt : Bytes β} {fresh : X} {popped : List (Bytes β × ℕ)}
    (h : Decrypts P st header ct ad fresh mk pt st' popped) :
    DoubleRatchet.openWith P mk header ct ad = .ok pt := by
  cases h <;> assumption

/-- The receiving chain after skipping to message `n`, and the message key found there. -/
lemma skipMessageKeys_ckr {st mid : DoubleRatchet β X} {n nr : ℕ} {ck ck₀ : Bytes β}
    {popped : List (Bytes β × ℕ)} (hskip : skipMessageKeys P n st = (.ok popped, mid))
    (hckr : st.ckr = some (chainKey P ck₀ nr)) (hnr : st.nr = nr) (hck : mid.ckr = some ck) :
    (kdfCk P ck).2 = messageKey P ck₀ (max nr n) := by
  rcases skipMessageKeys_ok hskip with ⟨hnone, -⟩ | ⟨ck', dhrPub, hckr', -, -, hs⟩
  · rw [hckr] at hnone; exact absurd hnone (by simp)
  · obtain rfl := Option.some.inj (hckr.symm.trans hckr')
    rw [hs.frame, Option.some.injEq] at hck
    rw [← hck, show max nr n = nr + (n - st.nr) by omega, messageKey_add]; rfl

section Deliver

variable (hP : P.Correct) (hH : P.HashIdeal) (hD : P.DhIdeal)
include hP hH hD

omit hH hD in
/-- The header of a message that opens carries a public key of the right size. -/
lemma RunOk.length_ratchetPub (h : RunOk P σ s) {side : Side} {st' : DoubleRatchet β X}
    {header : MessageHeader β} {ct ad mk pt : Bytes β} {fresh : X} {popped : List (Bytes β × ℕ)}
    (hd : Decrypts P (s.ratchet side) header ct ad fresh mk pt st' popped) :
    header.ratchetPub.length = 32 := by
  cases hd with
  | stored hget _ =>
    obtain ⟨j, n, -, heq⟩ := (h.party side).skipped _ (OrderedDict.get?_eq_some_iff.mp hget)
    rw [(Prod.mk.inj (Prod.mk.inj heq).1).1]
    exact length_pub hP j
  | current _ hpub _ _ _ =>
    rw [(h.party side).dhrPub] at hpub
    split_ifs at hpub
    rw [← Option.some.inj hpub]
    exact length_pub hP _
  | newChain _ _ _ hstep _ _ _ => exact (dhRatchet_ok_iff.mp hstep).1

omit hD in
/-- A delivery that opens is the delivery of a message of the run. -/
lemma RunOk.sent_of_decrypts (h : RunOk P σ s) {side : Side} {st' : DoubleRatchet β X}
    {header : MessageHeader β} {ct ad mk pt : Bytes β} {fresh : X} {popped : List (Bytes β × ℕ)}
    (hauth : s.Authentic P side header ct ad fresh)
    (hd : Decrypts P (s.ratchet side) header ct ad fresh mk pt st' popped) :
    ∃ m ∈ s.sent, m.msgKey = mk ∧ m.header = header ∧ m.ad = ad ∧ m.plaintext = pt ∧
      m.ciphertext = ct := by
  obtain ⟨encoded, henc, hopen⟩ := (openWith_ok_iff hP).mp hd.opens
  obtain ⟨m, hm, hkeys, ⟨encoded', henc', had⟩, hpt, hct⟩ :=
    hauth mk encoded pt (attemptKey_of_decrypts hd) henc hopen
  obtain ⟨j, hj⟩ := h.sent_at m hm
  have hmk : m.msgKey = mk := messageKeys_fst_inj hP hH (congrArg Prod.fst hkeys)
  obtain ⟨rfl, rfl⟩ := MessageHeader.encode_append_inj henc henc' (h.length_ratchetPub hP hd)
    (by rw [hj.pub]; exact length_pub hP j) had
  exact ⟨m, hm, hmk, rfl, rfl, hpt, hct⟩

/-- A delivery that is accepted is a first delivery, from the peer, and moves the receiver along
the schedule. -/
lemma RunOk.decrypts_advance (h : RunOk P σ s) {side : Side} {st' : DoubleRatchet β X}
    {header : MessageHeader β} {ct ad mk pt : Bytes β} {fresh : X} {popped : List (Bytes β × ℕ)}
    (hfresh : P.x25519PublicBytes fresh ∉ s.minted)
    (hauth : s.Authentic P side header ct ad fresh)
    (hd : Decrypts P (s.ratchet side) header ct ad fresh mk pt st' popped) :
    (∃ m ∈ s.sent, m.delivery = ⟨side, header, ad, ct, pt⟩) ∧
      ∃ σ', σ.Grown σ' side fresh ∧
        Advance P σ (σ.epoch side) (s.ratchet side) σ' (σ'.epoch side) st' popped header.index := by
  obtain ⟨m, hm, hmk, rfl, rfl, rfl, rfl⟩ := h.sent_of_decrypts hP hH hauth hd
  obtain ⟨j, hj⟩ := h.sent_at m hm
  have hjtop : j ≤ σ.top := hj.le_epoch.trans (h.wf.le_top _)
  have htop := h.wf.le_top side
  have hpar := h.wf.parity side
  have hp := h.party side
  have hjpub := hj.pub
  have hmk' : mk = σ.msgKey P j m.header.n := hmk.symm.trans hj.msgKey
  -- a chain of the other parity was sent by the peer
  have hfrom : j % 2 ≠ σ.epoch side % 2 →
      ∃ m' ∈ s.sent, m'.delivery = ⟨side, m.header, m.ad, m.ciphertext, m.plaintext⟩ := by
    intro hne
    have hside : m.side ≠ side := fun heq => hne (by rw [hj.parity, heq, hpar])
    exact ⟨m, hm, by rw [Sent.delivery, Side.eq_peer_of_ne hside, Side.peer_peer]⟩
  cases hd with
  | stored hget _ =>
    rw [hjpub] at hget
    obtain ⟨⟨-, -, hne, -⟩, -⟩ := hp.stored h.wf htop hjtop hget
    refine ⟨hfrom hne, σ, Or.inl rfl, hp.useStored ?_⟩
    exact OrderedDict.mem_keys_of_get? (hjpub ▸ hget)
  | @current _ ck mid _ _ hpub hskip hck _ =>
    have hpub' := hp.dhrPub
    rw [hpub] at hpub'
    split_ifs at hpub' with h0
    -- the header names the current chain
    have hj1 : j = σ.epoch side - 1 :=
      h.wf.pub_inj j hjtop _ (by omega) (hjpub.symm.trans (Option.some.inj hpub'))
    have hj0 := hj.one_le
    have hckr := hp.ckr
    rw [if_neg (by omega), ← hj1] at hckr
    -- its position is not before the counter, since the key found there is its own
    have hn : m.header.n = max (s.ratchet side).nr m.header.n :=
      (msgKey_inj hP hH hD h.wf hj0 hjtop hj0 hjtop
        (hmk'.symm.trans (skipMessageKeys_ckr hskip hckr rfl hck))).2
    have hlt := hj.n_lt
    rw [hj1] at hlt
    obtain ⟨hmoves, hnr⟩ := hp.skip h.wf htop hlt.le hskip
    have hnr : mid.nr = m.header.n := by omega
    have hidx : m.header.index = (σ.pub P (σ.epoch side - 1), mid.nr) := by
      rw [hnr, MessageHeader.index, hjpub, hj1]
    refine ⟨hfrom (by omega), σ, Or.inl rfl, ?_⟩
    rw [hidx]
    exact hmoves.advance (hmoves.party.receive h.wf htop (by omega) hck (by omega))
      (not_passed_of_le h.wf htop rfl (le_refl _))
  | @newChain _ ck old mid popped popped' _ _ hold hstep hskip hck _ =>
    obtain ⟨hlen, -, -, -⟩ := dhRatchet_ok_iff.mp hstep
    have hckr : (stepped P m.header.ratchetPub fresh old).ckr = some (chainKey P
        (kdfRk P old.rk (P.exchange old.dhsPriv m.header.ratchetPub)).2 0) := rfl
    have hkey := skipMessageKeys_ckr hskip hckr rfl hck
    have hrk : old.rk = (s.ratchet side).rk ∧ old.dhsPriv = (s.ratchet side).dhsPriv := by
      rcases skipMessageKeys_ok hold with ⟨-, -, -, rfl⟩ | ⟨_, _, -, -, -, hs⟩
      · exact ⟨rfl, rfl⟩
      · rw [hs.frame]; exact ⟨rfl, rfl⟩
    -- the chain that the step reaches is the next one
    rw [hrk.1, hrk.2, hp.rk, hp.dhsPriv, hjpub, Nat.zero_max, hmk'] at hkey
    obtain ⟨hj1, -⟩ := step_reaches_next hP hH hD h.wf htop hj.one_le hjtop hkey.symm
    have htop' : σ.epoch side + 1 = σ.top := by have := h.wf.top_le side; omega
    have hpn : m.header.pn = σ.count (σ.epoch side - 1) := by
      rw [hj.pn, hj1]; rfl
    obtain ⟨hmoves, hnr⟩ := hp.skip h.wf htop hpn.le hold
    have hnr : old.nr = σ.count (σ.epoch side - 1) := by have := hp.nr_le; omega
    rw [hjpub, hj1] at hskip
    have hstepped := hmoves.party.step hP h.wf htop' hnr side fresh
    have hwf' : (σ.extend side fresh).WF P :=
      h.wf.extend htop' fun i hi heq => hfresh (heq ▸ h.minted i hi)
    have hepoch : (σ.extend side fresh).epoch side = σ.epoch side + 2 := by
      rw [extend_epoch_self]; omega
    have hpub' : (σ.extend side fresh).pub P (σ.epoch side + 1) = σ.pub P (σ.epoch side + 1) :=
      extend_pub (by omega)
    have hlt : m.header.n < (σ.extend side fresh).count (σ.epoch side + 2 - 1) := by
      have := hj.n_lt
      rwa [hj1] at this
    have hle : σ.epoch side + 2 ≤ (σ.extend side fresh).top := hepoch ▸ hwf'.le_top side
    obtain ⟨hskipped, hnr'⟩ := hstepped.party.skip hwf' hle hlt.le hskip
    have hnr' : mid.nr = m.header.n := hnr'.trans (Nat.zero_max _)
    have hidx : m.header.index =
        ((σ.extend side fresh).pub P (σ.epoch side + 2 - 1), mid.nr) := by
      rw [hnr', MessageHeader.index, hjpub, hj1]
      exact Prod.ext hpub'.symm rfl
    refine ⟨hfrom (by omega), σ.extend side fresh, Or.inr ⟨htop', rfl⟩, ?_⟩
    rw [hidx, hepoch]
    have hmove := (hmoves.trans hstepped).trans hskipped
    rw [List.append_nil] at hmove
    exact hmove.advance (hskipped.party.receive hwf' hle (by omega) hck (by omega))
      (not_passed_of_le hwf' hle rfl (le_refl _))

/-- An accepted delivery keeps the invariant. -/
lemma RunOk.accept (h : RunOk P σ s) {side : Side} {st' : DoubleRatchet β X}
    {header : MessageHeader β} {ct ad mk pt : Bytes β} {fresh : X} {popped : List (Bytes β × ℕ)}
    (hfresh : P.x25519PublicBytes fresh ∉ s.minted)
    (hauth : s.Authentic P side header ct ad fresh)
    (hd : Decrypts P (s.ratchet side) header ct ad fresh mk pt st' popped) :
    ∃ σ', σ.Grown σ' side fresh ∧ RunOk P σ' { s with
      ratchet := Function.update s.ratchet side st'
      accepted := s.accepted ++ [⟨side, header, ad, ct, pt⟩]
      evicted := Function.update s.evicted side (s.evicted side ++ popped)
      minted := P.x25519PublicBytes fresh :: s.minted } := by
  obtain ⟨hsent, σ', hg, hadv⟩ := h.decrypts_advance hP hH hD hfresh hauth hd
  have hself : Function.update s.ratchet side st' side = st' := Function.update_self ..
  have hpeer : Function.update s.ratchet side st' side.peer = s.ratchet side.peer :=
    Function.update_of_ne (Side.peer_ne side) _ _
  have hepoch := hg.epoch_peer
  have htop := h.wf.le_top side.peer
  -- an accepted message of the same side is passed, so it is not the one accepted now
  have hold : ∀ a ∈ s.accepted, a.side = side → a.header.index ≠ header.index := by
    rintro a ha rfl heq
    exact h.accepted_gone a ha (heq ▸ hadv.first (heq ▸ h.accepted_passed a ha))
  refine ⟨σ', hg, hg.wf h.wf fun i hi heq => hfresh (heq ▸ h.minted i hi), fun t => ?_,
    fun m hm => (h.sent_at m hm).imp fun j => hg.sentAt h.wf, h.sent_unique, fun a ha => ?_,
    fun a ha => ?_, fun a ha => ?_, ?_, fun t k hk => ?_, hg.minted h.minted⟩
  · rcases Side.eq_or_eq_peer t side with rfl | rfl
    · simp only [hself]
      exact hadv.party
    · simp only [hpeer, hepoch]
      exact hg.party htop (h.party _)
  · rcases List.mem_append.mp ha with ha | ha
    · exact h.accepted_sent a ha
    · obtain rfl := List.mem_singleton.mp ha
      exact hsent.imp fun m hm => ⟨hm.1, hm.2.symm⟩
  · rcases List.mem_append.mp ha with ha | ha
    · have hp := h.accepted_passed a ha
      rcases Side.eq_or_eq_peer a.side side with heq | heq
      · rw [heq] at hp ⊢
        simp only [hself]
        exact hadv.mono _ hp
      · rw [heq] at hp ⊢
        simp only [hpeer, hepoch]
        exact (hg.passed htop).mpr hp
    · obtain rfl := List.mem_singleton.mp ha
      simp only [hself]
      exact hadv.passed
  · rcases List.mem_append.mp ha with ha | ha
    · have hgone := h.accepted_gone a ha
      have hp := h.accepted_passed a ha
      rcases Side.eq_or_eq_peer a.side side with heq | heq
      · rw [heq] at hp hgone ⊢
        simp only [hself]
        exact fun hmem => hgone (hadv.old _ hp hmem)
      · rw [heq] at hgone ⊢
        simpa only [hpeer] using hgone
    · obtain rfl := List.mem_singleton.mp ha
      simp only [hself]
      exact hadv.gone
  · rw [List.map_append, List.nodup_append]
    refine ⟨h.accepted_nodup, List.nodup_singleton _, fun x hx y hy hxy => ?_⟩
    obtain ⟨a, ha, rfl⟩ := List.mem_map.mp hx
    obtain rfl := List.mem_singleton.mp hy
    obtain ⟨hside, hidx⟩ := Prod.mk.inj hxy
    exact hold a ha hside hidx
  · rcases Side.eq_or_eq_peer t side with rfl | rfl
    · simp only [hself] at hk ⊢
      rw [Function.update_self]
      rcases hadv.kept k hk with rfl | hin | hpop | ⟨hk', hnot⟩
      · exact Or.inr (Or.inr ⟨_, List.mem_append_right _ (List.mem_singleton_self _), rfl, rfl⟩)
      · exact Or.inl hin
      · exact Or.inr (Or.inl (List.mem_append_right _ hpop))
      · rcases h.kept t k hk' with hin | hev | ⟨a, ha, haccepted⟩
        · exact absurd hin hnot
        · exact Or.inr (Or.inl (List.mem_append_left _ hev))
        · exact Or.inr (Or.inr ⟨a, List.mem_append_left _ ha, haccepted⟩)
    · simp only [hpeer, hepoch] at hk ⊢
      rw [Function.update_of_ne (Side.peer_ne side)]
      rcases h.kept side.peer k ((hg.passed htop).mp hk) with hin | hev | ⟨a, ha, haccepted⟩
      · exact Or.inl hin
      · exact Or.inr (Or.inl hev)
      · exact Or.inr (Or.inr ⟨a, List.mem_append_left _ ha, haccepted⟩)

omit hP hH hD [DecidableEq β] in
/-- A rejected delivery keeps the invariant: the state is the old one. -/
lemma RunOk.reject (h : RunOk P σ s) {side : Side} {popped : List (Bytes β × ℕ)}
    {pub : Bytes β} :
    RunOk P σ { s with
      evicted := Function.update s.evicted side (s.evicted side ++ popped)
      minted := pub :: s.minted } := by
  refine ⟨h.wf, h.party, h.sent_at, h.sent_unique, h.accepted_sent, h.accepted_passed,
    h.accepted_gone, h.accepted_nodup, fun t k hk => ?_,
    fun i hi => List.mem_cons_of_mem _ (h.minted i hi)⟩
  rcases h.kept t k hk with hin | hev | hacc
  · exact Or.inl hin
  · refine Or.inr (Or.inl ?_)
    simp only
    by_cases ht : t = side
    · subst ht; rw [Function.update_self]; exact List.mem_append_left _ hev
    · rwa [Function.update_of_ne ht]
  · exact Or.inr (Or.inr hacc)

/-- Delivering keeps the invariant. -/
lemma RunOk.deliver (h : RunOk P σ s) {side : Side} {header : MessageHeader β}
    {ct ad : Bytes β} {fresh : X} (hfresh : P.x25519PublicBytes fresh ∉ s.minted)
    (hauth : s.Authentic P side header ct ad fresh) :
    ∃ σ', σ.Grown σ' side fresh ∧ RunOk P σ' (s.afterDeliver P side header ct ad fresh) := by
  rcases hdec : decrypt P header ct ad fresh (s.ratchet side) with ⟨e | pt, st'⟩
  · obtain rfl := decrypt_error hdec
    refine ⟨σ, Or.inl rfl, ?_⟩
    rw [RatchetRun.afterDeliver, hdec]
    simpa only [Function.update_eq_self] using h.reject
  · obtain ⟨mk, hd⟩ := decrypt_ok_iff.mp hdec
    rw [RatchetRun.afterDeliver, hdec]
    exact h.accept hP hH hD hfresh hauth hd

/-- One step of a run keeps the invariant and the keys that have taken effect. -/
lemma RunOk.step {event : RatchetEvent β X} (h : RunOk P σ s) (hadm : s.Admissible P event) :
    ∃ σ', σ.Extends σ' ∧ RunOk P σ' (s.step P event) := by
  cases event with
  | encrypt side pt ad =>
    obtain ⟨σ', hσ', h'⟩ := h.encrypt hP side pt ad
    refine ⟨σ', ?_, h'⟩
    rcases hσ' with rfl | rfl
    · exact .refl _
    · exact .bump _
  | deliver side header ct ad fresh =>
    obtain ⟨σ', hσ', h'⟩ := h.deliver hP hH hD hadm.1 hadm.2
    exact ⟨σ', hσ'.extends, h'⟩

/-- So does a run. -/
lemma RunOk.reaches {t : RatchetRun β X} (h : RunOk P σ s)
    (hreach : Reaches (RatchetRun.Admissible P) (RatchetRun.step P) s t) :
    ∃ σ', σ.Extends σ' ∧ RunOk P σ' t := by
  refine hreach.invariant (I := fun u => ∃ σ', σ.Extends σ' ∧ RunOk P σ' u) ⟨σ, .refl σ, h⟩ ?_
  rintro u e ⟨σ₁, hσ₁, h₁⟩ hadm
  obtain ⟨σ₂, hσ₂, h₂⟩ := h₁.step hP hH hD hadm
  exact ⟨σ₂, hσ₁.trans hσ₂, h₂⟩

/-- Every state of a run satisfies the invariant, in a schedule that starts from the shared key. -/
lemma RatchetRun.Reachable.runOk_shared {k : Bytes β} {a r : X} {s : RatchetRun β X}
    (hs : RatchetRun.Reachable P k a r s) : ∃ σ, σ.k = k ∧ RunOk P σ s := by
  obtain ⟨initiator, responder, hne, hsender, hreceiver, hreach⟩ := hs
  obtain ⟨σ, hσ, h⟩ := (RunOk.start hP hne hsender hreceiver).reaches hP hH hD hreach
  exact ⟨σ, hσ.k, h⟩

theorem RatchetRun.Reachable.runOk {k : Bytes β} {a r : X} {s : RatchetRun β X}
    (hs : RatchetRun.Reachable P k a r s) : ∃ σ, RunOk P σ s := by
  obtain ⟨σ, -, h⟩ := hs.runOk_shared hP hH hD
  exact ⟨σ, h⟩

end Deliver

end Chatbit
