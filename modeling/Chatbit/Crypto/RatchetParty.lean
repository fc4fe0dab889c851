import Chatbit.Crypto.RatchetSchedule

/-!
# A party in the schedule

A party at epoch `i` of the schedule sends on chain `i` and receives on chain `i - 1`. Its state is
determined by the schedule, its receiving counter and its stored keys (`PartyOk`), and the messages
it can no longer reach by a receiving chain are those it has *passed*: everything on the older
chains of its peer, and the current one up to the counter.

A `decrypt` call that returns moves the party on (`Advance`): a message is passed that was not
passed before or had its key stored, and its key is gone for good.
-/

namespace Chatbit

open Lib DoubleRatchet

variable {β X E : Type} [Alphabet β] [DecidableEq β] {P : Primitives β X E}

namespace Schedule

/-- A party at epoch `i` with receiving counter `nr` has passed message `n` of chain `j`. -/
def Behind (σ : Schedule β X) (i nr j n : ℕ) : Prop :=
  1 ≤ j ∧ j < i ∧ j % 2 ≠ i % 2 ∧ n < if j + 1 = i then nr else σ.count j

/-- The same of the message that a stored-key index names. -/
def Passed (P : Primitives β X E) (σ : Schedule β X) (i nr : ℕ) (k : Bytes β × ℕ) : Prop :=
  ∃ j, σ.Behind i nr j k.2 ∧ k.1 = σ.pub P j

end Schedule

open Schedule

variable {σ : Schedule β X} {i nr : ℕ} {st : DoubleRatchet β X}

/-- The state of a party at epoch `i`. -/
structure PartyOk (P : Primitives β X E) (σ : Schedule β X) (i : ℕ) (st : DoubleRatchet β X) :
    Prop where
  dhsPriv : st.dhsPriv = σ.key i
  rk : st.rk = σ.root P i
  dhrPub : st.dhrPub = if i = 0 then none else some (σ.pub P (i - 1))
  cks : st.cks = if i = 0 then none else some (chainKey P (σ.chain P i) (σ.count i))
  ckr : st.ckr = if i ≤ 1 then none else some (chainKey P (σ.chain P (i - 1)) st.nr)
  ns : st.ns = σ.count i
  nr_le : st.nr ≤ σ.count (i - 1)
  pn : st.pn = σ.count (i - 2)
  skipped : ∀ e ∈ st.skipped.entries,
    ∃ j n, σ.Behind i st.nr j n ∧ e = ((σ.pub P j, n), σ.msgKey P j n)

/-! ## Passed messages -/

omit [Alphabet β] [DecidableEq β] in
lemma Schedule.Behind.mono {nr' j n : ℕ} (hle : nr ≤ nr') (h : σ.Behind i nr j n) :
    σ.Behind i nr' j n := by
  obtain ⟨h1, h2, h3, h4⟩ := h
  refine ⟨h1, h2, h3, ?_⟩
  split_ifs at h4 ⊢ <;> omega

omit [Alphabet β] [DecidableEq β] in
lemma Schedule.Passed.mono {nr' : ℕ} {k : Bytes β × ℕ} (hle : nr ≤ nr')
    (h : σ.Passed P i nr k) : σ.Passed P i nr' k :=
  h.imp fun _ hj => ⟨hj.1.mono hle, hj.2⟩

omit [Alphabet β] [DecidableEq β] in
/-- Between two values of the counter lie the messages of the current chain. -/
lemma Schedule.Passed.of_le (nr : ℕ) {nr' : ℕ} {k : Bytes β × ℕ} (h : σ.Passed P i nr' k) :
    σ.Passed P i nr k ∨ 2 ≤ i ∧ k.1 = σ.pub P (i - 1) ∧ nr ≤ k.2 ∧ k.2 < nr' := by
  obtain ⟨j, ⟨h1, h2, h3, h4⟩, hk⟩ := h
  by_cases hj : j + 1 = i
  · rw [if_pos hj] at h4
    rcases Nat.lt_or_ge k.2 nr with hlt | hge
    · exact Or.inl ⟨j, ⟨h1, h2, h3, by rwa [if_pos hj]⟩, hk⟩
    · obtain rfl : j = i - 1 := by omega
      exact Or.inr ⟨by omega, hk, hge, h4⟩
  · rw [if_neg hj] at h4
    exact Or.inl ⟨j, ⟨h1, h2, h3, by rwa [if_neg hj]⟩, hk⟩

omit [Alphabet β] [DecidableEq β] in
/-- The next message of the current chain has not been passed. -/
lemma not_passed_of_le (hσ : σ.WF P) (hi : i ≤ σ.top) {k : Bytes β × ℕ}
    (hk : k.1 = σ.pub P (i - 1)) (hn : nr ≤ k.2) : ¬ σ.Passed P i nr k := by
  rintro ⟨j, ⟨h1, h2, h3, h4⟩, hj⟩
  have := hσ.pub_inj (i - 1) (by omega) j (by omega) (hk.symm.trans hj)
  rw [if_pos (by omega)] at h4
  omega

omit [DecidableEq β] in
lemma PartyOk.passed_of_mem (h : PartyOk P σ i st) {k : Bytes β × ℕ}
    (hk : k ∈ st.skipped.keys) : σ.Passed P i st.nr k := by
  obtain ⟨v, hv⟩ := OrderedDict.mem_keys_iff.mp hk
  obtain ⟨j, n, hj, heq⟩ := h.skipped _ hv
  obtain ⟨rfl, -⟩ := Prod.mk.inj heq
  exact ⟨j, hj, rfl⟩

/-- A stored key is the message key of the message that indexes it. -/
lemma PartyOk.stored (hσ : σ.WF P) (hi : i ≤ σ.top) (h : PartyOk P σ i st) {j n : ℕ}
    (hj : j ≤ σ.top) {mk : Bytes β} (hget : st.skipped.get? (σ.pub P j, n) = some mk) :
    σ.Behind i st.nr j n ∧ mk = σ.msgKey P j n := by
  obtain ⟨j', n', hj', heq⟩ := h.skipped _ (OrderedDict.get?_eq_some_iff.mp hget)
  obtain ⟨hk, rfl⟩ := Prod.mk.inj heq
  obtain ⟨hpub, rfl⟩ := Prod.mk.inj hk
  obtain rfl := hσ.pub_inj j hj j' (by obtain ⟨-, h2, -⟩ := hj'; omega) hpub
  exact ⟨hj', rfl⟩

/-! ## Moving along the schedule -/

/-- A party has moved from `i`, `st` in `σ` to `i'`, `st'` in `σ'`, and the keys of the messages it
has passed on the way are stored or popped. -/
structure Moves (P : Primitives β X E) (σ : Schedule β X) (i : ℕ) (st : DoubleRatchet β X)
    (σ' : Schedule β X) (i' : ℕ) (st' : DoubleRatchet β X) (popped : List (Bytes β × ℕ)) :
    Prop where
  party : PartyOk P σ' i' st'
  mono : ∀ k, σ.Passed P i st.nr k → σ'.Passed P i' st'.nr k
  old : ∀ k, σ.Passed P i st.nr k → k ∈ st'.skipped.keys → k ∈ st.skipped.keys
  kept : ∀ k, σ'.Passed P i' st'.nr k → k ∈ st'.skipped.keys ∨ k ∈ popped ∨
    σ.Passed P i st.nr k ∧ k ∉ st.skipped.keys

omit [DecidableEq β] in
lemma Moves.trans {σ₁ σ₂ : Schedule β X} {i₁ i₂ : ℕ} {st₁ st₂ : DoubleRatchet β X}
    {popped popped' : List (Bytes β × ℕ)} (h : Moves P σ i st σ₁ i₁ st₁ popped)
    (h' : Moves P σ₁ i₁ st₁ σ₂ i₂ st₂ popped') :
    Moves P σ i st σ₂ i₂ st₂ (popped ++ popped') where
  party := h'.party
  mono k hk := h'.mono k (h.mono k hk)
  old k hk hmem := h.old k hk (h'.old k (h.mono k hk) hmem)
  kept k hk := by
    rcases h'.kept k hk with hin | hpop | ⟨hk₁, hnot⟩
    · exact Or.inl hin
    · exact Or.inr (Or.inl (List.mem_append_right _ hpop))
    · rcases h.kept k hk₁ with hin | hpop | hold
      · exact absurd hin hnot
      · exact Or.inr (Or.inl (List.mem_append_left _ hpop))
      · exact Or.inr (Or.inr hold)

lemma Moves.refl (h : PartyOk P σ i st) : Moves P σ i st σ i st [] where
  party := h
  mono _ hk := hk
  old _ _ hmem := hmem
  kept k hk := by
    by_cases hmem : k ∈ st.skipped.keys
    · exact Or.inl hmem
    · exact Or.inr (Or.inr ⟨hk, hmem⟩)

/-- Skipping to a message of the current chain, or to where the chain already is. -/
lemma PartyOk.skip (hσ : σ.WF P) (hi : i ≤ σ.top) (h : PartyOk P σ i st) {until_ : ℕ}
    {mid : DoubleRatchet β X} {popped : List (Bytes β × ℕ)} (hu : until_ ≤ σ.count (i - 1))
    (hskip : skipMessageKeys P until_ st = (.ok popped, mid)) :
    Moves P σ i st σ i mid popped ∧ mid.nr = max st.nr until_ := by
  rcases skipMessageKeys_ok hskip with ⟨-, rfl, rfl, rfl⟩ | ⟨ck, dhrPub, hckr, hpub, -, hs⟩
  · exact ⟨Moves.refl h, by omega⟩
  have hi2 : ¬ i ≤ 1 := fun hle => by rw [h.ckr, if_pos hle] at hckr; exact absurd hckr (by simp)
  have hck : ck = chainKey P (σ.chain P (i - 1)) st.nr := by
    rw [h.ckr, if_neg hi2] at hckr
    exact (Option.some.inj hckr).symm
  have hdhr : dhrPub = σ.pub P (i - 1) := by
    rw [h.dhrPub, if_neg (by omega)] at hpub
    exact (Option.some.inj hpub).symm
  have hnr : mid.nr = st.nr + (until_ - st.nr) := by rw [hs.frame]
  have hle : st.nr ≤ mid.nr := by omega
  have hnrle := h.nr_le
  -- the messages that are skipped are behind the new counter
  have hnew : ∀ t, t < until_ - st.nr → σ.Behind i mid.nr (i - 1) (st.nr + t) := fun t ht =>
    ⟨by omega, by omega, by omega, by rw [if_pos (by omega)]; omega⟩
  refine ⟨⟨?_, fun k hk => hk.mono hle, fun k hk hmem => ?_, fun k hk => ?_⟩, by omega⟩
  · refine ⟨?_, ?_, ?_, ?_, ?_, ?_, by omega, ?_, fun e he => ?_⟩
    · rw [hs.frame]; exact h.dhsPriv
    · rw [hs.frame]; exact h.rk
    · rw [hs.frame]; exact h.dhrPub
    · rw [hs.frame]; exact h.cks
    · rw [if_neg hi2, hnr, chainKey_add, ← hck, hs.frame]
    · rw [hs.frame]; exact h.ns
    · rw [hs.frame]; exact h.pn
    · rcases hs.sound e he with hold | ⟨t, ht, rfl⟩
      · obtain ⟨j, n, hj, rfl⟩ := h.skipped e hold
        exact ⟨j, n, hj.mono hle, rfl⟩
      · refine ⟨i - 1, st.nr + t, hnew t ht, ?_⟩
        rw [hdhr, hck, ← messageKey_add]; rfl
  · obtain ⟨v, hv⟩ := OrderedDict.mem_keys_iff.mp hmem
    rcases hs.sound _ hv with hold | ⟨t, -, heq⟩
    · exact OrderedDict.mem_keys_iff.mpr ⟨v, hold⟩
    · obtain ⟨rfl, -⟩ := Prod.mk.inj heq
      exact absurd hk (not_passed_of_le hσ hi hdhr (Nat.le_add_right _ _))
  · rcases hk.of_le st.nr with hold | ⟨-, hkpub, hge, hlt⟩
    · by_cases hmem : k ∈ st.skipped.keys
      · rcases hs.keeps k hmem with hin | hpop
        · exact Or.inl hin
        · exact Or.inr (Or.inl hpop)
      · exact Or.inr (Or.inr ⟨hold, hmem⟩)
    · have hkeq : k = (dhrPub, st.nr + (k.2 - st.nr)) := by
        rw [hdhr, ← hkpub, Nat.add_sub_cancel' hge]
      rcases hs.stores (k.2 - st.nr) (by omega) with hin | hpop
      · exact Or.inl (hkeq ▸ hin)
      · exact Or.inr (Or.inl (hkeq ▸ hpop))

omit [DecidableEq β] in
/-- The keys that a DH step from epoch `j` creates, where `j + 1` is the last: the second exchange
is the one that the peer will compute with its key `j + 1`. -/
lemma Schedule.stepped_keys (hP : P.Correct) (side : Side) (fresh : X) {j : ℕ}
    {old : DoubleRatchet β X} (hj : j + 1 = σ.top) (hrk : old.rk = σ.root P j)
    (hpriv : old.dhsPriv = σ.key j) :
    (stepped P (σ.pub P (j + 1)) fresh old).rk = (σ.extend side fresh).root P (j + 2) ∧
      (stepped P (σ.pub P (j + 1)) fresh old).ckr =
        some ((σ.extend side fresh).chain P (j + 1)) ∧
      (stepped P (σ.pub P (j + 1)) fresh old).cks =
        some ((σ.extend side fresh).chain P (j + 2)) := by
  have hrecv : kdfRk P old.rk (P.exchange old.dhsPriv (σ.pub P (j + 1))) =
      (σ.root P (j + 1), σ.chain P (j + 1)) := by
    rw [hrk, hpriv]
    rfl
  have htop : σ.top + 1 = j + 2 := by omega
  have hkey : (σ.extend side fresh).key (j + 2) = fresh := htop ▸ extend_key_top
  have hsend : kdfRk P (σ.root P (j + 1)) (P.exchange fresh (σ.pub P (j + 1))) =
      ((σ.extend side fresh).root P (j + 2), (σ.extend side fresh).chain P (j + 2)) := by
    have hdh : P.exchange fresh (σ.pub P (j + 1)) =
        P.exchange ((σ.extend side fresh).key (j + 1)) ((σ.extend side fresh).pub P (j + 2)) := by
      rw [extend_key hj.le, Schedule.pub, Schedule.pub, hkey, hP.exchange_comm fresh]
    rw [hdh, ← extend_root hj.le]
    rfl
  refine ⟨?_, ?_, ?_⟩
  · simp only [stepped, hrecv, hsend]
  · simp only [stepped, hrecv]
    rw [extend_chain hj.le]
  · simp only [stepped, hrecv, hsend]

/-- The DH step of a party that has passed the whole of its current chain. -/
lemma PartyOk.step (hP : P.Correct) (hσ : σ.WF P) (h : PartyOk P σ i st) (hi : i + 1 = σ.top)
    (hnr : st.nr = σ.count (i - 1)) (side : Side) (fresh : X) :
    Moves P σ i st (σ.extend side fresh) (i + 2)
      (stepped P (σ.pub P (i + 1)) fresh st) [] := by
  have htop : σ.top + 1 = i + 2 := by omega
  have hkey : (σ.extend side fresh).key (i + 2) = fresh := htop ▸ extend_key_top
  have hpub1 : (σ.extend side fresh).pub P (i + 1) = σ.pub P (i + 1) := extend_pub (by omega)
  have hcount : ∀ j, (σ.extend side fresh).count j = σ.count j := fun _ => rfl
  obtain ⟨hrk, hckr, hcks⟩ := stepped_keys hP side fresh hi h.rk h.dhsPriv
  have hzero : σ.count (i + 2) = 0 := hσ.count_above _ (by omega)
  -- nothing of the new chain has been passed, and all that was sent on the older ones has
  have hpassed : ∀ j n, (σ.extend side fresh).Behind (i + 2) 0 j n ↔ σ.Behind i st.nr j n := by
    intro j n
    by_cases hj : j = i + 1
    · subst hj
      simp [Schedule.Behind]
    by_cases hj' : j + 1 = i
    · have : j = i - 1 := by omega
      simp only [Schedule.Behind, hj', if_true, hcount]
      rw [if_neg (by omega), hnr, ← this]
      constructor <;> (rintro ⟨h1, h2, h3, h4⟩; exact ⟨h1, by omega, by omega, h4⟩)
    · simp only [Schedule.Behind, hj', if_false, hcount]
      rw [if_neg (by omega)]
      constructor <;> (rintro ⟨h1, h2, h3, h4⟩; exact ⟨h1, by omega, by omega, h4⟩)
  have hpubOf : ∀ {j n}, σ.Behind i st.nr j n → (σ.extend side fresh).pub P j = σ.pub P j :=
    fun hj => extend_pub (by obtain ⟨-, h2, -⟩ := hj; omega)
  have hkeyPassed : ∀ k, (σ.extend side fresh).Passed P (i + 2) 0 k ↔ σ.Passed P i st.nr k := by
    refine fun k => exists_congr fun j => ?_
    rw [hpassed]
    exact and_congr_right fun hj => by rw [hpubOf hj]
  refine ⟨?_, fun k hk => (hkeyPassed k).mpr hk, fun k _ hmem => hmem, fun k hk => ?_⟩
  · refine ⟨hkey.symm, ?_, ?_, ?_, ?_, ?_, Nat.zero_le _, ?_, fun e he => ?_⟩
    · exact hrk
    · simp only [stepped]
      rw [if_neg (by omega), show i + 2 - 1 = i + 1 from rfl, hpub1]
    · rw [if_neg (by omega), hcount, hzero, chainKey_zero]
      exact hcks
    · rw [if_neg (by omega)]
      exact hckr
    · exact hzero.symm
    · exact h.ns
    · obtain ⟨j, n, hj, rfl⟩ := h.skipped e he
      have hjtop : j ≤ σ.top := by obtain ⟨-, h2, -⟩ := hj; omega
      exact ⟨j, n, (hpassed j n).mpr hj, by rw [hpubOf hj, extend_msgKey hjtop]⟩
  · by_cases hmem : k ∈ st.skipped.keys
    · exact Or.inl hmem
    · exact Or.inr (Or.inr ⟨(hkeyPassed k).mp hk, hmem⟩)

/-! ## Accepting one message -/

/-- A party has moved on and accepted the message with index `k₀` on the way. -/
structure Advance (P : Primitives β X E) (σ : Schedule β X) (i : ℕ) (st : DoubleRatchet β X)
    (σ' : Schedule β X) (i' : ℕ) (st' : DoubleRatchet β X) (popped : List (Bytes β × ℕ))
    (k₀ : Bytes β × ℕ) : Prop where
  party : PartyOk P σ' i' st'
  mono : ∀ k, σ.Passed P i st.nr k → σ'.Passed P i' st'.nr k
  old : ∀ k, σ.Passed P i st.nr k → k ∈ st'.skipped.keys → k ∈ st.skipped.keys
  kept : ∀ k, σ'.Passed P i' st'.nr k → k = k₀ ∨ k ∈ st'.skipped.keys ∨ k ∈ popped ∨
    σ.Passed P i st.nr k ∧ k ∉ st.skipped.keys
  passed : σ'.Passed P i' st'.nr k₀
  gone : k₀ ∉ st'.skipped.keys
  first : σ.Passed P i st.nr k₀ → k₀ ∈ st.skipped.keys

/-- Accepting a message whose key is stored. -/
lemma PartyOk.useStored (h : PartyOk P σ i st) {k : Bytes β × ℕ} (hk : k ∈ st.skipped.keys) :
    Advance P σ i st σ i { st with skipped := st.skipped.erase k } [] k := by
  have hmem : ∀ k', k' ∈ (st.skipped.erase k).keys ↔ k' ≠ k ∧ k' ∈ st.skipped.keys := fun k' => by
    simp only [OrderedDict.mem_keys_iff, OrderedDict.mem_erase, exists_and_left]
  refine ⟨⟨h.dhsPriv, h.rk, h.dhrPub, h.cks, h.ckr, h.ns, h.nr_le, h.pn, fun e he => ?_⟩,
    fun _ hp => hp, fun k' _ hk' => ((hmem k').mp hk').2, fun k' hk' => ?_, h.passed_of_mem hk,
    fun hgone => ((hmem k).mp hgone).1 rfl, fun _ => hk⟩
  · exact h.skipped e (OrderedDict.mem_erase.mp he).2
  · by_cases heq : k' = k
    · exact Or.inl heq
    · by_cases hin : k' ∈ st.skipped.keys
      · exact Or.inr (Or.inl ((hmem k').mpr ⟨heq, hin⟩))
      · exact Or.inr (Or.inr (Or.inr ⟨hk', hin⟩))

/-- Accepting the next message of the current chain. -/
lemma PartyOk.receive (hσ : σ.WF P) (hi : i ≤ σ.top) (h : PartyOk P σ i st) (hi2 : 2 ≤ i)
    {ck : Bytes β} (hck : st.ckr = some ck) (hn : st.nr < σ.count (i - 1)) :
    Advance P σ i st σ i (advanceReceiving P ck st) [] (σ.pub P (i - 1), st.nr) := by
  have hck' : ck = chainKey P (σ.chain P (i - 1)) st.nr := by
    rw [h.ckr, if_neg (by omega)] at hck
    exact (Option.some.inj hck).symm
  have hle : st.nr ≤ st.nr + 1 := Nat.le_succ _
  have hnot : ¬ σ.Passed P i st.nr (σ.pub P (i - 1), st.nr) :=
    not_passed_of_le hσ hi rfl (le_refl _)
  refine ⟨⟨h.dhsPriv, h.rk, h.dhrPub, h.cks, ?_, h.ns, hn, h.pn, fun e he => ?_⟩,
    fun k hk => hk.mono hle, fun k _ hmem => hmem, fun k hk => ?_, ?_,
    fun hmem => hnot (h.passed_of_mem hmem), fun hp => absurd hp hnot⟩
  · simp only [advanceReceiving]
    rw [if_neg (by omega), chainKey_succ, ← hck']
  · obtain ⟨j, n, hj, rfl⟩ := h.skipped e he
    exact ⟨j, n, hj.mono hle, rfl⟩
  · rcases hk.of_le st.nr with hold | ⟨-, hpub, hge, hlt⟩
    · by_cases hin : k ∈ st.skipped.keys
      · exact Or.inr (Or.inl hin)
      · exact Or.inr (Or.inr (Or.inr ⟨hold, hin⟩))
    · refine Or.inl (Prod.ext hpub ?_)
      have hlt : k.2 < st.nr + 1 := hlt
      change k.2 = st.nr
      omega
  · refine ⟨i - 1, ⟨by omega, by omega, by omega, ?_⟩, rfl⟩
    rw [if_pos (by omega)]
    exact Nat.lt_succ_self _

omit [DecidableEq β] in
/-- Moving on before accepting. -/
lemma Moves.advance {σ₁ σ₂ : Schedule β X} {i₁ i₂ : ℕ} {st₁ st₂ : DoubleRatchet β X}
    {popped : List (Bytes β × ℕ)} {k₀ : Bytes β × ℕ} (h : Moves P σ i st σ₁ i₁ st₁ popped)
    (h' : Advance P σ₁ i₁ st₁ σ₂ i₂ st₂ [] k₀) (hfirst : ¬ σ₁.Passed P i₁ st₁.nr k₀) :
    Advance P σ i st σ₂ i₂ st₂ popped k₀ where
  party := h'.party
  mono k hk := h'.mono k (h.mono k hk)
  old k hk hmem := h.old k hk (h'.old k (h.mono k hk) hmem)
  kept k hk := by
    rcases h'.kept k hk with heq | hin | hpop | ⟨hk₁, hnot⟩
    · exact Or.inl heq
    · exact Or.inr (Or.inl hin)
    · exact absurd hpop List.not_mem_nil
    · rcases h.kept k hk₁ with hin | hrest
      · exact absurd hin hnot
      · exact Or.inr (Or.inr hrest)
  passed := h'.passed
  gone := h'.gone
  first hk := absurd (h.mono _ hk) hfirst

end Chatbit
