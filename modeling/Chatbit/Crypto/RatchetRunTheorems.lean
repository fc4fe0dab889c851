import Chatbit.Crypto.RatchetDeliveries
import Chatbit.Crypto.Symbolic

/-!
# Safety and delivery of a ratchet run

A message that opens is one that was sealed, and opens once; a genuine message opens when it
arrives, unless its key was evicted or is out of the reach of the skips.
-/

namespace Chatbit

open Lib DoubleRatchet Schedule

variable {β X E : Type} [Alphabet β] [DecidableEq β] {P : Primitives β X E}

variable {σ : Schedule β X} {s : RatchetRun β X}

/-! ## A genuine message opens -/

section Deliver

variable (hP : P.Correct) (hH : P.HashIdeal) (hD : P.DhIdeal)
include hP hH hD

/-- The skips that decrypting under this header needs are within the limit: none for a stored key,
else to `n` on the current chain, or to `pn` on it and to `n` on the new one. -/
def DoubleRatchet.SkipsWithin (st : DoubleRatchet β X) (header : MessageHeader β) : Prop :=
  header.index ∈ st.skipped.keys ∨
    if st.dhrPub = some header.ratchetPub then header.n - st.nr ≤ MAX_SKIP
    else header.pn - st.nr ≤ MAX_SKIP ∧ header.n ≤ MAX_SKIP

omit hP hH hD in
/-- What decrypts has needed no more. -/
lemma DoubleRatchet.Decrypts.skipsWithin {st st' : DoubleRatchet β X} {header : MessageHeader β}
    {ct ad mk pt : Bytes β} {fresh : X} {popped : List (Bytes β × ℕ)}
    (h : Decrypts P st header ct ad fresh mk pt st' popped) : st.SkipsWithin header := by
  have hbound : ∀ {n : ℕ} {st mid : DoubleRatchet β X} {popped : List (Bytes β × ℕ)},
      skipMessageKeys P n st = (.ok popped, mid) → n - st.nr ≤ MAX_SKIP := by
    intro n st mid popped hskip
    rcases skipMessageKeys_ok hskip with ⟨-, rfl, -⟩ | ⟨_, _, -, -, hle, -⟩
    · omega
    · exact hle
  cases h with
  | stored hget hopen =>
    exact Or.inl (OrderedDict.mem_keys_iff.mpr ⟨_, OrderedDict.get?_eq_some_iff.mp hget⟩)
  | current hget hpub hskip hck hopen =>
    refine Or.inr ?_
    rw [if_pos hpub]
    exact hbound hskip
  | newChain hget hpub hold hstep hskip hck hopen =>
    refine Or.inr ?_
    rw [if_neg hpub]
    exact ⟨hbound hold, hbound hskip⟩

omit hH hD [DecidableEq β] in
/-- A sealed message opens under its own key. -/
lemma SentAt.opens {m : Sent β} {j : ℕ} (h : SentAt P σ m j) :
    DoubleRatchet.openWith P m.msgKey m.header m.ciphertext m.ad = .ok m.plaintext := by
  obtain ⟨encoded, henc, hct⟩ := h.sealed
  exact (openWith_ok_iff hP).mpr ⟨encoded, henc, by rw [hct]; exact hP.decrypt_encrypt _ _ _ _⟩

omit hP hH hD in
/-- Skipping within the limit on a chain that is at `nr`, and the message key found there. -/
lemma exists_skip {st : DoubleRatchet β X} {dhrPub ck₀ : Bytes β} {n nr : ℕ}
    (hckr : st.ckr = some (chainKey P ck₀ nr)) (hpub : st.dhrPub = some dhrPub) (hnr : st.nr = nr)
    (hle : nr ≤ n) (hskip : n - nr ≤ MAX_SKIP) :
    ∃ mid ck popped, skipMessageKeys P n st = (.ok popped, mid) ∧ mid.ckr = some ck ∧
      (kdfCk P ck).2 = messageKey P ck₀ n := by
  obtain ⟨mid, popped, hs⟩ := skipMessageKeys_of_some (P := P) hckr hpub (hnr ▸ hskip)
  obtain ⟨ck, hck⟩ : ∃ ck, mid.ckr = some ck := by
    rcases skipMessageKeys_ok hs with ⟨hnone, -⟩ | ⟨_, _, -, -, -, hs⟩
    · rw [hckr] at hnone; exact absurd hnone (by simp)
    · rw [hs.frame]; exact ⟨_, rfl⟩
  refine ⟨mid, ck, popped, hs, hck, ?_⟩
  rw [skipMessageKeys_ckr hs hckr hnr hck, Nat.max_eq_right hle]

omit hH hD in
/-- A message of the next chain opens after the DH step to it. -/
lemma PartyOk.opens_newChain {i : ℕ} {st : DoubleRatchet β X} (h : PartyOk P σ i st)
    (hzero : σ.count 0 = 0) {m : Sent β} (hm : SentAt P σ m (i + 1))
    (hget : st.skipped.get? (m.header.ratchetPub, m.header.n) = none)
    (hpub : st.dhrPub ≠ some m.header.ratchetPub) (hpn : m.header.pn - st.nr ≤ MAX_SKIP)
    (hn : m.header.n ≤ MAX_SKIP) (fresh : X) :
    ∃ mk st' popped, Decrypts P st m.header m.ciphertext m.ad fresh mk m.plaintext st' popped := by
  -- the rest of the old chain
  obtain ⟨old, popped, hold⟩ : ∃ old popped,
      skipMessageKeys P m.header.pn st = (.ok popped, old) := by
    have hckr := h.ckr
    have hdhr := h.dhrPub
    split_ifs at hckr with hi
    · have hpn0 : m.header.pn = 0 := by
        rw [hm.pn, show i + 1 - 2 = 0 by omega, hzero]
      exact ⟨_, _, hpn0 ▸ skipMessageKeys_of_none hckr⟩
    · rw [if_neg (by omega)] at hdhr
      exact skipMessageKeys_of_some hckr hdhr hpn
  obtain ⟨hrk, -, hpriv⟩ := frame_skipMessageKeys hold
  have hne : ∀ x, P.exchange x m.header.ratchetPub ≠ zeros DHLEN := fun x => by
    rw [hm.pub]; exact hP.exchange_ne_zero x _
  have hlen : m.header.ratchetPub.length = DHLEN := by rw [hm.pub]; exact length_pub hP _
  have hstep : dhRatchet P m.header fresh old =
      (.ok (), stepped P m.header.ratchetPub fresh old) :=
    dhRatchet_ok_iff.mpr ⟨hlen, hne _, hne fresh, rfl⟩
  -- the new chain
  have hckr : (stepped P m.header.ratchetPub fresh old).ckr =
      some (chainKey P (σ.chain P (i + 1)) 0) := by
    simp only [stepped, hrk, hpriv, h.rk, h.dhsPriv, hm.pub]; rfl
  obtain ⟨mid, ck, popped', hs, hck, hkey⟩ := exists_skip hckr rfl rfl (Nat.zero_le _) hn
  refine ⟨_, _, _, .newChain hget hpub hold hstep hs hck ?_⟩
  rw [hkey, show messageKey P (σ.chain P (i + 1)) m.header.n = m.msgKey from hm.msgKey.symm]
  exact hm.opens hP

omit hH hD in
/-- A message that its receiver has not passed decrypts if the skips it needs are within the
limit. -/
lemma RunOk.opens_ahead (h : RunOk P σ s) {m : Sent β} (hm : m ∈ s.sent)
    (hahead : ¬ σ.Passed P (σ.epoch m.side.peer) (s.ratchet m.side.peer).nr m.header.index)
    (hskip : (s.ratchet m.side.peer).SkipsWithin m.header) (fresh : X) :
    (decrypt P m.header m.ciphertext m.ad fresh (s.ratchet m.side.peer)).1 = .ok m.plaintext := by
  obtain ⟨j, hj⟩ := h.sent_at m hm
  have hp := h.party m.side.peer
  have htop := h.wf.le_top m.side.peer
  have hjtop : j ≤ σ.top := hj.le_epoch.trans (h.wf.le_top _)
  obtain ⟨hpar, hle, -⟩ := h.wf.epoch_peer m.side.peer
  rw [Side.peer_peer] at hpar hle
  have hj0 := hj.one_le
  have hjpar := hj.parity
  have hjle := hj.le_epoch
  rw [← h.wf.parity m.side] at hjpar
  suffices hd : ∃ mk st' popped, Decrypts P (s.ratchet m.side.peer) m.header m.ciphertext m.ad
      fresh mk m.plaintext st' popped by
    obtain ⟨mk, st', popped, hd⟩ := hd
    rw [decrypt_of_decrypts hd]
  have hnot : m.header.index ∉ (s.ratchet m.side.peer).skipped.keys :=
    fun hin => hahead (hp.passed_of_mem hin)
  have hget := OrderedDict.get?_eq_none_iff.mpr hnot
  have hskip := hskip.resolve_left hnot
  -- its chain is the current one or the next
  have hcases : j + 1 = σ.epoch m.side.peer ∧ (s.ratchet m.side.peer).nr ≤ m.header.n ∨
      j = σ.epoch m.side.peer + 1 := by
    by_contra hne
    refine hahead ⟨j, ⟨hj0, by omega, by omega, ?_⟩, hj.pub⟩
    have hnlt := hj.n_lt
    split_ifs with hc
    · change m.header.n < _
      omega
    · exact hnlt
  rcases hcases with ⟨hj1, hn⟩ | hj1
  · have hpub : (s.ratchet m.side.peer).dhrPub = some m.header.ratchetPub := by
      rw [hp.dhrPub, if_neg (by omega), hj.pub, show σ.epoch m.side.peer - 1 = j by omega]
    rw [if_pos hpub] at hskip
    obtain rfl : j = σ.epoch m.side.peer - 1 := by omega
    have hckr := hp.ckr
    rw [if_neg (by omega)] at hckr
    obtain ⟨mid, ck, popped, hs, hck, hkey⟩ := exists_skip hckr hpub rfl hn hskip
    refine ⟨_, _, _, .current hget hpub hs hck ?_⟩
    rw [hkey, show messageKey P _ m.header.n = m.msgKey from hj.msgKey.symm]
    exact hj.opens hP
  · have hpub : (s.ratchet m.side.peer).dhrPub ≠ some m.header.ratchetPub := by
      rw [hp.dhrPub]
      split_ifs with h0
      · simp
      · intro heq
        rw [hj.pub] at heq
        have := h.wf.pub_inj _ (by omega) j hjtop (Option.some.inj heq)
        omega
    rw [if_neg hpub] at hskip
    subst hj1
    exact hp.opens_newChain hP h.wf.count_zero hj hget hpub hskip.1 hskip.2 fresh

omit hH hD in
/-- In every state of a run, a message that its receiver has not accepted, whose key was not
evicted and whose skips are within the limit decrypts to its plaintext. -/
lemma RunOk.opens (h : RunOk P σ s) {m : Sent β} (hm : m ∈ s.sent) (hnew : m.delivery ∉ s.accepted)
    (hev : m.header.index ∉ s.evicted m.side.peer)
    (hskip : (s.ratchet m.side.peer).SkipsWithin m.header) (fresh : X) :
    (decrypt P m.header m.ciphertext m.ad fresh (s.ratchet m.side.peer)).1 = .ok m.plaintext := by
  rcases hget : (s.ratchet m.side.peer).skipped.get? (m.header.ratchetPub, m.header.n) with _ | mk
  · -- the message has not been passed: it would be accepted, stored or evicted
    refine h.opens_ahead hP hm (fun hpassed => ?_) hskip fresh
    rcases h.kept _ _ hpassed with hin | hin | ⟨a, ha, hside, hidx⟩
    · exact OrderedDict.get?_eq_none_iff.mp hget hin
    · exact hev hin
    · obtain ⟨m', hm', rfl⟩ := h.accepted_sent a ha
      obtain rfl := h.sent_unique m' hm' m hm hidx
      exact hnew ha
  · -- the key is stored
    obtain ⟨j, hj⟩ := h.sent_at m hm
    have hget' := hget
    rw [hj.pub] at hget'
    obtain ⟨-, rfl⟩ := (h.party m.side.peer).stored h.wf (h.wf.le_top _)
      (hj.le_epoch.trans (h.wf.le_top _)) hget'
    rw [decrypt_of_decrypts (.stored hget (hj.msgKey ▸ hj.opens hP))]

omit hH hD in
/-- The next message of a side, which its peer gets before any other: it decrypts if the skips it
needs are within the limit. -/
lemma RunOk.opens_next {side : Side} {header : MessageHeader β} {pt ad ct : Bytes β}
    {st' : DoubleRatchet β X} (h : RunOk P σ s)
    (henc : DoubleRatchet.encrypt P pt ad (s.ratchet side) = (.ok (header, ct), st'))
    (hskip : (s.ratchet side.peer).SkipsWithin header) (fresh : X) :
    (decrypt P header ct ad fresh (s.ratchet side.peer)).1 = .ok pt := by
  obtain ⟨cks, encoded, hcks, rfl, -⟩ := (encrypt_ok_iff hP).mp henc
  have h' := h.encrypt_of_some hP hcks pt ad
  have hsame : (s.afterEncrypt P side pt ad).ratchet side.peer = s.ratchet side.peer := by
    rw [RatchetRun.ratchet_afterEncrypt, Function.update_of_ne (Side.peer_ne side)]
  have hlast : (⟨side, nextHeader P (s.ratchet side), ad, pt, ct,
      (s.ratchet side).sealingKey P⟩ : Sent β) ∈ (s.afterEncrypt P side pt ad).sent := by
    rw [RatchetRun.afterEncrypt, henc]
    exact List.mem_append_right _ (List.mem_singleton_self _)
  have hopens := h'.opens_ahead hP hlast
  simp only [hsame] at hopens
  refine hopens (fun hpassed => h.next_not_passed hcks ?_) hskip fresh
  exact ((h.bump hcks).2.2.1 _ _ _).mp hpassed

end Deliver

/-! ## A run of four messages -/

section Greeting

/-- The two ratchets of a symbolic run, before any message. -/
def greetingStart : RatchetRun SymByte ℕ :=
  let secret := kdfRk symbolic (zeros 32) (symbolic.exchange 1 (symbolic.x25519PublicBytes 0))
  RatchetRun.start symbolic 1 0
    { dhsPriv := 1, dhrPub := some (symbolic.x25519PublicBytes 0), rk := secret.1
      cks := some secret.2 }
    { dhsPriv := 0, dhrPub := none, rk := zeros 32 }

/-- The initiator sends a greeting, which is still on its way. -/
def greeting : RatchetRun SymByte ℕ :=
  greetingStart.afterEncrypt symbolic .initiator (ascii "hello") (ascii "ad")

/-- The greeting as it was sealed. -/
def hello : Sent SymByte where
  side := .initiator
  header := ⟨symbolic.x25519PublicBytes 1, 0, 0⟩
  ad := ascii "ad"
  plaintext := ascii "hello"
  ciphertext := (greeting.sent.map Sent.ciphertext).flatten
  msgKey := (greetingStart.ratchet .initiator).sealingKey symbolic

lemma greeting_reachable : greeting.Reachable symbolic (zeros 32) 1 0 := by
  refine ⟨_, _, by decide, rfl, rfl, ?_⟩
  exact (Reaches.refl _).tail
    (e := RatchetEvent.encrypt Side.initiator (ascii "hello") (ascii "ad")) trivial

/-- In a symbolic run a sealed message opens under its own key, nonce and associated data only. -/
lemma Sent.authentic {s : RatchetRun SymByte ℕ} {σ : Schedule SymByte ℕ} {m : Sent SymByte}
    (hm : m ∈ s.sent)
    {j : ℕ} (hj : SentAt symbolic σ m j) (side : Side) (header : MessageHeader SymByte)
    (ad : Bytes SymByte) (fresh : ℕ) : s.Authentic symbolic side header m.ciphertext ad fresh := by
  intro mk encoded pt _ _ hopen
  obtain ⟨encoded', henc, hct⟩ := hj.sealed
  obtain ⟨hk, hn, hp, had⟩ :=
    SymByte.sealed_inj (hct.symm.trans (SymByte.opened_eq_some_iff.mp hopen))
  exact ⟨m, hm, Prod.ext hk hn, ⟨encoded', henc, had.symm⟩, hp, rfl⟩

namespace RatchetRun

/-- A side seals a message. -/
def tells (s : RatchetRun SymByte ℕ) (side : Side) (text : String) : RatchetRun SymByte ℕ :=
  s.afterEncrypt symbolic side (ascii text) (ascii "ad")

/-- The event in which the message that was sealed after `i` others comes to its receiver. -/
def arrivalOf (s : RatchetRun SymByte ℕ) (i fresh : ℕ) : RatchetEvent SymByte ℕ :=
  let m := s.sent.getD i hello
  .deliver m.side.peer m.header m.ciphertext m.ad fresh

/-- It comes there, for the first time or again. -/
def hears (s : RatchetRun SymByte ℕ) (i fresh : ℕ) : RatchetRun SymByte ℕ :=
  s.step symbolic (s.arrivalOf i fresh)

variable {s : RatchetRun SymByte ℕ}

lemma Reachable.tells (h : s.Reachable symbolic (zeros 32) 1 0) (side : Side) (text : String) :
    (s.tells side text).Reachable symbolic (zeros 32) 1 0 := by
  obtain ⟨initiator, responder, hne, hsender, hreceiver, hreach⟩ := h
  exact ⟨initiator, responder, hne, hsender, hreceiver,
    hreach.tail (e := RatchetEvent.encrypt side (ascii text) (ascii "ad")) trivial⟩

lemma Reachable.arrivalOf (h : s.Reachable symbolic (zeros 32) 1 0) (i fresh : ℕ)
    (hi : i < s.sent.length) (hfresh : symbolic.x25519PublicBytes fresh ∉ s.minted) :
    s.Admissible symbolic (s.arrivalOf i fresh) := by
  obtain ⟨σ, hok⟩ := h.runOk symbolic_correct symbolic_hashIdeal symbolic_dhIdeal
  have hm : s.sent.getD i hello ∈ s.sent := by
    rw [List.getD_eq_getElem?_getD, List.getElem?_eq_getElem hi]
    exact List.getElem_mem hi
  obtain ⟨j, hj⟩ := hok.sent_at _ hm
  exact ⟨hfresh, Sent.authentic hm hj _ _ _ _⟩

lemma Reachable.hears (h : s.Reachable symbolic (zeros 32) 1 0) (i fresh : ℕ)
    (hi : i < s.sent.length) (hfresh : symbolic.x25519PublicBytes fresh ∉ s.minted) :
    (s.hears i fresh).Reachable symbolic (zeros 32) 1 0 := by
  have hadm := h.arrivalOf i fresh hi hfresh
  obtain ⟨initiator, responder, hne, hsender, hreceiver, hreach⟩ := h
  exact ⟨initiator, responder, hne, hsender, hreceiver, hreach.tail hadm⟩

end RatchetRun

/-- The second message overtakes the greeting, the responder answers and the initiator goes on: two
changes of direction, while the greeting is on its way. -/
def talk : RatchetRun SymByte ℕ :=
  (((((greeting.tells .initiator "again").hears 1 2).tells .responder "yes").hears 2 3).tells
    .initiator "good").hears 3 4

/-- The greeting comes at last. -/
def late : RatchetRun SymByte ℕ := talk.hears 0 5

/-- The second message is replayed. -/
def replayed : RatchetRun SymByte ℕ := late.hears 1 6

lemma talk_reachable : talk.Reachable symbolic (zeros 32) 1 0 := by
  have hoverheard := (greeting_reachable.tells .initiator "again").hears 1 2
    (by decide +kernel) (by decide +kernel)
  have hanswered := (hoverheard.tells .responder "yes").hears 2 3
    (by decide +kernel) (by decide +kernel)
  exact (hanswered.tells .initiator "good").hears 3 4 (by decide +kernel) (by decide +kernel)

lemma late_reachable : late.Reachable symbolic (zeros 32) 1 0 :=
  talk_reachable.hears 0 5 (by decide +kernel) (by decide +kernel)

lemma replay_admissible : late.Admissible symbolic (late.arrivalOf 1 6) :=
  late_reachable.arrivalOf 1 6 (by decide +kernel) (by decide +kernel)

lemma replayed_reachable : replayed.Reachable symbolic (zeros 32) 1 0 :=
  late_reachable.hears 1 6 (by decide +kernel) (by decide +kernel)

end Greeting

/-! ## Results -/

section Results

variable (hP : P.Correct) (hH : P.HashIdeal) (hD : P.DhIdeal)
include hP hH hD

/-- In every state of a run, a genuine message that its receiver has not accepted yet decrypts to
its plaintext, provided that the skips it needs are within `MAX_SKIP` and that the cap has not
evicted its stored key. -/
theorem RatchetRun.genuine_decrypts {k : Bytes β} {a r : X} {s : RatchetRun β X}
    (hs : RatchetRun.Reachable P k a r s) {m : Sent β} (hm : m ∈ s.sent)
    (hnew : m.delivery ∉ s.accepted) (hev : m.header.index ∉ s.evicted m.side.peer)
    (hskip : (s.ratchet m.side.peer).SkipsWithin m.header) (fresh : X) :
    (decrypt P m.header m.ciphertext m.ad fresh (s.ratchet m.side.peer)).1 = .ok m.plaintext := by
  obtain ⟨σ, h⟩ := hs.runOk hP hH hD
  exact h.opens hP hm hnew hev hskip fresh

omit hP hH hD in
/-- The greeting decrypts when it comes after two changes of direction, with the key that was stored
for it. -/
theorem RatchetRun.genuine_decrypts_late :
    (talk.ratchet .responder).skipped.keys = [hello.header.index] ∧
    (decrypt symbolic hello.header hello.ciphertext hello.ad 5 (talk.ratchet .responder)).1 =
      .ok (ascii "hello") :=
  ⟨by decide +kernel,
    RatchetRun.genuine_decrypts symbolic_correct symbolic_hashIdeal symbolic_dhIdeal
      talk_reachable (show hello ∈ talk.sent by decide +kernel) (by decide +kernel)
      (by decide +kernel) (Or.inl (by decide +kernel)) 5⟩

/-- Every accepted delivery is that of a message which the peer sealed with the same header and
associated data, with its plaintext, and no side accepts two deliveries of one header, hence of one
message. -/
theorem RatchetRun.accepted_genuine_once {k : Bytes β} {a r : X} {s : RatchetRun β X}
    (hs : RatchetRun.Reachable P k a r s) :
    (∀ d ∈ s.accepted, ∃ m ∈ s.sent, m.side = d.side.peer ∧ m.header = d.header ∧ m.ad = d.ad ∧
      m.plaintext = d.plaintext) ∧
    (s.accepted.map fun d => (d.side, d.header)).Nodup := by
  obtain ⟨σ, h⟩ := hs.runOk hP hH hD
  refine ⟨fun d hd => ?_, ?_⟩
  · obtain ⟨m, hm, rfl⟩ := h.accepted_sent d hd
    exact ⟨m, hm, (Side.peer_peer _).symm, rfl, rfl, rfl⟩
  · refine List.Nodup.of_map (fun p : Side × MessageHeader β => (p.1, p.2.index)) ?_
    rw [List.map_map]
    exact h.accepted_nodup

omit hP hH hD in
/-- All four messages are accepted, in the order of their arrival, and the replay of one is not. -/
theorem RatchetRun.accepted_genuine_once_replayed :
    replayed.accepted.map Accepted.plaintext =
      [ascii "again", ascii "yes", ascii "good", ascii "hello"] ∧
    (∀ d ∈ replayed.accepted, ∃ m ∈ replayed.sent, m.side = d.side.peer ∧ m.header = d.header ∧
      m.ad = d.ad ∧ m.plaintext = d.plaintext) ∧
    (replayed.accepted.map fun d => (d.side, d.header)).Nodup :=
  ⟨by decide +kernel, RatchetRun.accepted_genuine_once symbolic_correct symbolic_hashIdeal
    symbolic_dhIdeal replayed_reachable⟩

end Results

end Chatbit
