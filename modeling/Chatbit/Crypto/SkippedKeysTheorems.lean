import Chatbit.Crypto.SkippedKeys

/-!
# What the stored keys are

An accepted message assigns the keys that it skips to the dictionary one after the other, each time
evicting the oldest above the cap (`storeAll`, `Decrypts.skipped`). What holds of the stored keys
after any run is then a fact about such assignments: they keep the cap, and they leave the newest
keys as long as no name is assigned twice.
-/

namespace Chatbit

open Lib

variable {β X E : Type} [Alphabet β] [DecidableEq β] {P : Primitives β X E}

namespace DoubleRatchet

/-! ## Storing keys -/

/-- The assignments of the skip loop. -/
def storeAll (skipped : OrderedDict (Bytes β × ℕ) (Bytes β))
    (entries : List ((Bytes β × ℕ) × Bytes β)) : OrderedDict (Bytes β × ℕ) (Bytes β) :=
  entries.foldl (fun skipped entry =>
    (skipped.set entry.1 entry.2).evictOldest MAX_SKIPPED_KEYS) skipped

omit [DecidableEq β] in
lemma keysOn_zero (pub ck : Bytes β) (nr : ℕ) : keysOn P pub ck nr 0 = [] := rfl

omit [DecidableEq β] in
lemma keysOn_succ (pub ck : Bytes β) (nr count : ℕ) :
    keysOn P pub ck nr (count + 1) =
      ((pub, nr), (kdfCk P ck).2) :: keysOn P pub (kdfCk P ck).1 (nr + 1) count := by
  unfold keysOn
  rw [List.range_succ_eq_map, List.map_cons, List.map_map]
  congr 1
  refine List.map_congr_left fun i _ => ?_
  have hkey : messageKey P ck (i + 1) = messageKey P (kdfCk P ck).1 i := by
    rw [Nat.add_comm, messageKey_add]
    rfl
  simp only [Function.comp_apply, hkey, Nat.add_assoc, Nat.add_comm 1 i, Nat.succ_eq_add_one]

omit [Alphabet β] in
lemma storeAll_nil (skipped : OrderedDict (Bytes β × ℕ) (Bytes β)) :
    storeAll skipped [] = skipped := rfl

omit [Alphabet β] in
lemma storeAll_cons (skipped : OrderedDict (Bytes β × ℕ) (Bytes β))
    (entry : (Bytes β × ℕ) × Bytes β) (entries : List ((Bytes β × ℕ) × Bytes β)) :
    storeAll skipped (entry :: entries) =
      storeAll ((skipped.set entry.1 entry.2).evictOldest MAX_SKIPPED_KEYS) entries := by
  unfold storeAll
  rw [List.foldl_cons]

omit [Alphabet β] in
lemma storeAll_append (skipped : OrderedDict (Bytes β × ℕ) (Bytes β))
    (entries entries' : List ((Bytes β × ℕ) × Bytes β)) :
    storeAll skipped (entries ++ entries') = storeAll (storeAll skipped entries) entries' :=
  List.foldl_append

lemma skipOne_skipped (dhrPub ckr : Bytes β) (st : DoubleRatchet β X) :
    (skipOne P dhrPub ckr st).skipped =
      (st.skipped.set (dhrPub, st.nr) (kdfCk P ckr).2).evictOldest MAX_SKIPPED_KEYS := rfl

lemma skipOne_nr (dhrPub ckr : Bytes β) (st : DoubleRatchet β X) :
    (skipOne P dhrPub ckr st).nr = st.nr + 1 := rfl

/-- The skip loop assigns the keys that it skips. -/
lemma skipLoop_skipped (dhrPub : Bytes β) (turns : ℕ) (ckr : Bytes β) (st : DoubleRatchet β X) :
    (skipLoop P dhrPub turns ckr st).1.skipped =
      storeAll st.skipped (keysOn P dhrPub ckr st.nr turns) := by
  induction turns generalizing ckr st with
  | zero => rfl
  | succ turns ih =>
    rw [keysOn_succ, storeAll_cons, skipLoop]
    simp only
    rw [ih, skipOne_skipped, skipOne_nr]

/-! ## The traced methods -/

def storedEvents (entries : List ((Bytes β × ℕ) × Bytes β)) : List (KeyEvent β) :=
  entries.map fun entry => .stored entry.1 entry.2

lemma skipLoopTraced_eq (dhrPub : Bytes β) (turns : ℕ) (ckr : Bytes β) (st : DoubleRatchet β X)
    (trace : List (KeyEvent β)) :
    skipLoopTraced P dhrPub turns ckr (st, trace) =
      (.ok (skipLoop P dhrPub turns ckr st).2, ((skipLoop P dhrPub turns ckr st).1,
        trace ++ storedEvents (keysOn P dhrPub ckr st.nr turns))) := by
  induction turns generalizing ckr st trace with
  | zero =>
    rw [keysOn_zero]
    show (_, (st, trace)) = _
    rw [show storedEvents [] = ([] : List (KeyEvent β)) from rfl, List.append_nil]
    rfl
  | succ turns ih =>
    have hfirst : ((Method.update fun st => skipOne P dhrPub ckr st).beside :
        Method (Exc β) (Traced β X) Unit) (st, trace ++ [.stored (dhrPub, st.nr) (kdfCk P ckr).2]) =
        (.ok (), (skipOne P dhrPub ckr st, trace ++ [.stored (dhrPub, st.nr) (kdfCk P ckr).2])) :=
      rfl
    rw [skipLoopTraced, Method.self_bind, Method.emit, Method.update_bind,
      Method.bind_of_ok hfirst, Method.bind_of_ok (ih _ _ _), keysOn_succ, skipOne_nr, skipLoop]
    simp [storedEvents]

/-- What a `_skip_message_keys` call that returns has assigned and traced. -/
lemma skipMessageKeysTraced_of_ok {until_ : ℕ} {st st' : DoubleRatchet β X}
    {popped : List (Bytes β × ℕ)} (h : skipMessageKeys P until_ st = (.ok popped, st'))
    (trace : List (KeyEvent β)) :
    ∃ entries, (entries = match st.dhrPub, st.ckr with
        | some pub, some ckr => keysOn P pub ckr st.nr (until_ - st.nr)
        | _, _ => []) ∧
      st'.skipped = storeAll st.skipped entries ∧
      skipMessageKeysTraced P until_ (st, trace) =
        (.ok popped, (st', trace ++ storedEvents entries)) := by
  refine ⟨_, rfl, ?_⟩
  unfold skipMessageKeys at h
  unfold skipMessageKeysTraced
  rw [Method.self_bind] at h ⊢
  -- without a receiving chain there is nothing to store
  rcases hckr : st.ckr with _ | ckr
  · rw [hckr] at h
    simp only at h ⊢
    split_ifs at h ⊢
    · cases h
    · obtain ⟨hpopped, rfl⟩ := Prod.mk.inj h
      obtain rfl := Except.ok.inj hpopped
      cases st.dhrPub <;> exact ⟨rfl, by simp [storedEvents]⟩
  · rw [hckr] at h
    simp only at h ⊢
    split_ifs at h ⊢
    · cases h
    · rcases hpub : st.dhrPub with _ | pub
      · rw [hpub] at h
        cases h
      · rw [hpub] at h
        simp only at h ⊢
        obtain ⟨hpopped, rfl⟩ := Prod.mk.inj h
        rw [skipLoopTraced_eq]
        exact ⟨skipLoop_skipped _ _ _ _, by rw [← hpopped]⟩

lemma traces_skipMessageKeys (until_ : ℕ) :
    Method.Traces MAX_SKIP (skipMessageKeysTraced P until_)
      (skipMessageKeys (X := X) P until_) := by
  intro st trace
  unfold skipMessageKeysTraced skipMessageKeys
  rw [Method.self_bind, Method.self_bind]
  cases st.ckr with
  | none =>
    simp only
    split_ifs
    · exact ((Method.Traces.raise _).mono (Nat.zero_le _)) st trace
    · exact ((Method.Traces.pure _).mono (Nat.zero_le _)) st trace
  | some ckr =>
    simp only
    split_ifs with hlimit
    · exact ((Method.Traces.raise _).mono (Nat.zero_le _)) st trace
    · cases st.dhrPub with
      | none => exact ((Method.Traces.raise _).mono (Nat.zero_le _)) st trace
      | some dhrPub =>
        refine ⟨storedEvents (keysOn P dhrPub ckr st.nr (until_ - st.nr)), ?_, ?_⟩
        · unfold storedEvents keysOn
          rw [List.length_map, List.length_map, List.length_range]
          exact not_lt.mp hlimit
        · exact skipLoopTraced_eq _ _ _ _ _

omit [DecidableEq β] in
lemma traces_decryptCurrent (header : MessageHeader β) (ct ad : Bytes β) :
    Method.Traces 1 (decryptCurrentTraced P header ct ad)
      (decryptCurrent (X := X) P header ct ad) := by
  intro st trace
  rcases hckr : st.ckr with _ | ckr
  · refine ⟨[], Nat.zero_le _, ?_⟩
    unfold decryptCurrentTraced decryptCurrent
    rw [Method.self_bind, Method.self_bind]
    simp only [hckr, List.append_nil]
    rfl
  · refine ⟨[.tried], Nat.le_refl _, ?_⟩
    unfold decryptCurrentTraced
    rw [Method.self_bind]
    simp only [hckr]
    rfl

lemma traces_beginChain (header : MessageHeader β) (fresh : X) :
    Method.Traces MAX_SKIP (beginChainTraced P header fresh) (beginChain P header fresh) := by
  intro st trace
  unfold beginChainTraced beginChain
  rw [Method.self_bind, Method.self_bind]
  simp only
  split_ifs
  · exact ((traces_skipMessageKeys header.pn).bind fun popped =>
      (Method.Traces.beside _).bind fun _ => Method.Traces.pure popped) st trace
  · exact ((Method.Traces.pure _).mono (Nat.zero_le _)) st trace

lemma traces_trial (header : MessageHeader β) (ct ad : Bytes β) (fresh : X) :
    Method.Traces (2 * MAX_SKIP + 1) (trialTraced P header ct ad fresh)
      (trial P header ct ad fresh) :=
  ((traces_beginChain header fresh).bind fun _ =>
    (traces_skipMessageKeys header.n).bind fun _ =>
      (traces_decryptCurrent header ct ad).bind fun _ => Method.Traces.pure _).mono
    (by omega)

/-- The traced call is the call, and it traces few events. -/
lemma traces_decrypt (header : MessageHeader β) (ct ad : Bytes β) (fresh : X) :
    Method.Traces (2 * MAX_SKIP + 1) (decryptTraced P header ct ad fresh)
      (decrypt P header ct ad fresh) := by
  intro st trace
  unfold decryptTraced decrypt
  rcases htry : trySkipped P header ct ad st with ⟨e | _ | pt, st'⟩
  · have htraced : trySkippedTraced P header ct ad (st, trace) = (.error e, (st', trace)) := by
      unfold trySkippedTraced Method.beside
      rw [Method.bind_apply, Method.onField_apply, htry]
    rw [Method.bind_of_error htraced, Method.bind_of_error htry]
    exact ⟨[], Nat.zero_le _, by rw [List.append_nil]⟩
  · have htraced : trySkippedTraced P header ct ad (st, trace) = (.ok none, (st', trace)) := by
      unfold trySkippedTraced Method.beside
      rw [Method.bind_apply, Method.onField_apply, htry]
      rfl
    rw [Method.bind_of_ok htraced, Method.bind_of_ok htry]
    simp only [Method.self_bind]
    obtain ⟨events, hlen, htrial⟩ := traces_trial (P := P) header ct ad fresh st' trace
    rw [htrial]
    rcases trial P header ct ad fresh st' with ⟨e | ⟨pt, popped⟩, st''⟩
    · exact ⟨events, hlen, rfl⟩
    · exact ⟨events, hlen, rfl⟩
  · have htraced : trySkippedTraced P header ct ad (st, trace) =
        (.ok (some pt), (st', trace ++ [.spent (header.ratchetPub, header.n)])) := by
      unfold trySkippedTraced Method.beside
      rw [Method.bind_apply, Method.onField_apply, htry]
      rfl
    rw [Method.bind_of_ok htraced, Method.bind_of_ok htry]
    exact ⟨[.spent (header.ratchetPub, header.n)], Nat.succ_le_succ (Nat.zero_le _), rfl⟩

/-! ## What an accepted message stores -/

section Accepted

variable {st st' : DoubleRatchet β X} {header : MessageHeader β} {ct ad mk pt : Bytes β}
  {fresh : X} {popped : List (Bytes β × ℕ)}

omit [DecidableEq β] in
lemma decryptCurrentTraced_of_opens {ck : Bytes β} (hck : st.ckr = some ck)
    (hopen : openWith P (kdfCk P ck).2 header ct ad = .ok pt) (trace : List (KeyEvent β)) :
    decryptCurrentTraced P header ct ad (st, trace) =
      (.ok pt, (advanceReceiving P ck st, trace ++ [.tried])) := by
  have hcurrent : decryptCurrent P header ct ad st = (.ok pt, advanceReceiving P ck st) :=
    decryptCurrent_ok_iff.mpr ⟨ck, hck, hopen, rfl⟩
  unfold decryptCurrentTraced
  rw [Method.self_bind]
  simp only [hck]
  rw [Method.emit, Method.update_bind, Method.beside, Method.onField_apply, hcurrent]

lemma beginChainTraced_of_known (hpub : st.dhrPub = some header.ratchetPub)
    (trace : List (KeyEvent β)) :
    beginChainTraced P header fresh (st, trace) = (.ok [], (st, trace)) := by
  unfold beginChainTraced
  rw [Method.self_bind, if_neg (not_not.mpr hpub.symm)]
  rfl

/-- A DH step keeps the keys of the chain that it closes. -/
lemma beginChainTraced_of_new {old : DoubleRatchet β X}
    (hpub : st.dhrPub ≠ some header.ratchetPub)
    (hold : skipMessageKeys P header.pn st = (.ok popped, old))
    (hstep : dhRatchet P header fresh old = (.ok (), stepped P header.ratchetPub fresh old))
    (trace : List (KeyEvent β)) :
    old.skipped = storeAll st.skipped (closes P st header) ∧
      beginChainTraced P header fresh (st, trace) =
        (.ok popped, (stepped P header.ratchetPub fresh old,
          trace ++ storedEvents (closes P st header))) := by
  obtain ⟨entries, hentries, hskipped, htraced⟩ := skipMessageKeysTraced_of_ok hold trace
  obtain rfl : entries = closes P st header := hentries
  refine ⟨hskipped, ?_⟩
  unfold beginChainTraced
  rw [Method.self_bind, if_pos (Ne.symm hpub), Method.bind_of_ok htraced, Method.beside,
    Method.bind_apply, Method.onField_apply, hstep]
  rfl

/-- The keys that a message on a chain has stored, and what its call traces. -/
lemma Decrypts.skipped (h : Decrypts P st header ct ad fresh mk pt st' popped)
    (hget : st.skipped.get? (header.ratchetPub, header.n) = none) :
    st'.skipped = storeAll st.skipped (skips P st header) ∧
      trialTraced P header ct ad fresh (st, []) =
        (.ok (pt, popped), (st', storedEvents (skips P st header) ++ [.tried])) := by
  unfold trialTraced
  cases h with
  | stored hsome => cases hget.symm.trans hsome
  | current _ hpub hskip hck hopen =>
    obtain ⟨entries, hentries, hskipped, htraced⟩ := skipMessageKeysTraced_of_ok hskip []
    have hskips : skips P st header = entries := by
      unfold skips
      rw [if_pos hpub, hentries, hpub]
      cases st.ckr <;> rfl
    rw [hskips, Method.bind_of_ok (beginChainTraced_of_known hpub []),
      Method.bind_of_ok htraced, Method.bind_of_ok (decryptCurrentTraced_of_opens hck hopen _)]
    exact ⟨hskipped, rfl⟩
  | newChain _ hpub hold hstep hskip hck hopen =>
    obtain ⟨hclosed, hbegin⟩ := beginChainTraced_of_new hpub hold hstep []
    obtain ⟨entries, hentries, hskipped, htraced⟩ :=
      skipMessageKeysTraced_of_ok hskip ([] ++ storedEvents (closes P st header))
    -- the chain that starts is the one of the state before the old one was closed
    obtain ⟨hrk, -, hpriv⟩ := frame_skipMessageKeys hold
    have hskips : skips P st header = closes P st header ++ entries := by
      unfold skips
      rw [if_neg hpub, hentries]
      simp only [stepped]
      rw [hrk, hpriv, Nat.sub_zero]
    rw [hskips, storeAll_append, ← hclosed, Method.bind_of_ok hbegin, Method.bind_of_ok htraced,
      Method.bind_of_ok (decryptCurrentTraced_of_opens hck hopen _)]
    refine ⟨hskipped, ?_⟩
    unfold storedEvents
    rw [List.map_append, List.nil_append]
    rfl

/-- Skipping moves the receiving chain on, within the limit. -/
lemma ckr_skipMessageKeys {until_ : ℕ} {ckr : Bytes β}
    (h : skipMessageKeys P until_ st = (.ok popped, st')) (hckr : st.ckr = some ckr) :
    until_ - st.nr ≤ MAX_SKIP ∧ st'.ckr = some (chainKey P ckr (until_ - st.nr)) := by
  rcases skipMessageKeys_ok h with ⟨hnone, -⟩ | ⟨ck, dhrPub, hck, -, hlimit, hskipped⟩
  · cases hckr.symm.trans hnone
  · obtain rfl := Option.some.inj (hckr.symm.trans hck)
    rw [hskipped.frame]
    exact ⟨hlimit, rfl⟩

/-- A message that is accepted on a chain is acceptable. -/
lemma Decrypts.acceptable (h : Decrypts P st header ct ad fresh mk pt st' popped)
    (hget : st.skipped.get? (header.ratchetPub, header.n) = none) :
    Acceptable P st header ct ad fresh := by
  cases h with
  | stored hsome => cases hget.symm.trans hsome
  | current _ hpub hskip hck hopen =>
    rcases hckr : st.ckr with _ | ckr
    · -- without a chain nothing is skipped, and there is still none
      rcases skipMessageKeys_ok hskip with ⟨-, -, -, rfl⟩ | ⟨ck, -, hsome, -⟩
      · cases hckr.symm.trans hck
      · cases hckr.symm.trans hsome
    · obtain ⟨hlimit, hmid⟩ := ckr_skipMessageKeys hskip hckr
      obtain rfl := Option.some.inj (hck.symm.trans hmid)
      refine ⟨?_, fun hne => absurd hpub hne, _, pt, ?_, hopen⟩
      · unfold WithinLimit
        rwa [if_pos hpub]
      · unfold headerKey
        rw [if_pos hpub, hckr]
        rfl
  | newChain _ hpub hold hstep hskip hck hopen =>
    obtain ⟨hrk, -, hpriv⟩ := frame_skipMessageKeys hold
    obtain ⟨hlen, hours, hfresh, -⟩ := dhRatchet_ok_iff.mp hstep
    rw [hpriv] at hours
    obtain ⟨hlimit, hmid⟩ := ckr_skipMessageKeys hskip rfl
    obtain rfl := Option.some.inj (hck.symm.trans hmid)
    refine ⟨?_, fun _ => ⟨hlen, hours, hfresh⟩, _, pt, ?_, hopen⟩
    · unfold WithinLimit
      rw [if_neg hpub]
      refine ⟨hlimit, ?_⟩
      rcases skipMessageKeys_ok hold with ⟨hnone, hzero, -⟩ | ⟨ck, dhrPub, hsome, -, hlimit', -⟩
      · rwa [if_pos hnone]
      · rwa [if_neg (by simp [hsome])]
    · unfold headerKey
      rw [if_neg hpub, ← hrk, ← hpriv]
      rfl

/-- The chain that an accepted message leaves. -/
lemma Decrypts.chain (h : Decrypts P st header ct ad fresh mk pt st' popped)
    (hget : st.skipped.get? (header.ratchetPub, header.n) = none) :
    st'.dhrPub = some header.ratchetPub ∧ st'.ckr ≠ none ∧
      (st.dhrPub ≠ some header.ratchetPub → st'.nr = header.n + 1) := by
  cases h with
  | stored hsome => cases hget.symm.trans hsome
  | current _ hpub hskip hck hopen =>
    refine ⟨(dhrPub_skipMessageKeys hskip).1.trans hpub, ?_, fun hne => absurd hpub hne⟩
    simp [advanceReceiving]
  | newChain _ hpub hold hstep hskip hck hopen =>
    refine ⟨(dhrPub_skipMessageKeys hskip).1, by simp [advanceReceiving], fun _ => ?_⟩
    rcases skipMessageKeys_ok hskip with ⟨hnone, -⟩ | ⟨ck, dhrPub, -, -, -, hskipped⟩
    · cases hnone
    · show DoubleRatchet.nr _ + 1 = _
      rw [hskipped.frame]
      simp [stepped]

/-- A message that is acceptable and has no stored key is accepted. -/
lemma Advances.decrypts (h : Advances P st header ct ad fresh) (hknown : PeerKnown st) :
    ∃ mk pt st' popped, Decrypts P st header ct ad fresh mk pt st' popped := by
  obtain ⟨hget, hlimit, hsecrets, msgKey, pt, hkey, hopen⟩ := h
  unfold WithinLimit at hlimit
  unfold headerKey at hkey
  by_cases hpub : st.dhrPub = some header.ratchetPub
  · rw [if_pos hpub] at hlimit hkey
    obtain ⟨ckr, hckr, rfl⟩ := Option.map_eq_some_iff.mp hkey
    obtain ⟨mid, popped, hskip⟩ := skipMessageKeys_of_some (P := P) hckr hpub hlimit
    exact ⟨_, pt, _, popped, .current hget hpub hskip (ckr_skipMessageKeys hskip hckr).2 hopen⟩
  · rw [if_neg hpub] at hlimit hkey
    obtain rfl := Option.some.inj hkey
    obtain ⟨hlen, hours, hfresh⟩ := hsecrets hpub
    -- the rest of the old chain is skipped first, if there is one
    have hold : ∃ old popped, skipMessageKeys P header.pn st = (.ok popped, old) := by
      rcases hckr : st.ckr with _ | ckr
      · rw [if_pos hckr] at hlimit
        rw [hlimit.2]
        exact ⟨st, [], skipMessageKeys_of_none hckr⟩
      · rw [if_neg (by simp [hckr])] at hlimit
        obtain ⟨old, hold⟩ := Option.ne_none_iff_exists'.mp (hknown (by simp [hckr]))
        exact skipMessageKeys_of_some hckr hold hlimit.2
    obtain ⟨old, popped, hold⟩ := hold
    obtain ⟨hrk, -, hpriv⟩ := frame_skipMessageKeys hold
    rw [← hpriv] at hours
    have hstep := dhRatchet_ok_iff.mpr ⟨hlen, hours, hfresh, rfl⟩
    have hskip : ∃ mid popped', skipMessageKeys P header.n
        (stepped P header.ratchetPub fresh old) = (.ok popped', mid) :=
      skipMessageKeys_of_some rfl rfl hlimit.1
    obtain ⟨mid, popped', hskip⟩ := hskip
    rw [← hrk, ← hpriv] at hopen
    exact ⟨_, pt, _, _,
      .newChain hget hpub hold hstep hskip (ckr_skipMessageKeys hskip rfl).2 hopen⟩

/-- A call that returns either spends a stored key, or the message advances the ratchet and the
keys that it skips are stored. -/
lemma decrypt_stores (h : decrypt P header ct ad fresh st = (.ok pt, st')) :
    (st.skipped.get? (header.ratchetPub, header.n) ≠ none ∧
      st'.skipped = st.skipped.erase (header.ratchetPub, header.n) ∧
      decryptTraced P header ct ad fresh (st, []) =
        (.ok pt, (st', [.spent (header.ratchetPub, header.n)]))) ∨
    (Advances P st header ct ad fresh ∧ st'.skipped = storeAll st.skipped (skips P st header) ∧
      decryptTraced P header ct ad fresh (st, []) =
        (.ok pt, (st', storedEvents (skips P st header) ++ [.tried]))) := by
  obtain ⟨mk, hd⟩ := decrypt_ok_iff.mp h
  -- a stored key is spent, and no other one is touched
  rcases hget : st.skipped.get? (header.ratchetPub, header.n) with _ | msgKey
  · obtain ⟨hskipped, htraced⟩ := hd.skipped hget
    refine Or.inr ⟨⟨hget, hd.acceptable hget⟩, hskipped, ?_⟩
    have htry : trySkippedTraced P header ct ad (st, ([] : List (KeyEvent β))) =
        (.ok none, (st, [])) := by
      unfold trySkippedTraced Method.beside
      rw [Method.bind_apply, Method.onField_apply, trySkipped_of_none ct ad hget]
      rfl
    unfold decryptTraced
    rw [Method.bind_of_ok htry]
    simp only [Method.self_bind, htraced]
    rfl
  · generalize decryptEvicts P header ct ad fresh st = evicts at hd
    cases hd with
    | stored hget' hopen =>
      refine Or.inl ⟨by simp, rfl, ?_⟩
      unfold decryptTraced trySkippedTraced Method.beside
      rw [Method.bind_apply, Method.bind_apply, Method.onField_apply,
        trySkipped_of_opens hget' hopen]
      rfl
    | current hnone => cases hget.symm.trans hnone
    | newChain hnone => cases hget.symm.trans hnone

end Accepted

/-! ## The cap on all keys -/

omit [Alphabet β] in
lemma length_storeAll_le {skipped : OrderedDict (Bytes β × ℕ) (Bytes β)}
    (h : skipped.length ≤ MAX_SKIPPED_KEYS) (entries : List ((Bytes β × ℕ) × Bytes β)) :
    (storeAll skipped entries).length ≤ MAX_SKIPPED_KEYS := by
  induction entries generalizing skipped with
  | nil => exact h
  | cons entry entries ih =>
    rw [storeAll_cons]
    exact ih (OrderedDict.length_evictOldest_le _ _)

omit [Alphabet β] in
lemma mem_keys_storeAll {skipped : OrderedDict (Bytes β × ℕ) (Bytes β)}
    {entries : List ((Bytes β × ℕ) × Bytes β)} {name : Bytes β × ℕ}
    (h : name ∈ (storeAll skipped entries).keys) :
    name ∈ skipped.keys ∨ name ∈ entries.map Prod.fst := by
  induction entries generalizing skipped with
  | nil => exact Or.inl h
  | cons entry entries ih =>
    rw [storeAll_cons] at h
    rw [List.map_cons, List.mem_cons]
    rcases ih h with h | h
    · obtain ⟨value, hmem⟩ := OrderedDict.mem_keys_iff.mp h
      rcases OrderedDict.mem_set.mp (OrderedDict.mem_of_mem_evictOldest hmem) with
        ⟨rfl, -⟩ | ⟨-, hmem⟩
      · exact Or.inr (Or.inl rfl)
      · exact Or.inl (OrderedDict.mem_keys_iff.mpr ⟨value, hmem⟩)
    · exact Or.inr (Or.inr h)

omit [Alphabet β] in
/-- Assignments to new names leave the newest keys, in the order of the assignments. -/
lemma storeAll_of_new {skipped : OrderedDict (Bytes β × ℕ) (Bytes β)}
    {entries : List ((Bytes β × ℕ) × Bytes β)} (hnodup : (entries.map Prod.fst).Nodup)
    (hnew : ∀ entry ∈ entries, entry.1 ∉ skipped.keys) :
    (storeAll skipped entries).entries =
      (storedEvents entries).foldl WatchedRatchet.remember skipped.entries := by
  induction entries generalizing skipped with
  | nil => rfl
  | cons entry entries ih =>
    rw [List.map_cons, List.nodup_cons] at hnodup
    have hentry := hnew entry List.mem_cons_self
    have hfilter : skipped.entries.filter (fun e => e.1 ≠ entry.1) = skipped.entries := by
      apply List.filter_eq_self.mpr
      intro e he
      have hne : e.1 ≠ entry.1 := fun heq => hentry (heq ▸ List.mem_map_of_mem he)
      simpa using hne
    have hfirst : ((skipped.set entry.1 entry.2).evictOldest MAX_SKIPPED_KEYS).entries =
        WatchedRatchet.remember skipped.entries (.stored entry.1 entry.2) := by
      unfold OrderedDict.evictOldest WatchedRatchet.remember OrderedDict.length
      simp only
      rw [OrderedDict.entries_set_of_not_mem hentry, hfilter]
    unfold storedEvents
    rw [storeAll_cons, List.map_cons, List.foldl_cons, ← hfirst]
    apply ih hnodup.2
    intro e he hmem
    -- the name is one of the dictionary or the one just assigned
    have hmem' : e.1 ∈ (storeAll skipped [entry]).keys := by
      rw [storeAll_cons]
      exact hmem
    rcases mem_keys_storeAll hmem' with hmem' | hmem'
    · exact hnew e (List.mem_cons_of_mem _ he) hmem'
    · rw [List.map_singleton, List.mem_singleton] at hmem'
      exact hnodup.1 (hmem' ▸ List.mem_map_of_mem he)

/-! ## Names -/

omit [DecidableEq β] in
lemma mem_keysOn {pub ck : Bytes β} {nr count : ℕ} {entry : (Bytes β × ℕ) × Bytes β}
    (h : entry ∈ keysOn P pub ck nr count) :
    entry.1.1 = pub ∧ nr ≤ entry.1.2 ∧ entry.1.2 < nr + count := by
  obtain ⟨i, hi, rfl⟩ := List.mem_map.mp h
  rw [List.mem_range] at hi
  exact ⟨rfl, Nat.le_add_right _ _, by simpa using hi⟩

omit [DecidableEq β] in
lemma nodup_keysOn (pub ck : Bytes β) (nr count : ℕ) :
    ((keysOn P pub ck nr count).map Prod.fst).Nodup := by
  unfold keysOn
  rw [List.map_map]
  refine List.Nodup.map (fun i j hij => ?_) List.nodup_range
  simpa using hij

/-- No name is among the skipped ones twice: the two chains have different ratchet keys. -/
lemma nodup_skips (st : DoubleRatchet β X) (header : MessageHeader β) :
    ((skips P st header).map Prod.fst).Nodup := by
  unfold skips
  split_ifs with hpub
  · cases st.ckr with
    | none => exact List.nodup_nil
    | some ckr => exact nodup_keysOn _ _ _ _
  · rw [List.map_append, List.nodup_append]
    unfold closes
    rcases hold : st.dhrPub with _ | old
    · exact ⟨List.nodup_nil, nodup_keysOn _ _ _ _, fun a ha => (nomatch ha)⟩
    · cases st.ckr with
      | none => exact ⟨List.nodup_nil, nodup_keysOn _ _ _ _, fun a ha => (nomatch ha)⟩
      | some ckr =>
        refine ⟨nodup_keysOn _ _ _ _, nodup_keysOn _ _ _ _, fun a ha b hb heq => ?_⟩
        obtain ⟨e, he, rfl⟩ := List.mem_map.mp ha
        obtain ⟨e', he', rfl⟩ := List.mem_map.mp hb
        have hsame : old = header.ratchetPub := by
          rw [← (mem_keysOn he).1, heq, (mem_keysOn he').1]
        exact hpub (by rw [hold, hsame])

end DoubleRatchet

end Chatbit
