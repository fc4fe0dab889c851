import Mathlib.Data.List.Dedup
import Mathlib.Data.List.Perm.Subperm
import Chatbit.Crypto.Symbolic
import Chatbit.Crypto.SkippedKeysTheorems

/-!
# The stored keys after any run

Whatever arrives, a ratchet keeps the cap on all keys, its receiving chain has a known peer key,
and a call takes few chain steps. The stored keys are the newest ones as long as the peer does not
return to an old ratchet key and has a name assigned twice (`stored_keys_of_run`). The limit for one
ratchet key is on the keys that one message skips, so it limits what a call adds, and what is stored
only if the gaps are counted together or the chains are short (`stored_per_key_of_run`).
-/

namespace Chatbit

open Lib

variable {β X E : Type} [Alphabet β] [DecidableEq β] {P : Primitives β X E}

namespace DoubleRatchet

/-! ## One call -/

variable {st st' : DoubleRatchet β X} {header : MessageHeader β} {ct ad : Bytes β} {fresh : X}

lemma Constructed.start (h : Constructed P st) : st.skipped = .empty ∧ st.ckr = none := by
  rcases h with ⟨sharedKey, peerRatchetPub, dhs, h⟩ | ⟨sharedKey, ratchetPrivate, h⟩
  · unfold initSender at h
    by_cases hlen : sharedKey.length ≠ 32
    · rw [if_pos hlen] at h
      cases h
    · rw [if_neg hlen] at h
      simp only [bind, Except.bind, pure, Except.pure] at h
      split at h
      · cases h
      · split at h
        · cases h
        · obtain rfl := Except.ok.inj h
          exact ⟨rfl, rfl⟩
  · unfold initReceiver at h
    split_ifs at h
    obtain rfl := Except.ok.inj h
    exact ⟨rfl, rfl⟩

/-- What holds of the stored keys in every state. -/
structure Capped (st : DoubleRatchet β X) : Prop where
  length_le : st.skipped.length ≤ MAX_SKIPPED_KEYS
  known : PeerKnown st

lemma Constructed.capped (h : Constructed P st) : Capped st := by
  obtain ⟨hskipped, hckr⟩ := h.start
  refine ⟨?_, fun hne => absurd hckr hne⟩
  rw [hskipped]
  exact Nat.zero_le _

omit [DecidableEq β] in
lemma skipped_encrypt (st : DoubleRatchet β X) (pt ad : Bytes β) :
    (encrypt P pt ad st).2.skipped = st.skipped := by
  rcases hcks : st.cks with _ | cks
  · rw [encrypt_of_none hcks]
  · rw [encrypt_snd_of_some hcks]
    rfl

lemma Capped.apply (h : Capped st) (call : RatchetCall β X) : Capped (call.apply P st) := by
  cases call with
  | encrypt pt ad =>
    refine ⟨?_, h.known.encrypt pt ad⟩
    show (encrypt P pt ad st).2.skipped.length ≤ _
    rw [skipped_encrypt]
    exact h.length_le
  | decrypt header ct ad fresh =>
    show Capped (decrypt P header ct ad fresh st).2
    rcases hdecrypt : decrypt P header ct ad fresh st with ⟨e | pt, st'⟩
    · rw [decrypt_error hdecrypt]
      exact h
    · refine ⟨?_, h.known.decrypt hdecrypt⟩
      rcases decrypt_stores hdecrypt with ⟨-, hskipped, -⟩ | ⟨-, hskipped, -⟩
      · rw [hskipped]
        exact (List.length_filter_le _ _).trans h.length_le
      · rw [hskipped]
        exact length_storeAll_le h.length_le _

/-! ## The assertion -/

omit [DecidableEq β] in
lemma openWith_ne_assertion (mk : Bytes β) (header : MessageHeader β) (ct ad : Bytes β) :
    openWith P mk header ct ad ≠ .error .assertionError := by
  unfold openWith MessageHeader.encode intToBytes Primitives.aeadDecrypt
  simp only [bind, Except.bind]
  split_ifs <;> simp only [ne_eq, reduceCtorEq, not_false_eq_true, Except.error.injEq]
  split <;> simp

omit [Alphabet β] [DecidableEq β] in
lemma trialError_eq_assertion {e : Exc β} (h : trialError e = .assertionError) :
    e = .assertionError := by
  cases e <;> simp_all [trialError]

/-- With a known peer the assertion of `_skip_message_keys` holds. -/
lemma decrypt_ne_assertion (hknown : PeerKnown st) (header : MessageHeader β) (ct ad : Bytes β)
    (fresh : X) : (decrypt P header ct ad fresh st).1 ≠ .error .assertionError := by
  intro hassert
  rcases hget : st.skipped.get? (header.ratchetPub, header.n) with _ | mk
  · unfold decrypt at hassert
    rw [Method.bind_of_ok (trySkipped_of_none ct ad hget)] at hassert
    simp only [Method.self_bind] at hassert
    rcases htrial : trial P header ct ad fresh st with ⟨e | ⟨pt, popped⟩, st₁⟩
    · rw [htrial] at hassert
      obtain rfl := trialError_eq_assertion (Except.error.inj hassert)
      -- each part of the `try` block raises something else
      unfold trial at htrial
      rcases Method.bind_error.mp htrial with hbegin | ⟨popped, st₂, hbegin, htrial⟩
      · obtain ⟨msg, hmsg⟩ := beginChain_error hknown hbegin
        cases hmsg
      rcases Method.bind_error.mp htrial with hskip | ⟨popped', st₃, -, htrial⟩
      · obtain ⟨msg, hmsg⟩ := skipMessageKeys_error (hknown.beginChain hbegin) hskip
        cases hmsg
      rcases Method.bind_error.mp htrial with hcurrent | ⟨pt, st₄, -, hreturn⟩
      · unfold decryptCurrent at hcurrent
        rw [Method.self_bind] at hcurrent
        cases hckr : st₃.ckr with
        | none =>
          rw [hckr] at hcurrent
          cases hcurrent
        | some ckr =>
          rw [hckr] at hcurrent
          rcases Method.bind_error.mp hcurrent with hopen | ⟨pt, st₄, -, hreturn⟩
          · exact openWith_ne_assertion _ _ _ _ (Prod.mk.inj hopen).1
          · cases hreturn
      · cases hreturn
    · rw [htrial] at hassert
      cases hassert
  · rcases ho : openWith P mk header ct ad with e | pt
    · have htry : ∃ e', trySkipped P header ct ad st = (.error e', st) ∧ e' ≠ .assertionError := by
        have hne := openWith_ne_assertion (P := P) mk header ct ad
        rw [ho] at hne
        unfold trySkipped
        rw [Method.self_bind]
        simp only [hget, ho]
        cases e <;> first | exact absurd rfl hne | exact ⟨_, rfl, by simp⟩
      obtain ⟨e', htry, hne⟩ := htry
      unfold decrypt at hassert
      rw [Method.bind_of_error htry] at hassert
      exact hne (Except.error.inj hassert)
    · unfold decrypt at hassert
      rw [Method.bind_of_ok (trySkipped_of_opens hget ho)] at hassert
      cases hassert

/-! ## Visits of a peer -/

/-- What a peer that knows the keys sends under a header. -/
def sealFor (P : Primitives β X E) (st : DoubleRatchet β X) (header : MessageHeader β) : Bytes β :=
  match headerKey P st header, header.encode with
  | some msgKey, .ok encoded =>
    P.chachaEncrypt (messageKeys P msgKey).1 (messageKeys P msgKey).2 [] encoded
  | _, _ => []

/-- Message `n` under the ratchet key `peer`, which closes no other message of the chain before. -/
def visit (P : Primitives β X E) (st : DoubleRatchet β X) (peer : X) (n : ℕ) (fresh : X) :
    RatchetCall β X :=
  let header : MessageHeader β := ⟨P.x25519PublicBytes peer, 0, n⟩
  .decrypt header (sealFor P st header) [] fresh

/-- The calls that visit so one after the other. -/
def visits (P : Primitives β X E) : DoubleRatchet β X → List (X × ℕ × X) → List (RatchetCall β X)
  | _, [] => []
  | st, (peer, n, fresh) :: rest =>
    visit P st peer n fresh :: visits P ((visit P st peer n fresh).apply P st) rest

omit [DecidableEq β] in
lemma length_keysOn (pub ck : Bytes β) (nr count : ℕ) :
    (keysOn P pub ck nr count).length = count := by
  unfold keysOn
  rw [List.length_map, List.length_range]

/-- A visit to a new ratchet key closes nothing and skips the keys before the message. -/
lemma skips_visit {peer : X} (h : st.dhrPub ≠ some (P.x25519PublicBytes peer)) (n : ℕ) :
    ∃ ck, skips P st ⟨P.x25519PublicBytes peer, 0, n⟩ =
      keysOn P (P.x25519PublicBytes peer) ck 0 n := by
  have hcloses : closes P st ⟨P.x25519PublicBytes peer, 0, n⟩ = [] := by
    unfold closes
    split
    · rw [Nat.zero_sub, keysOn_zero]
    · rfl
  unfold skips
  rw [if_neg h, hcloses, List.nil_append]
  exact ⟨_, rfl⟩

/-- The watched call leaves the ratchet as the call does. -/
lemma ratchet_apply (w : WatchedRatchet β X) (call : RatchetCall β X) :
    (w.apply P call).ratchet = call.apply P w.ratchet := by
  cases call with
  | encrypt pt ad => rfl
  | decrypt header ct ad fresh =>
    unfold WatchedRatchet.apply RatchetCall.apply
    obtain ⟨events, -, htraced⟩ := traces_decrypt (P := P) header ct ad fresh w.ratchet []
    simp only [htraced]
    rcases decrypt P header ct ad fresh w.ratchet with ⟨e | pt, st⟩ <;> rfl

/-- A visit to a watched ratchet. -/
def watchVisit (P : Primitives β X E) (w : WatchedRatchet β X) (v : X × ℕ × X) :
    WatchedRatchet β X :=
  w.apply P (visit P w.ratchet v.1 v.2.1 v.2.2)

lemma foldl_visits (w : WatchedRatchet β X) (vs : List (X × ℕ × X)) :
    (visits P w.ratchet vs).foldl (WatchedRatchet.apply P) w = vs.foldl (watchVisit P) w := by
  induction vs generalizing w with
  | nil => rfl
  | cons v vs ih =>
    rw [visits, List.foldl_cons, List.foldl_cons, ← ratchet_apply]
    exact ih _

section Visits

variable (hP : P.Correct) (peer : X) (n : ℕ) (fresh : X)

include hP

/-- A visit within the limit advances the ratchet. -/
lemma advances_visit (hn : n < 256 ^ 4)
    (hlimit : WithinLimit st ⟨P.x25519PublicBytes peer, 0, n⟩)
    (hchain : st.dhrPub = some (P.x25519PublicBytes peer) → st.ckr ≠ none)
    (hget : (P.x25519PublicBytes peer, n) ∉ st.skipped.keys) :
    Advances P st ⟨P.x25519PublicBytes peer, 0, n⟩
      (sealFor P st ⟨P.x25519PublicBytes peer, 0, n⟩) [] fresh := by
  refine ⟨OrderedDict.get?_eq_none_iff.mpr hget, hlimit, fun _ => ⟨hP.length_x25519Public peer,
    hP.exchange_ne_zero _ _, hP.exchange_ne_zero _ _⟩, ?_⟩
  have hkey : ∃ msgKey, headerKey P st ⟨P.x25519PublicBytes peer, 0, n⟩ = some msgKey := by
    unfold headerKey
    split_ifs with hpub
    · obtain ⟨ckr, hckr⟩ := Option.ne_none_iff_exists'.mp (hchain hpub)
      exact ⟨_, by rw [hckr]; rfl⟩
    · exact ⟨_, rfl⟩
  obtain ⟨msgKey, hkey⟩ := hkey
  have hencode : (MessageHeader.mk (P.x25519PublicBytes peer) 0 n).encode = .ok _ :=
    MessageHeader.encode_ok_iff.mpr ⟨Nat.pow_pos (by decide), hn, rfl⟩
  refine ⟨msgKey, [], hkey, (openWith_ok_iff hP).mpr ⟨_, hencode, ?_⟩⟩
  rw [hP.decrypt_eq_some_iff]
  unfold sealFor
  rw [hkey, hencode]
  rfl

/-- What a visit that advances the ratchet leaves. -/
lemma apply_visit {w : WatchedRatchet β X} (hknown : PeerKnown w.ratchet) (hn : n < 256 ^ 4)
    (hlimit : WithinLimit w.ratchet ⟨P.x25519PublicBytes peer, 0, n⟩)
    (hchain : w.ratchet.dhrPub = some (P.x25519PublicBytes peer) → w.ratchet.ckr ≠ none)
    (hget : (P.x25519PublicBytes peer, n) ∉ w.ratchet.skipped.keys) :
    ∃ st', w.apply P (visit P w.ratchet peer n fresh) =
        ⟨st', (storedEvents (skips P w.ratchet ⟨P.x25519PublicBytes peer, 0, n⟩)).foldl
          WatchedRatchet.remember w.recent⟩ ∧
      st'.skipped = storeAll w.ratchet.skipped
        (skips P w.ratchet ⟨P.x25519PublicBytes peer, 0, n⟩) ∧
      st'.dhrPub = some (P.x25519PublicBytes peer) ∧ st'.ckr ≠ none ∧
      (w.ratchet.dhrPub ≠ some (P.x25519PublicBytes peer) → st'.nr = n + 1) := by
  have hadvances : Advances P w.ratchet _ _ [] fresh :=
    advances_visit hP peer n fresh hn hlimit hchain hget
  obtain ⟨mk, pt, st', popped, hd⟩ := hadvances.decrypts hknown
  obtain ⟨hpub, hckr, hnr⟩ := hd.chain hadvances.1
  refine ⟨st', ?_, (hd.skipped hadvances.1).1, hpub, hckr, hnr⟩
  rcases decrypt_stores (decrypt_of_decrypts hd) with ⟨hsome, -⟩ | ⟨-, -, htraced⟩
  · exact absurd hadvances.1 hsome
  · unfold WatchedRatchet.apply visit
    simp only [htraced, List.foldl_append]
    rfl

/-- A visit to a new ratchet key stores the keys before the message. -/
lemma apply_visit_new {w : WatchedRatchet β X} (hknown : PeerKnown w.ratchet)
    (hpub : w.ratchet.dhrPub ≠ some (P.x25519PublicBytes peer)) (hn : n ≤ MAX_SKIP)
    (hget : (P.x25519PublicBytes peer, n) ∉ w.ratchet.skipped.keys) :
    ∃ ck st', w.apply P (visit P w.ratchet peer n fresh) =
        ⟨st', (storedEvents (keysOn P (P.x25519PublicBytes peer) ck 0 n)).foldl
          WatchedRatchet.remember w.recent⟩ ∧
      st'.skipped = storeAll w.ratchet.skipped (keysOn P (P.x25519PublicBytes peer) ck 0 n) ∧
      st'.dhrPub = some (P.x25519PublicBytes peer) ∧ st'.ckr ≠ none ∧ st'.nr = n + 1 := by
  have hlimit : WithinLimit w.ratchet ⟨P.x25519PublicBytes peer, 0, n⟩ := by
    unfold WithinLimit
    rw [if_neg hpub]
    refine ⟨hn, ?_⟩
    split_ifs
    · rfl
    · exact (Nat.zero_sub _).trans_le (Nat.zero_le _)
  obtain ⟨st', happly, hskipped, hpub', hckr, hnr⟩ :=
    apply_visit hP peer n fresh hknown (hn.trans_lt (by decide)) hlimit
      (fun h => absurd h hpub) hget
  obtain ⟨ck, hskips⟩ := skips_visit hpub n
  rw [hskips] at happly hskipped
  exact ⟨ck, st', happly, hskipped, hpub', hckr, hnr hpub⟩

end Visits

/-- A receiver at its start. -/
def receiver : DoubleRatchet SymByte ℕ := { dhsPriv := 0, dhrPub := none, rk := zeros 32 }

lemma constructed_receiver : Constructed symbolic receiver := Or.inr ⟨zeros 32, 0, rfl⟩

lemma peerKnown_receiver : PeerKnown receiver := fun hne => absurd rfl hne

/-- The watched ratchet after some visits. -/
def visited (vs : List (ℕ × ℕ × ℕ)) : WatchedRatchet SymByte ℕ :=
  (visits symbolic receiver vs).foldl (WatchedRatchet.apply symbolic) ⟨receiver, []⟩

lemma visited_eq (vs : List (ℕ × ℕ × ℕ)) :
    visited vs = vs.foldl (watchVisit symbolic) ⟨receiver, []⟩ :=
  foldl_visits ⟨receiver, []⟩ vs

/-! ## The newest keys -/

/-- A call that assigns no stored name leaves the newest keys. -/
lemma recent_apply {w : WatchedRatchet β X} (h : w.ratchet.skipped.entries = w.recent)
    {call : RatchetCall β X} (hnew : StoresNew P w.ratchet call) :
    (w.apply P call).ratchet.skipped.entries = (w.apply P call).recent := by
  cases call with
  | encrypt pt ad =>
    show (encrypt P pt ad w.ratchet).2.skipped.entries = w.recent
    rw [skipped_encrypt, h]
  | decrypt header ct ad fresh =>
    unfold WatchedRatchet.apply
    simp only
    rcases hdecrypt : decrypt P header ct ad fresh w.ratchet with ⟨e | pt, st⟩
    · obtain ⟨events, -, htraced⟩ := traces_decrypt (P := P) header ct ad fresh w.ratchet []
      rw [hdecrypt] at htraced
      simp only [htraced]
      rw [decrypt_error hdecrypt, h]
    · rcases decrypt_stores hdecrypt with
        ⟨-, hskipped, htraced⟩ | ⟨hadvances, hskipped, htraced⟩
      · simp only [htraced]
        rw [hskipped, ← h]
        rfl
      · simp only [htraced]
        rw [hskipped, storeAll_of_new (nodup_skips _ _) (hnew hadvances), h, List.foldl_append]
        rfl

/-- After any run the caps hold, the assertion of `_skip_message_keys` holds in the next call, and
that call takes at most `2 * MAX_SKIP + 1` chain steps. If no message that advanced the ratchet
skipped a key under the name of a stored one, the stored keys are the newest ones. -/
theorem stored_keys_of_run {st₀ : DoubleRatchet β X} (hst₀ : Constructed P st₀)
    (calls : List (RatchetCall β X)) :
    let w := calls.foldl (WatchedRatchet.apply P) ⟨st₀, []⟩
    w.ratchet.skipped.length ≤ MAX_SKIPPED_KEYS ∧ PeerKnown w.ratchet ∧
      (∀ header ct ad fresh,
        let called := decrypt P header ct ad fresh w.ratchet
        called.1 ≠ .error .assertionError ∧
          ∃ events, decryptTraced P header ct ad fresh (w.ratchet, []) =
              (called.1, (called.2, events)) ∧
            (events.filter KeyEvent.isChainStep).length ≤ 2 * MAX_SKIP + 1) ∧
      (AdmitsAll (fun w call => StoresNew P w.ratchet call) (WatchedRatchet.apply P)
          ⟨st₀, []⟩ calls →
        w.ratchet.skipped.entries = w.recent) := by
  intro w
  -- the caps hold in every run, the order in those that store under new names
  have hcapped : Capped w.ratchet := by
    have hrun : Reaches (fun _ _ => True) (WatchedRatchet.apply P) ⟨st₀, []⟩ w :=
      (Reaches.refl _).foldl fun _ _ _ => trivial
    refine hrun.invariant (I := fun w => Capped w.ratchet) hst₀.capped fun u call hu _ => ?_
    rw [ratchet_apply]
    exact hu.apply call
  refine ⟨hcapped.length_le, hcapped.known, fun header ct ad fresh => ⟨?_, ?_⟩, fun hnew => ?_⟩
  · exact decrypt_ne_assertion hcapped.known header ct ad fresh
  · obtain ⟨events, hlen, htraced⟩ := traces_decrypt (P := P) header ct ad fresh w.ratchet []
    exact ⟨events, htraced, (List.length_filter_le _ _).trans hlen⟩
  · have hrun := (Reaches.refl (⟨st₀, []⟩ : WatchedRatchet β X)).run hnew
    refine hrun.invariant (I := fun w => w.ratchet.skipped.entries = w.recent) ?_
      fun u call hu hcall => recent_apply hu hcall
    show st₀.skipped.entries = []
    rw [hst₀.start.1]
    rfl

/-- A first visit stores under new names. -/
theorem stored_keys_of_visit :
    (visited [(1, 2, 10)]).ratchet.skipped.length ≤ MAX_SKIPPED_KEYS ∧
      (visited [(1, 2, 10)]).ratchet.skipped.entries = (visited [(1, 2, 10)]).recent := by
  obtain ⟨hlen, -, -, hnewest⟩ :=
    stored_keys_of_run constructed_receiver (visits symbolic receiver [(1, 2, 10)])
  refine ⟨hlen, hnewest ⟨?_, trivial⟩⟩
  exact fun _ _ _ => List.not_mem_nil

/-! ## A peer that returns -/

omit [Alphabet β] in
/-- Assignments to new names within the cap go to the end. -/
lemma storeAll_entries {skipped : OrderedDict (Bytes β × ℕ) (Bytes β)}
    {entries : List ((Bytes β × ℕ) × Bytes β)} (hnodup : (entries.map Prod.fst).Nodup)
    (hnew : ∀ entry ∈ entries, entry.1 ∉ skipped.keys)
    (hlen : skipped.length + entries.length ≤ MAX_SKIPPED_KEYS) :
    (storeAll skipped entries).entries = skipped.entries ++ entries := by
  induction entries generalizing skipped with
  | nil => exact (List.append_nil _).symm
  | cons entry entries ih =>
    rw [List.map_cons, List.nodup_cons] at hnodup
    rw [List.length_cons] at hlen
    have hentry := hnew entry List.mem_cons_self
    have hset := OrderedDict.entries_set_of_not_mem hentry entry.2
    have hlength : (skipped.set entry.1 entry.2).length = skipped.length + 1 := by
      rw [OrderedDict.length_set, if_neg hentry]
    rw [storeAll_cons, OrderedDict.evictOldest_of_le (by omega), ih hnodup.2 ?_ (by omega), hset,
      List.append_assoc]
    · rfl
    · intro e he hmem
      have hmem' : e.1 ∈ skipped.keys ++ [entry.1] := by
        unfold OrderedDict.keys at hmem
        rwa [hset, List.map_append] at hmem
      rcases List.mem_append.mp hmem' with hmem' | hmem'
      · exact hnew e (List.mem_cons_of_mem _ he) hmem'
      · rw [List.mem_singleton] at hmem'
        exact hnodup.1 (hmem' ▸ List.mem_map_of_mem he)

omit [Alphabet β] in
/-- Assignments to names that are stored move nothing. -/
lemma storeAll_keys {skipped : OrderedDict (Bytes β × ℕ) (Bytes β)}
    {entries : List ((Bytes β × ℕ) × Bytes β)} (hold : ∀ entry ∈ entries, entry.1 ∈ skipped.keys)
    (hlen : skipped.length ≤ MAX_SKIPPED_KEYS) :
    (storeAll skipped entries).keys = skipped.keys := by
  induction entries generalizing skipped with
  | nil => rfl
  | cons entry entries ih =>
    have hentry := hold entry List.mem_cons_self
    have hset := OrderedDict.keys_set_of_mem hentry entry.2
    have hlength : (skipped.set entry.1 entry.2).length = skipped.length := by
      rw [OrderedDict.length_set, if_pos hentry]
    rw [storeAll_cons, OrderedDict.evictOldest_of_le (by omega), ih ?_ (by omega), hset]
    intro e he
    rw [hset]
    exact hold e (List.mem_cons_of_mem _ he)

omit [Alphabet β] in
/-- A key is remembered until so many others have been stored. -/
lemma mem_foldl_remember {entry : (Bytes β × ℕ) × Bytes β}
    {entries : List ((Bytes β × ℕ) × Bytes β)} (hne : ∀ e ∈ entries, e.1 ≠ entry.1)
    (before after : List ((Bytes β × ℕ) × Bytes β))
    (hlen : after.length + entries.length < MAX_SKIPPED_KEYS) :
    entry ∈ (storedEvents entries).foldl WatchedRatchet.remember (before ++ entry :: after) := by
  induction entries generalizing before after with
  | nil => exact List.mem_append_right _ List.mem_cons_self
  | cons e entries ih =>
    rw [List.length_cons] at hlen
    have hkeep : entry.1 ≠ e.1 := (hne e List.mem_cons_self).symm
    have hafter : (after.filter fun e' => e'.1 ≠ e.1).length ≤ after.length :=
      List.length_filter_le _ _
    have hremember : ∃ before', WatchedRatchet.remember (before ++ entry :: after)
        (.stored e.1 e.2) =
          before' ++ entry :: ((after.filter fun e' => e'.1 ≠ e.1) ++ [(e.1, e.2)]) := by
      unfold WatchedRatchet.remember
      simp only
      rw [List.filter_append, List.filter_cons_of_pos (by simpa using hkeep), List.append_assoc,
        List.cons_append, List.drop_append_of_le_length]
      · exact ⟨_, rfl⟩
      · simp only [List.length_append, List.length_cons, List.length_nil]
        omega
    obtain ⟨before', hremember⟩ := hremember
    unfold storedEvents
    rw [List.map_cons, List.foldl_cons, hremember]
    apply ih fun e' he' => hne e' (List.mem_cons_of_mem _ he')
    rw [List.length_append, List.length_singleton]
    omega

omit [Alphabet β] in
/-- A key is the newest one when it is stored. -/
lemma remember_stored (recent : List ((Bytes β × ℕ) × Bytes β)) (name : Bytes β × ℕ)
    (msgKey : Bytes β) : ∃ before,
      WatchedRatchet.remember recent (.stored name msgKey) = before ++ [(name, msgKey)] := by
  unfold WatchedRatchet.remember
  simp only
  rw [List.drop_append_of_le_length]
  · exact ⟨_, rfl⟩
  · rw [List.length_append, List.length_singleton]
    unfold MAX_SKIPPED_KEYS
    omega

omit [Alphabet β] in
/-- A new key evicts the oldest of a full dictionary. -/
lemma evicts_first {skipped : OrderedDict (Bytes β × ℕ) (Bytes β)} {first name : Bytes β × ℕ}
    {rest : List (Bytes β × ℕ)} (hkeys : skipped.keys = first :: rest)
    (hlen : skipped.length = MAX_SKIPPED_KEYS) (hnew : name ∉ skipped.keys) (msgKey : Bytes β) :
    first ∉ ((skipped.set name msgKey).evictOldest MAX_SKIPPED_KEYS).keys := by
  have hlength : (skipped.set name msgKey).length - MAX_SKIPPED_KEYS = 1 := by
    rw [OrderedDict.length_set, if_neg hnew]
    omega
  have hdrop : ((skipped.set name msgKey).evictOldest MAX_SKIPPED_KEYS).keys = rest ++ [name] := by
    unfold OrderedDict.evictOldest OrderedDict.keys
    simp only
    rw [hlength, OrderedDict.entries_set_of_not_mem hnew, List.map_drop, List.map_append]
    show List.drop 1 (skipped.keys ++ [name]) = _
    rw [hkeys]
    rfl
  have hnodup := skipped.nodup_keys
  rw [hkeys, List.nodup_cons] at hnodup
  rw [hdrop, List.mem_append, List.mem_singleton, not_or]
  refine ⟨hnodup.1, fun heq => hnew ?_⟩
  rw [hkeys, ← heq]
  exact List.mem_cons_self

/-- The names of the keys that message 256 of a chain skips. -/
def gap (peer : ℕ) : List (Bytes SymByte × ℕ) :=
  (List.range 256).map fun i => (symbolic.x25519PublicBytes peer, i)

lemma map_fst_keysOn (peer : ℕ) (ck : Bytes SymByte) :
    (keysOn symbolic (symbolic.x25519PublicBytes peer) ck 0 256).map Prod.fst = gap peer := by
  unfold keysOn gap
  rw [List.map_map]
  exact List.map_congr_left fun i _ => by simp

lemma public_inj {peer peer' : ℕ}
    (h : symbolic.x25519PublicBytes peer = symbolic.x25519PublicBytes peer') : peer = peer' := by
  simpa using (SymByte.output_inj h).2

/-- The ratchet after message 256 of a chain under each of these keys, and no other message. -/
structure Visited (w : WatchedRatchet SymByte ℕ) (peers : List ℕ) : Prop where
  known : PeerKnown w.ratchet
  dhrPub : ∀ peer, w.ratchet.dhrPub = some (symbolic.x25519PublicBytes peer) →
    peers.getLast? = some peer
  keys : w.ratchet.skipped.keys = peers.flatMap gap

namespace Visited

variable {w : WatchedRatchet SymByte ℕ} {peers : List ℕ}

lemma mem_keys (h : Visited w peers) {peer n : ℕ} :
    (symbolic.x25519PublicBytes peer, n) ∈ w.ratchet.skipped.keys ↔ peer ∈ peers ∧ n < 256 := by
  rw [h.keys, List.mem_flatMap]
  unfold gap
  constructor
  · rintro ⟨peer', hpeer', hmem⟩
    obtain ⟨i, hi, heq⟩ := List.mem_map.mp hmem
    obtain ⟨hpub, rfl⟩ := Prod.mk.inj heq
    rw [← public_inj hpub]
    exact ⟨hpeer', List.mem_range.mp hi⟩
  · rintro ⟨hpeer, hn⟩
    exact ⟨peer, hpeer, List.mem_map.mpr ⟨n, List.mem_range.mpr hn, rfl⟩⟩

lemma length_keys (h : Visited w peers) :
    w.ratchet.skipped.length = peers.length * 256 := by
  rw [← OrderedDict.length_keys, h.keys, List.length_flatMap]
  simp [gap]

/-- One more ratchet key, with room for its gap. -/
lemma visit (h : Visited w peers) (peer fresh : ℕ) (hpeer : peer ∉ peers)
    (hlen : peers.length < 4) :
    Visited (watchVisit symbolic w (peer, 256, fresh)) (peers ++ [peer]) := by
  have hpub : w.ratchet.dhrPub ≠ some (symbolic.x25519PublicBytes peer) :=
    fun hpub => hpeer (List.mem_of_getLast? (h.dhrPub peer hpub))
  have hget : (symbolic.x25519PublicBytes peer, 256) ∉ w.ratchet.skipped.keys :=
    fun hmem => absurd (h.mem_keys.mp hmem).2 (lt_irrefl _)
  obtain ⟨ck, st', happly, hskipped, hpub', hckr, -⟩ :=
    apply_visit_new symbolic_correct peer 256 fresh h.known hpub (le_refl 256) hget
  unfold watchVisit
  rw [happly]
  refine ⟨fun _ => by simp [hpub'], fun peer' hpeer' => ?_, ?_⟩
  · have heq := public_inj (Option.some.inj (hpub'.symm.trans hpeer'))
    rw [heq, List.getLast?_append, List.getLast?_singleton, Option.some_or]
  · show st'.skipped.keys = _
    unfold OrderedDict.keys
    rw [hskipped, storeAll_entries (nodup_keysOn _ _ _ _), List.map_append, map_fst_keysOn,
      List.flatMap_append, ← h.keys]
    · simp [OrderedDict.keys]
    · intro entry hentry hmem
      rw [show entry.1 = (symbolic.x25519PublicBytes peer, entry.1.2) from
        Prod.ext (mem_keysOn hentry).1 rfl] at hmem
      exact hpeer (h.mem_keys.mp hmem).1
    · rw [length_keysOn, h.length_keys]
      unfold MAX_SKIPPED_KEYS
      omega

end Visited

/-- After four full gaps, a return to the first ratchet key stores its keys again in their old
places, and the next key that is stored evicts the first of them. -/
lemma Visited.returns {w : WatchedRatchet SymByte ℕ} (h : Visited w [1, 2, 3, 4]) (a b : ℕ) :
    (watchVisit symbolic (watchVisit symbolic w (1, 256, a)) (5, 1, b)).ratchet.skipped.entries ≠
      (watchVisit symbolic (watchVisit symbolic w (1, 256, a)) (5, 1, b)).recent := by
  have hpub : w.ratchet.dhrPub ≠ some (symbolic.x25519PublicBytes 1) := by
    intro hpub
    have hlast := h.dhrPub 1 hpub
    simp at hlast
  have hget : (symbolic.x25519PublicBytes 1, 256) ∉ w.ratchet.skipped.keys :=
    fun hmem => absurd (h.mem_keys.mp hmem).2 (lt_irrefl _)
  obtain ⟨ck, st₁, happly₁, hskipped₁, hpub₁, hckr₁, -⟩ :=
    apply_visit_new symbolic_correct 1 256 a h.known hpub (le_refl 256) hget
  have hkeys₁ : st₁.skipped.keys = w.ratchet.skipped.keys := by
    rw [hskipped₁, storeAll_keys]
    · intro entry hentry
      obtain ⟨hname, -, hlt⟩ := mem_keysOn hentry
      rw [show entry.1 = (symbolic.x25519PublicBytes 1, entry.1.2) from Prod.ext hname rfl]
      exact h.mem_keys.mpr ⟨by decide, by omega⟩
    · rw [h.length_keys]
      decide
  have hmem₅ : ∀ n, (symbolic.x25519PublicBytes 5, n) ∉ st₁.skipped.keys := by
    intro n hmem
    rw [hkeys₁] at hmem
    exact absurd (h.mem_keys.mp hmem).1 (by decide)
  have hpub₅ : st₁.dhrPub ≠ some (symbolic.x25519PublicBytes 5) := by
    intro hpub₅
    exact absurd (public_inj (Option.some.inj (hpub₁.symm.trans hpub₅))) (by decide)
  obtain ⟨ck', st₂, happly₂, hskipped₂, -⟩ :=
    apply_visit_new symbolic_correct 5 1 b
      (w := ⟨st₁, (storedEvents (keysOn symbolic (symbolic.x25519PublicBytes 1) ck 0 256)).foldl
        WatchedRatchet.remember w.recent⟩) (fun _ => by simp [hpub₁]) hpub₅ (by decide) (hmem₅ 1)
  unfold watchVisit
  simp only at happly₁ happly₂ hskipped₂ ⊢
  rw [happly₁]
  simp only
  rw [happly₂]
  simp only
  have hne : ∀ n, (symbolic.x25519PublicBytes 5, n) ≠ (symbolic.x25519PublicBytes 1, 0) :=
    fun n heq => absurd (public_inj (Prod.mk.inj heq).1) (by decide)
  -- the first key of the returning chain is among the newest
  have hrecent : ((symbolic.x25519PublicBytes 1, 0), (kdfCk symbolic ck).2) ∈
      (storedEvents (keysOn symbolic (symbolic.x25519PublicBytes 5) ck' 0 1)).foldl
        WatchedRatchet.remember
        ((storedEvents (keysOn symbolic (symbolic.x25519PublicBytes 1) ck 0 256)).foldl
          WatchedRatchet.remember w.recent) := by
    obtain ⟨before, hbefore⟩ := remember_stored w.recent (symbolic.x25519PublicBytes 1, 0)
      (kdfCk symbolic ck).2
    have hfirst : storedEvents (keysOn symbolic (symbolic.x25519PublicBytes 1) ck 0 256) =
        .stored (symbolic.x25519PublicBytes 1, 0) (kdfCk symbolic ck).2 :: storedEvents
          (keysOn symbolic (symbolic.x25519PublicBytes 1) (kdfCk symbolic ck).1 (0 + 1) 255) := by
      rw [keysOn_succ]
      unfold storedEvents
      rw [List.map_cons]
    rw [hfirst, List.foldl_cons, hbefore, ← List.foldl_append]
    unfold storedEvents
    rw [← List.map_append]
    apply mem_foldl_remember
    · intro e he
      rcases List.mem_append.mp he with he | he
      · have hlow := (mem_keysOn he).2.1
        intro heq
        rw [heq] at hlow
        exact Nat.not_succ_le_zero 0 hlow
      · rw [show e.1 = (symbolic.x25519PublicBytes 5, e.1.2) from Prod.ext (mem_keysOn he).1 rfl]
        exact hne e.1.2
    · rw [List.length_append, length_keysOn, length_keysOn]
      decide
  have hfull : st₁.skipped.length = MAX_SKIPPED_KEYS := by
    rw [← OrderedDict.length_keys, hkeys₁, OrderedDict.length_keys, h.length_keys]
    rfl
  have hhead : ∃ rest, st₁.skipped.keys = (symbolic.x25519PublicBytes 1, 0) :: rest := by
    rw [hkeys₁, h.keys, List.flatMap_cons]
    unfold gap
    rw [List.range_succ_eq_map]
    exact ⟨_, rfl⟩
  obtain ⟨rest, hhead⟩ := hhead
  -- and it has been evicted
  intro heq
  rw [← heq] at hrecent
  have hstored := OrderedDict.mem_keys_iff.mpr ⟨_, hrecent⟩
  rw [hskipped₂, keysOn_succ, keysOn_zero, storeAll_cons, storeAll_nil] at hstored
  exact evicts_first hhead hfull (hmem₅ 0) _ hstored

/-- Four ratchet keys with 256 skipped keys each, the first of them again, and a fifth. -/
def returning : List (ℕ × ℕ × ℕ) :=
  [(1, 256, 11), (2, 256, 12), (3, 256, 13), (4, 256, 14), (1, 256, 15), (5, 1, 16)]

/-- A peer that leaves 256 keys for each of four ratchet keys and returns to the first of them has
its 256 keys stored again, under the same names. The next key to be stored evicts one of these, and
older ones stay. -/
theorem returning_peer_evicts_newest :
    Constructed symbolic receiver ∧
      (visited returning).ratchet.skipped.entries ≠ (visited returning).recent := by
  refine ⟨constructed_receiver, ?_⟩
  have hstart : Visited ⟨receiver, []⟩ [] := ⟨peerKnown_receiver, fun _ h => (nomatch h), rfl⟩
  have hall := (((hstart.visit 1 11 (by decide) (by decide)).visit 2 12 (by decide)
    (by decide)).visit 3 13 (by decide) (by decide)).visit 4 14 (by decide) (by decide)
  have hne := hall.returns 15 16
  rw [visited_eq]
  unfold returning
  rw [List.foldl_cons, List.foldl_cons, List.foldl_cons, List.foldl_cons, List.foldl_cons,
    List.foldl_cons, List.foldl_nil]
  exact hne

/-! ## The keys of one ratchet key -/

/-- How many keys are stored for a ratchet key. -/
def storedFor (st : DoubleRatchet β X) (pub : Bytes β) : ℕ :=
  (st.skipped.keys.filter fun name => name.1 = pub).length

omit [Alphabet β] in
/-- A stored key that is used up. -/
lemma storedFor_erase_le {name : Bytes β × ℕ} (h : st'.skipped = st.skipped.erase name)
    (pub : Bytes β) : storedFor st' pub ≤ storedFor st pub := by
  unfold storedFor
  rw [h]
  exact ((List.filter_sublist.map Prod.fst).filter _).length_le

omit [Alphabet β] in
lemma storedFor_storeAll_le {entries : List ((Bytes β × ℕ) × Bytes β)} (pub : Bytes β)
    (h : st'.skipped = storeAll st.skipped entries) :
    storedFor st' pub ≤ ((st.skipped.keys ++ entries.map Prod.fst).dedup.filter fun name =>
      name.1 = pub).length := by
  unfold storedFor
  apply List.Subperm.length_le
  apply (st'.skipped.nodup_keys.filter _).subperm
  intro name hname
  rw [List.mem_filter] at hname ⊢
  refine ⟨List.mem_dedup.mpr (List.mem_append.mpr ?_), hname.2⟩
  rw [h] at hname
  exact mem_keys_storeAll hname.1

/-- The keys that one message skips for one ratchet key. The chain that it closes and the one that
it starts have different ones. -/
lemma WithinLimit.skips_le (h : WithinLimit st header) (pub : Bytes β) :
    (((skips P st header).map Prod.fst).filter fun name => name.1 = pub).length ≤ MAX_SKIP := by
  have hchain : ∀ {key ck : Bytes β} {nr count : ℕ}, count ≤ MAX_SKIP →
      (((keysOn P key ck nr count).map Prod.fst).filter fun name => name.1 = pub).length ≤
        MAX_SKIP := by
    intro key ck nr count hcount
    refine (List.length_filter_le _ _).trans ?_
    rw [List.length_map, length_keysOn]
    exact hcount
  have hother : ∀ {key ck : Bytes β} {nr count : ℕ}, key ≠ pub →
      ((keysOn P key ck nr count).map Prod.fst).filter (fun name => name.1 = pub) = [] := by
    intro key ck nr count hne
    apply List.filter_eq_nil_iff.mpr
    intro name hname
    obtain ⟨entry, hentry, rfl⟩ := List.mem_map.mp hname
    simpa [(mem_keysOn hentry).1] using hne
  unfold WithinLimit at h
  unfold skips
  by_cases hpub : st.dhrPub = some header.ratchetPub
  · rw [if_pos hpub] at h ⊢
    rcases st.ckr with _ | ckr
    · exact Nat.zero_le _
    · exact hchain h
  · rw [if_neg hpub] at h ⊢
    rw [List.map_append, List.filter_append, List.length_append]
    by_cases hsame : header.ratchetPub = pub
    · -- the chain that is closed is another one
      have hcloses : ((closes P st header).map Prod.fst).filter (fun name => name.1 = pub) = [] := by
        unfold closes
        rcases hold : st.dhrPub with _ | old
        · rfl
        rcases st.ckr with _ | ckr
        · rfl
        exact hother fun heq => hpub (by rw [hold, heq, hsame])
      rw [hcloses, List.length_nil, Nat.zero_add]
      exact hchain h.1
    · rw [hother hsame, List.length_nil, Nat.add_zero]
      unfold closes
      rcases st.dhrPub with _ | old
      · exact Nat.zero_le _
      rcases hckr : st.ckr with _ | ckr
      · exact Nat.zero_le _
      · rw [if_neg (by simp [hckr])] at h
        exact hchain h.2

/-- By how much a call may raise the number of keys that are stored for one ratchet key. -/
lemma storedFor_apply_le (st : DoubleRatchet β X) (call : RatchetCall β X) (pub : Bytes β) :
    storedFor (call.apply P st) pub ≤ storedFor st pub + MAX_SKIP := by
  cases call with
  | encrypt pt ad =>
    unfold storedFor
    show ((encrypt P pt ad st).2.skipped.keys.filter _).length ≤ _
    rw [skipped_encrypt]
    exact Nat.le_add_right _ _
  | decrypt header ct ad fresh =>
    show storedFor (decrypt P header ct ad fresh st).2 pub ≤ _
    rcases hdecrypt : decrypt P header ct ad fresh st with ⟨e | pt, st'⟩
    · rw [decrypt_error hdecrypt]
      exact Nat.le_add_right _ _
    · rcases decrypt_stores hdecrypt with ⟨-, hskipped, -⟩ | ⟨hadvances, hskipped, -⟩
      · exact (storedFor_erase_le hskipped pub).trans (Nat.le_add_right _ _)
      · refine (storedFor_storeAll_le pub hskipped).trans ?_
        refine ((List.dedup_sublist _).filter _).length_le.trans ?_
        rw [List.filter_append, List.length_append]
        exact Nat.add_le_add_left (hadvances.2.limit.skips_le pub) _

/-- In a run in which every message that advanced the ratchet counted what is stored for its
ratchet keys already, no ratchet key has more than `MAX_SKIP` keys. -/
lemma storedFor_le_of_storesFew {st₀ : DoubleRatchet β X} (hst₀ : Constructed P st₀)
    (h : Reaches (StoresFew P) (RatchetCall.apply P) st₀ st) (pub : Bytes β) :
    storedFor st pub ≤ MAX_SKIP := by
  refine h.invariant (I := fun st => ∀ pub, storedFor st pub ≤ MAX_SKIP) ?_ ?_ pub
  · intro pub
    unfold storedFor
    rw [hst₀.start.1]
    exact Nat.zero_le _
  · intro st call hfew hcall pub
    cases call with
    | encrypt pt ad =>
      unfold storedFor
      show ((encrypt P pt ad st).2.skipped.keys.filter _).length ≤ _
      rw [skipped_encrypt]
      exact hfew pub
    | decrypt header ct ad fresh =>
      show storedFor (decrypt P header ct ad fresh st).2 pub ≤ _
      rcases hdecrypt : decrypt P header ct ad fresh st with ⟨e | pt, st'⟩
      · rw [decrypt_error hdecrypt]
        exact hfew pub
      · rcases decrypt_stores hdecrypt with
          ⟨-, hskipped, -⟩ | ⟨hadvances, hskipped, -⟩
        · -- a stored key has been used up
          exact (storedFor_erase_le hskipped pub).trans (hfew pub)
        · exact (storedFor_storeAll_le pub hskipped).trans (hcall hadvances pub)

omit [Alphabet β] in
/-- Names with small numbers are few. -/
lemma storedFor_le_of_numbers {bound : ℕ} (h : ∀ name ∈ st.skipped.keys, name.2 < bound)
    (pub : Bytes β) : storedFor st pub ≤ bound := by
  have hnodup : ((st.skipped.keys.filter fun name => name.1 = pub).map Prod.snd).Nodup := by
    apply List.Nodup.map_on _ (st.skipped.nodup_keys.filter _)
    intro name hname name' hname' hnumber
    have hpub := of_decide_eq_true (List.mem_filter.mp hname).2
    have hpub' := of_decide_eq_true (List.mem_filter.mp hname').2
    exact Prod.ext (hpub.trans hpub'.symm) hnumber
  have hsub : (st.skipped.keys.filter fun name => name.1 = pub).map Prod.snd ⊆
      List.range bound := by
    intro number hmem
    obtain ⟨name, hname, rfl⟩ := List.mem_map.mp hmem
    exact List.mem_range.mpr (h name (List.mem_filter.mp hname).1)
  have hle := (hnodup.subperm hsub).length_le
  rwa [List.length_map, List.length_range] at hle

/-- No message that advances the ratchet counts a chain further than the limit. -/
def ShortChains (P : Primitives β X E) (st : DoubleRatchet β X) : RatchetCall β X → Prop
  | .encrypt _ _ => True
  | .decrypt header ct ad fresh =>
    Advances P st header ct ad fresh → header.n ≤ MAX_SKIP ∧ header.pn ≤ MAX_SKIP

lemma number_lt_of_skips {entry : (Bytes β × ℕ) × Bytes β} (h : entry ∈ skips P st header) :
    entry.1.2 < max header.n header.pn := by
  have hlt : ∀ {key ck : Bytes β} {nr n : ℕ}, entry ∈ keysOn P key ck nr (n - nr) →
      entry.1.2 < n := by
    intro key ck nr n hentry
    obtain ⟨-, hge, hlt⟩ := mem_keysOn hentry
    omega
  unfold skips at h
  by_cases hpub : st.dhrPub = some header.ratchetPub
  · rw [if_pos hpub] at h
    rcases hckr : st.ckr with _ | ckr
    · rw [hckr] at h
      exact absurd h List.not_mem_nil
    · rw [hckr] at h
      exact Nat.lt_of_lt_of_le (hlt h) (Nat.le_max_left _ _)
  · rw [if_neg hpub] at h
    rcases List.mem_append.mp h with h | h
    · unfold closes at h
      split at h
      · exact Nat.lt_of_lt_of_le (hlt h) (Nat.le_max_right _ _)
      · exact absurd h List.not_mem_nil
    · exact Nat.lt_of_lt_of_le (hlt h) (Nat.le_max_left _ _)

lemma storedFor_le_of_shortChains {st₀ : DoubleRatchet β X} (hst₀ : Constructed P st₀)
    (h : Reaches (ShortChains P) (RatchetCall.apply P) st₀ st) (pub : Bytes β) :
    storedFor st pub ≤ MAX_SKIP := by
  apply storedFor_le_of_numbers
  refine h.invariant (I := fun st => ∀ name ∈ st.skipped.keys, name.2 < MAX_SKIP) ?_ ?_
  · rw [hst₀.start.1]
    exact fun _ hname => absurd hname List.not_mem_nil
  · intro st call hnumbers hcall
    cases call with
    | encrypt pt ad =>
      show ∀ name ∈ (encrypt P pt ad st).2.skipped.keys, _
      rwa [skipped_encrypt]
    | decrypt header ct ad fresh =>
      show ∀ name ∈ (decrypt P header ct ad fresh st).2.skipped.keys, _
      rcases hdecrypt : decrypt P header ct ad fresh st with ⟨e | pt, st'⟩
      · rwa [decrypt_error hdecrypt]
      · intro name hname
        rcases decrypt_stores hdecrypt with ⟨-, hskipped, -⟩ | ⟨hadvances, hskipped, -⟩
        · rw [hskipped] at hname
          exact hnumbers name ((List.filter_sublist.map Prod.fst).subset hname)
        · rw [hskipped] at hname
          rcases mem_keys_storeAll hname with hname | hname
          · exact hnumbers name hname
          · obtain ⟨entry, hentry, rfl⟩ := List.mem_map.mp hname
            obtain ⟨hn, hpn⟩ := hcall hadvances
            exact (number_lt_of_skips hentry).trans_le (max_le hn hpn)

/-- The limit is on the gap of one message: no call adds more than `MAX_SKIP` keys for one ratchet
key. All that are stored for it are no more than that in a run in which every message that advances
the ratchet counts them together with those that it skips, or in which no chain is counted
further. -/
theorem stored_per_key_of_run {st₀ st : DoubleRatchet β X} (hst₀ : Constructed P st₀)
    (pub : Bytes β) :
    (∀ call : RatchetCall β X, storedFor (call.apply P st) pub ≤ storedFor st pub + MAX_SKIP) ∧
      (Reaches (StoresFew P) (RatchetCall.apply P) st₀ st → storedFor st pub ≤ MAX_SKIP) ∧
      (Reaches (ShortChains P) (RatchetCall.apply P) st₀ st → storedFor st pub ≤ MAX_SKIP) :=
  ⟨fun call => storedFor_apply_le st call pub, fun h => storedFor_le_of_storesFew hst₀ h pub,
    fun h => storedFor_le_of_shortChains hst₀ h pub⟩

/-- A first visit stores few keys, and a second one adds few. -/
theorem stored_per_key_of_visit :
    let st := (visit symbolic receiver 1 2 10).apply symbolic receiver
    storedFor st (symbolic.x25519PublicBytes 1) ≤ MAX_SKIP ∧
      storedFor ((visit symbolic st 1 7 11).apply symbolic st) (symbolic.x25519PublicBytes 1) ≤
        storedFor st (symbolic.x25519PublicBytes 1) + MAX_SKIP := by
  refine ⟨(stored_per_key_of_run constructed_receiver _).2.1 ((Reaches.refl receiver).tail ?_),
    (stored_per_key_of_run constructed_receiver _).1 _⟩
  intro _ pub
  have hne : receiver.dhrPub ≠ some (symbolic.x25519PublicBytes 1) := fun h => by cases h
  obtain ⟨ck, hskips⟩ := skips_visit hne 2
  rw [hskips]
  refine (List.length_filter_le _ _).trans ((List.dedup_sublist _).length_le.trans ?_)
  rw [List.length_append, List.length_map, length_keysOn]
  decide

/-- Message 256 of a chain skips 256 keys, and message 513 of the same chain skips as many again. -/
theorem stored_two_gaps :
    let calls := visits symbolic receiver [(1, 256, 10), (1, 513, 11)]
    Constructed symbolic receiver ∧
      storedFor (calls.foldl (RatchetCall.apply symbolic) receiver) (symbolic.x25519PublicBytes 1) =
        2 * MAX_SKIP := by
  refine ⟨constructed_receiver, ?_⟩
  obtain ⟨ck, st₁, happly₁, hskipped₁, hpub₁, hckr₁, hnr₁⟩ :=
    apply_visit_new symbolic_correct 1 256 10 (w := ⟨receiver, []⟩) peerKnown_receiver
      (fun h => by cases h) (le_refl 256)
      (show _ ∉ receiver.skipped.keys from List.not_mem_nil)
  have h₁ := (ratchet_apply _ _).symm.trans (congrArg WatchedRatchet.ratchet happly₁)
  have hentries₁ : st₁.skipped.entries =
      keysOn symbolic (symbolic.x25519PublicBytes 1) ck 0 256 := by
    rw [hskipped₁, storeAll_entries (nodup_keysOn _ _ _ _)]
    · rfl
    · exact fun _ _ => List.not_mem_nil
    · rw [length_keysOn]
      decide
  have hkeys₁ : ∀ name ∈ st₁.skipped.keys, name.2 < 256 := by
    intro name hname
    unfold OrderedDict.keys at hname
    rw [hentries₁] at hname
    obtain ⟨entry, hentry, rfl⟩ := List.mem_map.mp hname
    simpa using (mem_keysOn hentry).2.2
  -- the second message comes on the chain that the first one left at 257
  have hlimit₂ : WithinLimit st₁ ⟨symbolic.x25519PublicBytes 1, 0, 513⟩ := by
    unfold WithinLimit
    rw [if_pos hpub₁, hnr₁]
    decide
  obtain ⟨st₂, happly₂, hskipped₂, -⟩ :=
    apply_visit symbolic_correct 1 513 11 (w := ⟨st₁, []⟩) (fun _ => by simp [hpub₁])
      (by decide) hlimit₂ (fun _ => hckr₁) (fun h => absurd (hkeys₁ _ h) (by decide))
  have h₂ := (ratchet_apply _ _).symm.trans (congrArg WatchedRatchet.ratchet happly₂)
  obtain ⟨ck₁, hck₁⟩ := Option.ne_none_iff_exists'.mp hckr₁
  have hskips₂ : skips symbolic st₁ ⟨symbolic.x25519PublicBytes 1, 0, 513⟩ =
      keysOn symbolic (symbolic.x25519PublicBytes 1) ck₁ 257 256 := by
    unfold skips
    rw [if_pos hpub₁, hck₁]
    simp only [hnr₁]
  have hentries₂ : st₂.skipped.entries = keysOn symbolic (symbolic.x25519PublicBytes 1) ck 0 256 ++
      keysOn symbolic (symbolic.x25519PublicBytes 1) ck₁ 257 256 := by
    rw [hskipped₂, hskips₂, storeAll_entries (nodup_keysOn _ _ _ _), hentries₁]
    · intro entry hentry hmem
      have hlow := hkeys₁ _ hmem
      have hhigh := (mem_keysOn hentry).2.1
      omega
    · unfold OrderedDict.length
      rw [hentries₁, length_keysOn, length_keysOn]
      decide
  unfold visits visits visits
  rw [List.foldl_cons, List.foldl_cons, List.foldl_nil, h₁, h₂]
  unfold storedFor OrderedDict.keys
  rw [hentries₂, List.filter_eq_self.mpr, List.length_map, List.length_append, length_keysOn,
    length_keysOn]
  · rfl
  · intro name hname
    obtain ⟨entry, hentry, rfl⟩ := List.mem_map.mp hname
    rcases List.mem_append.mp hentry with hentry | hentry
    · simpa using (mem_keysOn hentry).1
    · simpa using (mem_keysOn hentry).1

end DoubleRatchet

end Chatbit
