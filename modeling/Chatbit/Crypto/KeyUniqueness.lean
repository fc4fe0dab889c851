import Chatbit.Lib.KeyChain
import Chatbit.Crypto.RatchetRunTheorems

/-!
# No key and nonce seals twice

`ChaCha20Poly1305` is broken by a second message under one nonce, and the nonce here is derived with
the key, so a run is safe if its message keys never repeat. The network may hand the parties
anything, and nothing is assumed of what opens: a sending chain starts from a secret of a key that
`keygen` has just handed out, so no chain that was started before gives its keys.
-/

namespace Chatbit

open Lib DoubleRatchet

variable {β X E : Type} [Alphabet β] [DecidableEq β] (P : Primitives β X E)

namespace RatchetRun

/-- The key that `keygen` has for a delivery is new: it handed out no such key before, and no
header that a side accepted carried one. -/
def Fresh (s : RatchetRun β X) : RatchetEvent β X → Prop
  | .encrypt _ _ _ => True
  | .deliver _ _ _ _ fresh =>
    P.x25519PublicBytes fresh ∉ s.minted ∧
      ∀ d ∈ s.accepted, d.header.ratchetPub ≠ P.x25519PublicBytes fresh

/-- `root` is the first key of a sending chain of the run: it comes from a secret of a key that
`keygen` handed out and of another such key or one that an accepted header carried. -/
def Origin (s : RatchetRun β X) (root : Bytes β) : Prop :=
  ∃ rk x raw, root = (kdfRk P rk (P.exchange x raw)).2 ∧ rk.length = 32 ∧
    P.x25519PublicBytes x ∈ s.minted ∧
    (raw ∈ s.minted ∨ ∃ d ∈ s.accepted, d.header.ratchetPub = raw)

/-- What every state of a run satisfies: the message keys in use and to come are all different, and
each belongs to a chain with an origin. -/
structure KeysApart (s : RatchetRun β X) : Prop where
  length_rk : ∀ side, (s.ratchet side).rk.length = 32
  chain : ∀ side cks, (s.ratchet side).cks = some cks →
    ∃ root n, s.Origin P root ∧ cks = chainKey P root n
  sent : ∀ m ∈ s.sent, ∃ root n, s.Origin P root ∧ m.msgKey = messageKey P root n
  noReuse : NoReuse (fun ck => (kdfCk P ck).1) (fun ck => (kdfCk P ck).2)
    (s.sent.map Sent.msgKey) fun side => (s.ratchet side).cks

variable {P} {s s' : RatchetRun β X}

omit [DecidableEq β] in
lemma Origin.mono (h : ∀ pub ∈ s.minted, pub ∈ s'.minted) (h' : ∀ d ∈ s.accepted, d ∈ s'.accepted)
    {root : Bytes β} (hroot : s.Origin P root) : s'.Origin P root := by
  obtain ⟨rk, x, raw, heq, hlen, hx, hraw⟩ := hroot
  exact ⟨rk, x, raw, heq, hlen, h _ hx,
    hraw.imp (h raw) fun ⟨d, hd, hpub⟩ => ⟨d, h' d hd, hpub⟩⟩

omit [DecidableEq β] in
/-- The secrets of a new key have started no chain, so its chains give no key of an old one. -/
lemma Origin.messageKey_ne (hP : P.Correct) (hH : P.HashIdeal) (hD : P.RawDhIdeal)
    {root rk raw : Bytes β} {fresh : X} (hroot : s.Origin P root) (hlen : rk.length = 32)
    (hminted : P.x25519PublicBytes fresh ∉ s.minted)
    (haccepted : ∀ d ∈ s.accepted, d.header.ratchetPub ≠ P.x25519PublicBytes fresh)
    (hz : P.exchange fresh raw ≠ zeros DHLEN) (n m : ℕ) :
    messageKey P (kdfRk P rk (P.exchange fresh raw)).2 n ≠ messageKey P root m := by
  obtain ⟨rk', x, raw', rfl, hlen', hx, hraw⟩ := hroot
  intro heq
  obtain ⟨-, hsecret⟩ := kdfRk_snd_inj hP hH hlen hlen' (messageKey_inj hP hH heq).1
  rcases hD.exchange_half _ _ _ _ hz hsecret with hpub | hpub
  · exact hminted (hpub ▸ hx)
  · rcases hraw with hraw | ⟨d, hd, hd'⟩
    · exact hminted (hpub ▸ hraw)
    · exact haccepted d hd (hd'.trans hpub.symm)

end RatchetRun

/-! ## One step -/

/-- A `decrypt` call keeps the sending chain, or starts it afresh from a secret of the new key. -/
lemma DoubleRatchet.Decrypts.sendingChain {P : Primitives β X E} (hP : P.Correct)
    {st st' : DoubleRatchet β X} {header : MessageHeader β} {ct ad mk pt : Bytes β} {fresh : X}
    {popped : List (Bytes β × ℕ)} (h : Decrypts P st header ct ad fresh mk pt st' popped) :
    st'.rk = st.rk ∧ st'.cks = st.cks ∨
      st'.rk.length = 32 ∧ P.exchange fresh header.ratchetPub ≠ zeros DHLEN ∧
        ∃ rk : Bytes β, rk.length = 32 ∧
          st'.cks = some (kdfRk P rk (P.exchange fresh header.ratchetPub)).2 := by
  cases h with
  | stored hget hopen => exact Or.inl ⟨rfl, rfl⟩
  | current hget hpub hskip hck hopen =>
    obtain ⟨hrk, hcks, -⟩ := frame_skipMessageKeys hskip
    exact Or.inl ⟨hrk, hcks⟩
  | newChain hget hpub hold hstep hskip hck hopen =>
    obtain ⟨hrk, hcks, -⟩ := frame_skipMessageKeys hskip
    obtain ⟨-, -, hz, -⟩ := dhRatchet_ok_iff.mp hstep
    refine Or.inr ⟨?_, hz, _, ?_, hcks⟩
    · exact (congrArg List.length hrk).trans (length_kdfRk_fst hP _ _)
    · exact length_kdfRk_fst hP _ _

omit [DecidableEq β] in
/-- The chain that a root KDF output starts never gives one message key twice. -/
lemma injective_messageKey {P : Primitives β X E} (hP : P.Correct) (hH : P.HashIdeal)
    (rk d : Bytes β) : Function.Injective (messageKey P (kdfRk P rk d).2) :=
  fun _ _ h => (messageKey_inj hP hH h).2

namespace RatchetRun

variable {P} {s : RatchetRun β X}

omit [Alphabet β] [DecidableEq β] in
lemma cks_update (s : RatchetRun β X) (side : Side) (st : DoubleRatchet β X) :
    (fun side' => (Function.update s.ratchet side st side').cks) =
      Function.update (fun side' => (s.ratchet side').cks) side st.cks := by
  funext side'
  by_cases h : side' = side
  · subst h
    simp
  · simp [Function.update_of_ne h]

omit [DecidableEq β] in
/-- The run after a side's sending chain has moved on by a message, which was sealed or not. -/
lemma KeysApart.advance (h : s.KeysApart P) {side : Side} {cks : Bytes β}
    (hcks : (s.ratchet side).cks = some cks) {sent : List (Sent β)}
    (hsent : sent = s.sent ∨ ∃ m, m.msgKey = (kdfCk P cks).2 ∧ sent = s.sent ++ [m]) :
    ({ s with
      ratchet := Function.update s.ratchet side (advanceSending P cks (s.ratchet side))
      sent := sent } : RatchetRun β X).KeysApart P := by
  obtain ⟨root, n, hroot, rfl⟩ := h.chain side cks hcks
  refine ⟨?_, ?_, ?_, ?_⟩
  · exact (Function.forall_update_iff s.ratchet fun _ st => st.rk.length = 32).mpr
      ⟨h.length_rk side, fun side' _ => h.length_rk side'⟩
  · refine (Function.forall_update_iff s.ratchet fun _ st => ∀ cks, st.cks = some cks →
      ∃ root n, s.Origin P root ∧ cks = chainKey P root n).mpr ⟨?_, fun side' _ => h.chain side'⟩
    intro cks' hcks'
    exact ⟨root, n + 1, hroot, by
      rw [chainKey_succ]
      exact (Option.some.inj hcks').symm⟩
  · rcases hsent with rfl | ⟨m, hm, rfl⟩
    · exact h.sent
    · intro m' hm'
      rcases List.mem_append.mp hm' with hm' | hm'
      · exact h.sent m' hm'
      · rw [List.mem_singleton.mp hm']
        exact ⟨root, n, hroot, hm⟩
  · change NoReuse _ _ _ fun side' => (Function.update s.ratchet side _ side').cks
    rw [cks_update]
    rcases hsent with rfl | ⟨m, hm, rfl⟩
    · exact h.noReuse.drop hcks
    · rw [List.map_append, List.map_singleton, hm]
      exact h.noReuse.take hcks

omit [DecidableEq β] in
/-- Sealing takes the next key of the side's chain. A call that raises, because a counter has left
its field, drops that key. -/
lemma KeysApart.encrypt (h : s.KeysApart P) (side : Side) (pt ad : Bytes β) :
    (s.afterEncrypt P side pt ad).KeysApart P := by
  rcases hcks : (s.ratchet side).cks with _ | cks
  · have hsame : s.afterEncrypt P side pt ad = s := by
      simp [afterEncrypt, encrypt_of_none hcks]
    rw [hsame]
    exact h
  · have hst := encrypt_snd_of_some (P := P) hcks pt ad
    have hkey : (s.ratchet side).sealingKey P = (kdfCk P cks).2 := by
      rw [sealingKey, hcks]
    rcases henc : DoubleRatchet.encrypt P pt ad (s.ratchet side) with ⟨err | ⟨header, ct⟩, st⟩
    · rw [henc] at hst
      obtain rfl : st = _ := hst
      rw [afterEncrypt, henc]
      exact h.advance hcks (Or.inl rfl)
    · rw [henc] at hst
      obtain rfl : st = _ := hst
      rw [afterEncrypt, henc]
      exact h.advance hcks (Or.inr ⟨_, hkey, rfl⟩)

omit [DecidableEq β] in
lemma KeysApart.mono (h : s.KeysApart P) {accepted : List (Accepted β)}
    {evicted : Side → List (Bytes β × ℕ)} {minted : List (Bytes β)}
    (haccepted : ∀ d ∈ s.accepted, d ∈ accepted) (hminted : ∀ pub ∈ s.minted, pub ∈ minted) :
    ({ s with accepted := accepted, evicted := evicted, minted := minted } :
      RatchetRun β X).KeysApart P := by
  refine ⟨h.length_rk, fun side cks hcks => ?_, fun m hm => ?_, h.noReuse⟩
  · obtain ⟨root, n, hroot, hn⟩ := h.chain side cks hcks
    exact ⟨root, n, hroot.mono hminted haccepted, hn⟩
  · obtain ⟨root, n, hroot, hn⟩ := h.sent m hm
    exact ⟨root, n, hroot.mono hminted haccepted, hn⟩

omit [DecidableEq β] in
/-- The run after a side has changed only what receiving uses. -/
lemma KeysApart.keep (h : s.KeysApart P) {side : Side} {st : DoubleRatchet β X}
    (hrk : st.rk = (s.ratchet side).rk) (hcks : st.cks = (s.ratchet side).cks) :
    ({ s with ratchet := Function.update s.ratchet side st } : RatchetRun β X).KeysApart P := by
  have hchains : (fun side' => (Function.update s.ratchet side st side').cks) =
      fun side' => (s.ratchet side').cks := by
    rw [cks_update, hcks]
    exact Function.update_eq_self side _
  refine ⟨?_, fun side' cks hcks' => ?_, h.sent, ?_⟩
  · exact (Function.forall_update_iff s.ratchet fun _ st => st.rk.length = 32).mpr
      ⟨hrk ▸ h.length_rk side, fun side' _ => h.length_rk side'⟩
  · exact h.chain side' cks ((congrFun hchains side').symm.trans hcks')
  · change NoReuse _ _ _ fun side' => (Function.update s.ratchet side st side').cks
    rw [hchains]
    exact h.noReuse

omit [DecidableEq β] in
/-- The run after a side has started a new sending chain. -/
lemma KeysApart.restart (hP : P.Correct) (hH : P.HashIdeal) (h : s.KeysApart P) {side : Side}
    {st : DoubleRatchet β X} {rk d : Bytes β} (hrk : st.rk.length = 32)
    (hcks : st.cks = some (kdfRk P rk d).2) (horigin : s.Origin P (kdfRk P rk d).2)
    (hsent : ∀ n, messageKey P (kdfRk P rk d).2 n ∉ s.sent.map Sent.msgKey)
    (hchain : ∀ side' cks, (s.ratchet side').cks = some cks →
      ∀ n m, messageKey P (kdfRk P rk d).2 n ≠ messageKey P cks m) :
    ({ s with ratchet := Function.update s.ratchet side st } : RatchetRun β X).KeysApart P := by
  refine ⟨?_, ?_, h.sent, ?_⟩
  · exact (Function.forall_update_iff s.ratchet fun _ st => st.rk.length = 32).mpr
      ⟨hrk, fun side' _ => h.length_rk side'⟩
  · refine (Function.forall_update_iff s.ratchet fun _ st => ∀ cks, st.cks = some cks →
      ∃ root n, s.Origin P root ∧ cks = chainKey P root n).mpr ⟨?_, fun side' _ => h.chain side'⟩
    intro cks hcks'
    exact ⟨_, 0, horigin, (Option.some.inj (hcks.symm.trans hcks')).symm⟩
  · change NoReuse _ _ _ fun side' => (Function.update s.ratchet side st side').cks
    rw [cks_update, hcks]
    exact h.noReuse.replace (injective_messageKey hP hH rk d) hsent
      fun side' cks _ hcks' => hchain side' cks hcks'

/-- A delivery seals nothing. If it changes the side's sending chain, the new one gives keys that
no other chain of the run gives. -/
lemma KeysApart.deliver (hP : P.Correct) (hH : P.HashIdeal) (hD : P.RawDhIdeal)
    (h : s.KeysApart P) (side : Side) (header : MessageHeader β) (ct ad : Bytes β) {fresh : X}
    (hfresh : s.Fresh P (.deliver side header ct ad fresh)) :
    (s.afterDeliver P side header ct ad fresh).KeysApart P := by
  obtain ⟨hminted, haccepted⟩ := hfresh
  have hmore : ∀ pub ∈ s.minted, pub ∈ P.x25519PublicBytes fresh :: s.minted :=
    fun _ => List.mem_cons_of_mem _
  rcases hdec : DoubleRatchet.decrypt P header ct ad fresh (s.ratchet side) with ⟨err | pt, st⟩
  · -- rejected: the trial copy is dropped
    obtain rfl := decrypt_error hdec
    rw [afterDeliver, hdec]
    exact (h.mono (fun _ => id) hmore).keep rfl rfl
  · obtain ⟨mk, hd⟩ := decrypt_ok_iff.mp hdec
    have hacc : ∀ d ∈ s.accepted, d ∈ s.accepted ++ [⟨side, header, ad, ct, pt⟩] :=
      fun _ => List.mem_append_left _
    rw [afterDeliver, hdec]
    rcases hd.sendingChain hP with ⟨hrk, hcks⟩ | ⟨hlen, hz, rk, hrk, hcks⟩
    · exact (h.mono hacc hmore).keep hrk hcks
    · refine (h.mono hacc hmore).restart hP hH hlen hcks ?_ (fun n hn => ?_)
        (fun side' cks hcks' n m => ?_)
      · exact ⟨rk, fresh, header.ratchetPub, rfl, hrk, List.mem_cons_self,
          Or.inr ⟨_, List.mem_append_right _ (List.mem_singleton_self _), rfl⟩⟩
      · obtain ⟨m, hm, heq⟩ := List.mem_map.mp hn
        obtain ⟨root, j, hroot, hj⟩ := h.sent m hm
        exact hroot.messageKey_ne hP hH hD hrk hminted haccepted hz n j (heq.symm.trans hj)
      · obtain ⟨root, j, hroot, rfl⟩ := h.chain side' cks hcks'
        rw [← messageKey_add]
        exact hroot.messageKey_ne hP hH hD hrk hminted haccepted hz n (j + m)

/-! ## Runs -/

/-- At the start only the initiator has a sending chain. -/
lemma keysApart_start (hP : P.Correct) (hH : P.HashIdeal) {k : Bytes β} {a r : X}
    {initiator responder : DoubleRatchet β X}
    (hsender : initSender P k (P.x25519PublicBytes r) a = .ok initiator)
    (hreceiver : initReceiver k r = .ok responder) :
    (start P a r initiator responder).KeysApart P := by
  obtain ⟨hk, rfl⟩ := initSender_ok hP hsender
  obtain ⟨-, rfl⟩ := initReceiver_ok hreceiver
  refine ⟨fun side => ?_, fun side cks hcks => ?_, fun m hm => (nomatch hm),
    List.nodup_nil, fun side cks hcks => ?_, fun _ _ _ _ => List.not_mem_nil,
    fun side side' cks cks' hne hcks hcks' => ?_⟩
  · cases side with
    | initiator => exact length_kdfRk_fst hP _ _
    | responder => exact hk
  · cases side with
    | initiator =>
      refine ⟨_, 0, ⟨k, a, P.x25519PublicBytes r, rfl, hk, ?_, Or.inl ?_⟩,
        (Option.some.inj hcks).symm⟩
      · exact List.mem_cons_of_mem _ (List.mem_singleton_self _)
      · exact List.mem_cons_self
    | responder => exact nomatch hcks
  · cases side with
    | initiator =>
      obtain rfl := Option.some.inj hcks
      exact injective_messageKey hP hH _ _
    | responder => exact nomatch hcks
  · cases side with
    | initiator => cases side' with
      | initiator => exact absurd rfl hne
      | responder => exact nomatch hcks'
    | responder => exact nomatch hcks

omit [DecidableEq β] in
/-- What a run has sealed, it has sealed under the key and nonce of the message key on record. -/
lemma sealed_afterEncrypt (hP : P.Correct) (side : Side) (pt ad : Bytes β)
    {m : Sent β} (hm : m ∈ (s.afterEncrypt P side pt ad).sent) :
    m ∈ s.sent ∨ ∃ encoded, m.header.encode = .ok encoded ∧
      m.ciphertext = P.chachaEncrypt (messageKeys P m.msgKey).1 (messageKeys P m.msgKey).2
        m.plaintext (m.ad ++ encoded) := by
  rcases henc : DoubleRatchet.encrypt P pt ad (s.ratchet side) with ⟨err | ⟨header, ct⟩, st⟩
  · rw [afterEncrypt, henc] at hm
    exact Or.inl hm
  · rw [afterEncrypt, henc] at hm
    rcases List.mem_append.mp hm with hm | hm
    · exact Or.inl hm
    · obtain ⟨cks, encoded, hcks, -, hencoded, -, hct⟩ := (encrypt_ok_iff hP).mp henc
      have hkey : (s.ratchet side).sealingKey P = (kdfCk P cks).2 := by
        rw [sealingKey, hcks]
      rw [List.mem_singleton.mp hm]
      exact Or.inr ⟨encoded, hencoded, hkey ▸ hct⟩

/-- In every run, whatever the network delivers and whichever calls raise, each message on record
was sealed under the AEAD key and nonce of its message key, and no two messages, of the same side
or of both, have the same key and nonce. -/
theorem sealed_once (hP : P.Correct) (hH : P.HashIdeal) (hD : P.RawDhIdeal) {k : Bytes β} {a r : X}
    {initiator responder : DoubleRatchet β X}
    (hsender : initSender P k (P.x25519PublicBytes r) a = .ok initiator)
    (hreceiver : initReceiver k r = .ok responder)
    (hs : Reaches (Fresh P) (step P) (start P a r initiator responder) s) :
    (∀ m ∈ s.sent, ∃ encoded, m.header.encode = .ok encoded ∧
      m.ciphertext = P.chachaEncrypt (messageKeys P m.msgKey).1 (messageKeys P m.msgKey).2
        m.plaintext (m.ad ++ encoded)) ∧
    (s.sent.map fun m => messageKeys P m.msgKey).Nodup := by
  constructor
  · refine hs.invariant (I := fun s => ∀ m ∈ s.sent, ∃ encoded, m.header.encode = .ok encoded ∧
      m.ciphertext = P.chachaEncrypt (messageKeys P m.msgKey).1 (messageKeys P m.msgKey).2
        m.plaintext (m.ad ++ encoded)) (fun m hm => (nomatch hm)) fun u e hu _ m hm => ?_
    cases e with
    | encrypt side pt ad => exact (sealed_afterEncrypt hP side pt ad hm).elim (hu m) id
    | deliver side header ct ad fresh => exact hu m hm
  · have hapart : s.KeysApart P := by
      refine hs.invariant (keysApart_start hP hH hsender hreceiver) fun u e hu he => ?_
      cases e with
      | encrypt side pt ad => exact hu.encrypt side pt ad
      | deliver side header ct ad fresh => exact hu.deliver hP hH hD side header ct ad he
    have hinj : Function.Injective (messageKeys P) :=
      fun _ _ h => messageKeys_fst_inj hP hH (congrArg Prod.fst h)
    have := hapart.noReuse.nodup.map hinj
    rwa [List.map_map] at this

/-- The initiator seals twice; the responder gets the first message, rejects a forgery and
answers. -/
def answering : List (RatchetEvent SymByte ℕ) :=
  [.encrypt .initiator (ascii "hello") (ascii "ad"),
    .encrypt .initiator (ascii "hello") (ascii "ad"),
    .deliver .responder hello.header hello.ciphertext hello.ad 2,
    .deliver .responder hello.header [] [] 3,
    .encrypt .responder (ascii "hello") (ascii "ad")]

/-- The three messages are sealed under different keys and nonces. -/
theorem sealed_once_answering :
    let s := answering.foldl (step symbolic) greetingStart
    s.sent.length = 3 ∧ s.accepted.length = 1 ∧
      (s.sent.map fun m => messageKeys symbolic m.msgKey).Nodup := by
  refine ⟨by decide +kernel, by decide +kernel, ?_⟩
  refine (sealed_once symbolic_correct symbolic_hashIdeal symbolic_rawDhIdeal (k := zeros 32)
    (a := 1) (r := 0) rfl rfl ((Reaches.refl _).run ?_)).2
  refine ⟨trivial, trivial, ⟨?_, ?_⟩, ⟨?_, ?_⟩, trivial, trivial⟩
  · decide +kernel
  · decide +kernel
  · decide +kernel
  · decide +kernel

end RatchetRun

end Chatbit
