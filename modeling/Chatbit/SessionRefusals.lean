import Chatbit.SessionTheorems

/-!
# How a handshake is refused

Between the read of message 2 or 3 and the end of `handle_response` or `handle_fin` there are
several places that raise. Those that come first delete the pending entry. Those that come later
leave it, with a handshake object that has moved on (`Ends.leaves`); the identity payload decides
which it is (`Accepts`, `RefusesLate`).
-/

namespace Chatbit

open Lib HandshakeState

variable {β X E : Type} [Alphabet β] [DecidableEq β] {P : Primitives β X E}

namespace SessionManager

/-! ## What a handler that raises leaves -/

/-- What a call that raises leaves of the entry under `hsId`: nothing that a later message
completes. The rest of the dictionaries stays. -/
structure Spoiled (hsId : Bytes β) (manager manager' : SessionManager β X E) : Prop where
  identity : manager'.identity = manager.identity
  sessions : manager'.sessions = manager.sessions
  others : ∀ k, k ≠ hsId → manager'.pending.get? k = manager.pending.get? k
  entry : ∀ p, manager'.pending.get? hsId = some p → p.Past

omit [Alphabet β] in
lemma Spoiled.of_erase (hsId : Bytes β) (manager : SessionManager β X E) :
    Spoiled hsId manager { manager with pending := manager.pending.erase hsId } where
  identity := rfl
  sessions := rfl
  others k hk := OrderedDict.get?_erase_of_ne _ hk
  entry p hp := by rw [OrderedDict.get?_erase_self] at hp; cases hp

omit [Alphabet β] in
lemma Spoiled.of_set (hsId : Bytes β) (manager : SessionManager β X E) (trust : TrustStore β)
    {pending : PendingHandshake β X} (h : pending.Past) :
    Spoiled hsId manager { manager with
      trust := trust, pending := manager.pending.set hsId pending } where
  identity := rfl
  sessions := rfl
  others k hk := OrderedDict.get?_set_of_ne _ _ hk
  entry p hp := by
    rw [OrderedDict.get?_set_self] at hp
    exact Option.some.inj hp ▸ h

/-- How a handler ends, for a message that it accepts, refuses late or refuses. -/
inductive Ends {α : Type} (hsId : Bytes β) (manager : SessionManager β X E) (accepts late : Prop) :
    Except (Exc β) α × SessionManager β X E → Prop
  | completes {a : α} {manager' : SessionManager β X E} (h : accepts) (hlate : ¬ late) :
    Ends hsId manager accepts late (.ok a, manager')
  | cleans {err : Exc β} (h : ¬ accepts) (hlate : ¬ late) :
    Ends hsId manager accepts late
      (.error err, { manager with pending := manager.pending.erase hsId })
  | leaves {err : Exc β} {trust' : TrustStore β} {p : PendingHandshake β X} (hlate : late)
    (hp : p.Past) :
    Ends hsId manager accepts late (.error err,
      { manager with trust := trust', pending := manager.pending.set hsId p })

omit [Alphabet β] in
lemma Ends.spoiled {α : Type} {hsId : Bytes β} {manager manager' : SessionManager β X E}
    {accepts late : Prop} {outcome : Except (Exc β) α × SessionManager β X E} {err : Exc β}
    (h : Ends hsId manager accepts late outcome) (hraises : outcome = (.error err, manager')) :
    Spoiled hsId manager manager' := by
  subst hraises
  cases h with
  | cleans => exact .of_erase hsId manager
  | leaves hlate hp => exact .of_set hsId manager _ hp

omit [Alphabet β] in
/-- A handler returns exactly on what it accepts. -/
lemma Ends.isOk_iff {α : Type} {hsId : Bytes β} {manager : SessionManager β X E}
    {accepts late : Prop} {outcome : Except (Exc β) α × SessionManager β X E}
    (h : Ends hsId manager accepts late outcome) (hexcl : accepts → ¬ late) :
    (∃ a, outcome.1 = .ok a) ↔ accepts := by
  cases h with
  | completes h => exact iff_of_true ⟨_, rfl⟩ h
  | cleans h => exact iff_of_false (by simp) h
  | leaves hlate => exact iff_of_false (by simp) fun h => hexcl h hlate

/-! ## What the identity payload decides -/

section Payload

variable (P : Primitives β X E) (trust : TrustStore β) (expectRatchet : Bool)
  (rs signedHash payload : Bytes β) (finishes : IdentityPayload β → Prop)

/-- The payload decodes, is signed and presents the pinned key if there is one, and what is left
to do can be done. -/
def Accepts : Prop :=
  match decodeIdentityPayload payload expectRatchet with
  | .error _ => False
  | .ok claim => P.verify claim.signingPub claim.signature (SIG_DOMAIN ++ signedHash) = true ∧
    trust.Compatible claim.signingPub rs ∧ finishes claim

/-- The payload is truncated, or it is signed and something after that fails. -/
def RefusesLate : Prop :=
  match decodeIdentityPayload payload expectRatchet with
  | .error _ => True
  | .ok claim => P.verify claim.signingPub claim.signature (SIG_DOMAIN ++ signedHash) = true ∧
    ¬ (trust.Compatible claim.signingPub rs ∧ finishes claim)

variable {P trust expectRatchet rs signedHash payload finishes}

/-- A payload that is accepted is not refused. -/
lemma Accepts.not_refusesLate (h : Accepts P trust expectRatchet rs signedHash payload finishes) :
    ¬ RefusesLate P trust expectRatchet rs signedHash payload finishes := by
  intro hlate
  rw [Accepts] at h
  rw [RefusesLate] at hlate
  rcases hdecode : decodeIdentityPayload payload expectRatchet with err | claim
  · rwa [hdecode] at h
  · rw [hdecode] at h hlate
    exact hlate.2 h.2

end Payload

section IdentifyPeer

variable {manager : SessionManager β X E} {hsId rs signedHash payload : Bytes β}
  {expectRatchet : Bool} {invalid : String} {now : ℚ} {pending pending' : PendingHandshake β X}
  {finishes : IdentityPayload β → Prop} {α : Type}
  {rest : PeerRef → IdentityPayload β → Method (Exc β) (SessionManager β X E) α}

/-- A message that has been read ends as its payload says, if what follows either completes or
raises and leaves the entry. -/
lemma identifyPeer_ends (hpast : pending'.Past)
    (hrest : ∀ ref claim trust', decodeIdentityPayload payload expectRatchet = .ok claim →
      TrustStore.observe P claim.signingPub rs claim.nickname now manager.trust =
        (.ok ref, trust') →
      let manager₁ := { manager with
        trust := trust', pending := manager.pending.set hsId pending' }
      (finishes claim ∧ ∃ a manager', rest ref claim manager₁ = (.ok a, manager')) ∨
      (¬ finishes claim ∧ ∃ err p, p.Past ∧ rest ref claim manager₁ = (.error err,
        { manager with trust := trust', pending := manager.pending.set hsId p }))) :
    Ends hsId manager (Accepts P manager.trust expectRatchet rs signedHash payload finishes)
      (RefusesLate P manager.trust expectRatchet rs signedHash payload finishes)
      (identifyPeer P hsId rs signedHash payload expectRatchet invalid now rest
        { manager with pending := manager.pending.set hsId pending' }) := by
  rw [Accepts, RefusesLate, identifyPeer]
  rcases hdecode : decodeIdentityPayload payload expectRatchet with err | claim
  · simp only [Method.bind_apply, Method.eval_apply]
    exact .leaves trivial hpast
  rw [Method.bind_of_ok (Method.eval_apply _ _)]
  by_cases hv : P.verify claim.signingPub claim.signature (SIG_DOMAIN ++ signedHash) = true
  swap
  · -- the one clean-up after the read
    rcases hverify : verifyPeer P hsId rs signedHash claim invalid
      { manager with pending := manager.pending.set hsId pending' } with ⟨err | peer, manager'⟩
    · rw [Method.bind_of_error hverify, verifyPeer_error hverify]
      simp only [OrderedDict.erase_set_self]
      exact .cleans (fun h => hv h.1) fun h => hv h.1
    · exact absurd (verifyPeer_ok_iff.mp hverify).1 hv
  rw [Method.bind_of_ok (verifyPeer_ok_iff.mpr ⟨hv, rfl, rfl⟩)]
  rcases hobserve : TrustStore.observe P claim.signingPub rs claim.nickname now manager.trust with
    ⟨err | ref, trust'⟩
  · obtain ⟨hc, -, rfl⟩ := TrustStore.observe_error hobserve
    simp only [pin, Method.bind_apply, Method.onField_apply, hobserve]
    exact .leaves ⟨hv, fun h => hc h.1⟩ hpast
  · have hc := TrustStore.compatible_of_observe hobserve
    rw [Method.bind_of_ok (pin_ok_iff.mpr ⟨trust', hobserve, rfl⟩)]
    rcases hrest ref claim trust' hdecode hobserve with ⟨hf, a, manager', h⟩ | ⟨hf, err, p, hp, h⟩
    · rw [h]
      exact .completes ⟨hv, hc, hf⟩ fun h => h.2 ⟨hc, hf⟩
    · rw [h]
      exact .leaves ⟨hv, fun h => hf h.2⟩ hp

/-- A message that cannot be read is refused in time, and otherwise its payload decides. -/
lemma readHandshake_ends {rejected : String} {pending : PendingHandshake β X}
    {read : Method (Exc β) (HandshakeState β X) (Bytes β × Bytes β × Bytes β)}
    {Reads : Bytes β → Bytes β → Bytes β → Prop}
    {rest : PendingHandshake β X → PeerRef → IdentityPayload β →
      Method (Exc β) (SessionManager β X E) α}
    (hReads : ∀ rs signedHash payload, Reads rs signedHash payload ↔
      ∃ hs, read pending.handshake = (.ok (rs, signedHash, payload), hs))
    (hcaught : ∀ err hs, read pending.handshake = (.error err, hs) →
      err.isNoiseOrValueError = true)
    (hread : ∀ rs signedHash payload hs,
      read pending.handshake = (.ok (rs, signedHash, payload), hs) →
      Ends hsId manager (Accepts P manager.trust expectRatchet rs signedHash payload finishes)
        (RefusesLate P manager.trust expectRatchet rs signedHash payload finishes)
        (identifyPeer P hsId rs signedHash payload expectRatchet invalid now
          (rest { pending with handshake := hs }) { manager with
            pending := manager.pending.set hsId { pending with handshake := hs } })) :
    Ends hsId manager
      (∃ rs signedHash payload, Reads rs signedHash payload ∧
        Accepts P manager.trust expectRatchet rs signedHash payload finishes)
      (∃ rs signedHash payload, Reads rs signedHash payload ∧
        RefusesLate P manager.trust expectRatchet rs signedHash payload finishes)
      ((readHandshake hsId pending rejected read >>= fun ((rs, signedHash, payload), pending) =>
        identifyPeer P hsId rs signedHash payload expectRatchet invalid now (rest pending))
          manager) := by
  rcases h : read pending.handshake with ⟨err | ⟨rs, signedHash, payload⟩, hs⟩
  · have hnot : ∀ rs signedHash payload, ¬ Reads rs signedHash payload := by
      intro rs signedHash payload hR
      obtain ⟨hs', h'⟩ := (hReads _ _ _).mp hR
      rw [h] at h'
      cases h'
    rw [Method.bind_of_error (readHandshake_of_error h (hcaught err hs h))]
    exact .cleans (fun ⟨_, _, _, hR, _⟩ => hnot _ _ _ hR) fun ⟨_, _, _, hR, _⟩ => hnot _ _ _ hR
  · -- there is one way to read it
    have hone : ∀ Q : Bytes β → Bytes β → Bytes β → Prop,
        (∃ rs signedHash payload, Reads rs signedHash payload ∧ Q rs signedHash payload) ↔
          Q rs signedHash payload := by
      intro Q
      constructor
      · rintro ⟨rs', signedHash', payload', hR, hQ⟩
        obtain ⟨hs', h'⟩ := (hReads _ _ _).mp hR
        rw [h] at h'
        obtain ⟨⟨rfl, rfl, rfl⟩, -⟩ := by simpa using h'
        exact hQ
      · exact fun hQ => ⟨_, _, _, (hReads _ _ _).mpr ⟨hs, h⟩, hQ⟩
    rw [Method.bind_of_ok (readHandshake_ok_iff.mpr ⟨hs, h, rfl, rfl⟩), hone, hone]
    exact hread rs signedHash payload hs h

end IdentifyPeer

/-! ## RESP -/

/-- What `read_message_2` returns to the initiator with ephemeral key `e`. -/
def ReadsResponse (P : Primitives β X E) (e : X) (body rs signedHash payload : Bytes β) : Prop :=
  ∃ re encS encPayload, body = re ++ encS ++ encPayload ∧ re.length = DHLEN ∧
    encS.length = DHLEN + TAGLEN ∧ Opens2 P PROLOGUE e re encS encPayload rs payload ∧
    signedHash = transcript P [PROLOGUE, P.x25519PublicBytes e, re, encS]

section Response

variable (P : Primitives β X E) (manager : SessionManager β X E) (e fresh : X) (body : Bytes β)

/-- `write_message_3` and `init_sender` return: neither key of the peer is of low order. -/
def FinishesResponse (claim : IdentityPayload β) : Prop :=
  P.exchange manager.identity.staticPrivate (body.take DHLEN) ≠ zeros DHLEN ∧
    ∃ pub, claim.ratchetPub = some pub ∧ P.exchange fresh pub ≠ zeros DHLEN

/-- The RESP completes the handshake of the initiator with ephemeral key `e`. -/
def CompletesResponse : Prop :=
  ∃ rs signedHash payload, ReadsResponse P e body rs signedHash payload ∧
    Accepts P manager.trust true rs signedHash payload (FinishesResponse P manager fresh body)

/-- It opens, and is refused after the last clean-up. -/
def RefusesResponseLate : Prop :=
  ∃ rs signedHash payload, ReadsResponse P e body rs signedHash payload ∧
    RefusesLate P manager.trust true rs signedHash payload (FinishesResponse P manager fresh body)

variable {P manager e fresh body}

lemma readsResponse_iff (hP : P.Correct) (s : X) {rs signedHash payload : Bytes β} :
    ReadsResponse P e body rs signedHash payload ↔
      ∃ hs, readMessage2 P body (sent1 P PROLOGUE s e) = (.ok (rs, signedHash, payload), hs) := by
  constructor
  · rintro ⟨re, encS, encPayload, hbody, hre, hS, hopens, rfl⟩
    exact ⟨_, (readMessage2_ok_iff hP).mpr
      ⟨re, encS, encPayload, hbody, hre, hS, hopens, rfl, rfl⟩⟩
  · rintro ⟨hs, hread⟩
    obtain ⟨re, encS, encPayload, hbody, hre, hS, hopens, rfl, -⟩ :=
      (readMessage2_ok_iff hP).mp hread
    exact ⟨re, encS, encPayload, hbody, hre, hS, hopens, rfl⟩

lemma CompletesResponse.not_refusesLate (hP : P.Correct)
    (h : CompletesResponse P manager e fresh body) : ¬ RefusesResponseLate P manager e fresh body := by
  obtain ⟨rs, signedHash, payload, hreads, haccepts⟩ := h
  rintro ⟨rs', signedHash', payload', hreads', hlate⟩
  -- there is one way to read it
  obtain ⟨hs, h⟩ := (readsResponse_iff hP manager.identity.staticPrivate).mp hreads
  obtain ⟨hs', h'⟩ := (readsResponse_iff hP manager.identity.staticPrivate).mp hreads'
  obtain ⟨⟨rfl, rfl, rfl⟩, -⟩ := by simpa using h.symm.trans h'
  exact haccepts.not_refusesLate hlate

variable {hsId : Bytes β} {pending : PendingHandshake β X} {now establishedAt : ℚ}

/-- The keys of an initiator can be made when the ratchet key of the responder is not of low
order. -/
lemma exists_finaliseKeys_initiator (hP : P.Correct) (hi : pending.initiator = true)
    {pair : CipherState β × CipherState β} (hsplit : pending.handshake.splitPair = some pair)
    {pub : Bytes β} (hpub : pub.length = PUBKEY_LEN) :
    (∃ keys, finaliseKeys P pending (some pub) fresh = .ok keys) ↔
      P.exchange fresh pub ≠ zeros DHLEN := by
  rw [← initSender_iff (length_rootKey hP pending.handshake.symmetric.ck
    pending.handshake.symmetric.h) hpub]
  constructor
  · rintro ⟨⟨ratchet, send, recv⟩, h⟩
    obtain ⟨pub', heq, h, -⟩ := (finaliseKeys_initiator hi hsplit).mp h
    obtain rfl := Option.some.inj heq
    exact ⟨ratchet, h⟩
  · rintro ⟨ratchet, h⟩
    exact ⟨_, (finaliseKeys_initiator hi hsplit).mpr ⟨pub, rfl, h, rfl, rfl⟩⟩

/-- What `handle_response` does after the pinning. -/
def finishInitiator (P : Primitives β X E) (hsId : Bytes β) (fresh : X) (establishedAt : ℚ)
    (pending : PendingHandshake β X) (peer : PeerRef) (claim : IdentityPayload β) :
    Method (Exc β) (SessionManager β X E) (Bytes β × Session β X) := do
  let manager ← Method.self
  let (fin, pending) ← onHandshake hsId pending (writeMessage3 P
    (encodeIdentityPayload P manager.identity none))
  let session ← finalise P pending peer claim.ratchetPub establishedAt fresh
  delPending hsId
  return (hsId ++ fin, session)

/-- It completes, or it leaves an entry that has read message 2. -/
lemma finishInitiator_cases (hP : P.Correct) (hi : pending.initiator = true)
    {re rs encS encPayload payload : Bytes β} {claim : IdentityPayload β} {ref : PeerRef}
    {trust' : TrustStore β} {p : PeerIdentity β} {pending' : PendingHandshake β X}
    (hre : re.length = DHLEN) (hclaim : decodeIdentityPayload payload true = .ok claim)
    (hobj : trust'.object ref = some p)
    (hpending' : pending' = { pending with
      handshake := received2 P PROLOGUE manager.identity.staticPrivate e re rs encS encPayload }) :
    let finishes := P.exchange manager.identity.staticPrivate re ≠ zeros DHLEN ∧
      ∃ pub, claim.ratchetPub = some pub ∧ P.exchange fresh pub ≠ zeros DHLEN
    let outcome := finishInitiator P hsId fresh establishedAt pending' ref claim
      { manager with trust := trust', pending := manager.pending.set hsId pending' }
    (finishes ∧ ∃ result manager', outcome = (.ok result, manager')) ∨
      (¬ finishes ∧ ∃ err p, p.Past ∧ outcome = (.error err,
        { manager with trust := trust', pending := manager.pending.set hsId p })) := by
  intro finishes outcome
  obtain ⟨pub, hpub, hpublen⟩ := (decodeIdentityPayload_ok hclaim).2 rfl
  have hpast : ∀ hs : HandshakeState β X, hs.msgIndex ≠ 1 →
      PendingHandshake.Past { pending' with handshake := hs } := fun hs h1 => by
    simpa [PendingHandshake.Past, hpending', hi] using h1
  have hhandshake : pending'.handshake =
      received2 P PROLOGUE manager.identity.staticPrivate e re rs encS encPayload := by
    rw [hpending']
  rcases hw : onHandshake hsId pending' (writeMessage3 P
      (encodeIdentityPayload P manager.identity none))
      { manager with trust := trust', pending := manager.pending.set hsId pending' } with
    ⟨err | ⟨fin, pending₂⟩, manager₂⟩
  · -- `write_message_3` raises
    obtain ⟨hs₂, hwrite, rfl⟩ := onHandshake_error hw
    rw [hhandshake] at hwrite
    have hz : ¬ finishes := fun h => by
      rw [(writeMessage3_ok_iff hP hre).mpr ⟨h.1, rfl, rfl⟩] at hwrite
      cases hwrite
    have h2 := writeMessage3_error hP hre hwrite
    refine Or.inr ⟨hz, err, { pending' with handshake := hs₂ }, hpast hs₂ (by omega), ?_⟩
    simp only [outcome, finishInitiator, Method.self_bind, Method.bind_of_error hw,
      OrderedDict.set_set]
  obtain ⟨hs₂, hwrite, hpending₂, rfl⟩ := onHandshake_ok_iff.mp hw
  rw [hhandshake] at hwrite
  obtain ⟨hz, -, rfl⟩ := (writeMessage3_ok_iff hP hre).mp hwrite
  have hi₂ : pending₂.initiator = true := by rw [hpending₂, hpending', hi]
  have hkeys : (∃ keys, finaliseKeys P pending₂ (some pub) fresh = .ok keys) ↔
      P.exchange fresh pub ≠ zeros DHLEN :=
    exists_finaliseKeys_initiator hP hi₂ (by rw [hpending₂, sent3]) hpublen
  rw [← hpub] at hkeys
  have houtcome : outcome = (do
      let session ← finalise P pending₂ ref claim.ratchetPub establishedAt fresh
      delPending hsId
      return (hsId ++ fin, session) : Method _ _ _)
        { manager with trust := trust', pending := manager.pending.set hsId pending₂ } := by
    simp only [outcome, finishInitiator, Method.self_bind, Method.bind_of_ok hw,
      OrderedDict.set_set]
  rcases hf : finalise P pending₂ ref claim.ratchetPub establishedAt fresh
      { manager with trust := trust', pending := manager.pending.set hsId pending₂ } with
    ⟨err | session, manager₃⟩
  · -- `init_sender` raises
    have hlow : ¬ finishes := by
      rintro ⟨-, pub', hpub', hr⟩
      obtain rfl := Option.some.inj (hpub'.symm.trans hpub)
      obtain ⟨keys, hkeys⟩ := hkeys.mpr hr
      rw [(finalise_ok_iff hobj).mpr ⟨keys, hkeys, rfl, rfl⟩] at hf
      cases hf
    refine Or.inr ⟨hlow, err, pending₂, hpending₂ ▸ hpast _ (by simp [sent3]), ?_⟩
    rw [houtcome, Method.bind_of_error hf, finalise_error hf]
  · obtain ⟨keys, hk, -, -⟩ := (finalise_ok_iff hobj).mp hf
    refine Or.inl ⟨⟨hz, pub, hpub, hkeys.mp ⟨keys, hk⟩⟩, ?_⟩
    rw [houtcome, Method.bind_of_ok hf]
    exact ⟨_, _, rfl⟩

lemma completeInitiator_eq :
    completeInitiator P hsId body pending fresh now establishedAt =
      (readHandshake hsId pending "handshake response rejected" (readMessage2 P body) >>=
        fun ((rs, signedHash, payload), pending) =>
          identifyPeer P hsId rs signedHash payload true
            ("responder's identity signature is invalid -- aborting. " ++
              "Someone is either broken or lying about who they are.") now
            (finishInitiator P hsId fresh establishedAt pending)) := by
  simp only [completeInitiator, acceptResponse, identifyPeer, Method.bind_assoc]
  rfl

/-- Everything about how a RESP for a waiting initiator ends. -/
lemma completeInitiator_ends (hP : P.Correct) (hi : pending.initiator = true)
    (hs : pending.handshake = sent1 P PROLOGUE manager.identity.staticPrivate e) :
    Ends hsId manager (CompletesResponse P manager e fresh body)
      (RefusesResponseLate P manager e fresh body)
      (completeInitiator P hsId body pending fresh now establishedAt manager) := by
  rw [completeInitiator_eq]
  refine readHandshake_ends (fun rs signedHash payload => ?_)
    (fun err hs' hread => readMessage2_error hP (hs ▸ hread)) ?_
  · rw [hs]
    exact readsResponse_iff hP manager.identity.staticPrivate
  intro rs signedHash payload hs₁ hread
  rw [hs] at hread
  obtain ⟨re, encS, encPayload, rfl, hre, hS, hopens, rfl, rfl⟩ :=
    (readMessage2_ok_iff hP).mp hread
  refine identifyPeer_ends (by simp [PendingHandshake.Past, hi, received2]) ?_
  intro ref claim trust' hclaim hobserve
  obtain ⟨p, hobj, -⟩ := TrustStore.observe_ok hobserve
  have htake : (re ++ encS ++ encPayload).take DHLEN = re := by
    rw [List.append_assoc]
    exact List.take_left' hre
  rw [FinishesResponse, htake]
  exact finishInitiator_cases hP hi hre hclaim hobj rfl

end Response

/-! ## FIN -/

/-- What `read_message_3` returns to the responder with keys `s` and `e`. -/
def ReadsFin (P : Primitives β X E) (s e : X) (re encS encPayload body rs signedHash payload :
    Bytes β) : Prop :=
  ∃ encS3 encPayload3, body = encS3 ++ encPayload3 ∧ encS3.length = DHLEN + TAGLEN ∧
    Opens3 P PROLOGUE s e re encS encPayload encS3 encPayload3 rs payload ∧
    signedHash = transcript P [PROLOGUE, re, P.x25519PublicBytes e, encS, encPayload, encS3]

section Fin

variable (P : Primitives β X E) (manager : SessionManager β X E) (e : X)
  (re encS encPayload body : Bytes β)

/-- The FIN completes the handshake of the responder with ephemeral key `e`. -/
def CompletesFin : Prop :=
  ∃ rs signedHash payload,
    ReadsFin P manager.identity.staticPrivate e re encS encPayload body rs signedHash payload ∧
    Accepts P manager.trust false rs signedHash payload fun _ => True

/-- It opens, and is refused after the last clean-up. -/
def RefusesFinLate : Prop :=
  ∃ rs signedHash payload,
    ReadsFin P manager.identity.staticPrivate e re encS encPayload body rs signedHash payload ∧
    RefusesLate P manager.trust false rs signedHash payload fun _ => True

variable {P manager e re encS encPayload body}

lemma readsFin_iff (hP : P.Correct) (s : X) {rs signedHash payload : Bytes β} :
    ReadsFin P s e re encS encPayload body rs signedHash payload ↔
      ∃ hs, readMessage3 P body (sent2 P PROLOGUE s e re encS encPayload) =
        (.ok (rs, signedHash, payload), hs) := by
  constructor
  · rintro ⟨encS3, encPayload3, hbody, hS, hopens, rfl⟩
    exact ⟨_, (readMessage3_ok_iff hP).mpr ⟨encS3, encPayload3, hbody, hS, hopens, rfl, rfl⟩⟩
  · rintro ⟨hs, hread⟩
    obtain ⟨encS3, encPayload3, hbody, hS, hopens, rfl, -⟩ := (readMessage3_ok_iff hP).mp hread
    exact ⟨encS3, encPayload3, hbody, hS, hopens, rfl⟩

lemma CompletesFin.not_refusesLate (hP : P.Correct)
    (h : CompletesFin P manager e re encS encPayload body) :
    ¬ RefusesFinLate P manager e re encS encPayload body := by
  obtain ⟨rs, signedHash, payload, hreads, haccepts⟩ := h
  rintro ⟨rs', signedHash', payload', hreads', hlate⟩
  obtain ⟨hs, h⟩ := (readsFin_iff hP manager.identity.staticPrivate).mp hreads
  obtain ⟨hs', h'⟩ := (readsFin_iff hP manager.identity.staticPrivate).mp hreads'
  obtain ⟨⟨rfl, rfl, rfl⟩, -⟩ := by simpa using h.symm.trans h'
  exact haccepts.not_refusesLate hlate

variable {hsId : Bytes β} {pending : PendingHandshake β X} {fresh : X} {now establishedAt : ℚ}

/-- The keys of a responder can be made. -/
lemma exists_finaliseKeys_responder (hP : P.Correct) (hi : pending.initiator = false)
    {pair : CipherState β × CipherState β} (hsplit : pending.handshake.splitPair = some pair)
    {r : X} (hr : pending.ratchetPrivate = some r) :
    ∃ keys, finaliseKeys P pending none fresh = .ok keys :=
  ⟨_, (finaliseKeys_responder hi hsplit hr).mpr
    ⟨initReceiver_of_length (length_rootKey hP _ _) r, rfl, rfl⟩⟩

/-- What `handle_fin` does after the pinning. -/
def finishResponder (P : Primitives β X E) (hsId : Bytes β) (fresh : X) (establishedAt : ℚ)
    (pending : PendingHandshake β X) (peer : PeerRef) (_ : IdentityPayload β) :
    Method (Exc β) (SessionManager β X E) (Session β X) := do
  let session ← finalise P pending peer none establishedAt fresh
  delPending hsId
  return session

lemma completeResponder_eq :
    completeResponder P hsId body pending fresh now establishedAt =
      (readHandshake hsId pending "handshake completion rejected" (readMessage3 P body) >>=
        fun ((rs, signedHash, payload), pending) =>
          identifyPeer P hsId rs signedHash payload false
            "initiator's identity signature is invalid -- aborting" now
            (finishResponder P hsId fresh establishedAt pending)) := rfl

/-- Everything about how a FIN for a waiting responder ends. -/
lemma completeResponder_ends (hP : P.Correct) (hi : pending.initiator = false) {r : X}
    (hr : pending.ratchetPrivate = some r)
    (hs : pending.handshake =
      sent2 P PROLOGUE manager.identity.staticPrivate e re encS encPayload) :
    Ends hsId manager (CompletesFin P manager e re encS encPayload body)
      (RefusesFinLate P manager e re encS encPayload body)
      (completeResponder P hsId body pending fresh now establishedAt manager) := by
  rw [completeResponder_eq]
  refine readHandshake_ends (fun rs signedHash payload => ?_)
    (fun err hs' hread => readMessage3_error hP (hs ▸ hread)) ?_
  · rw [hs]
    exact readsFin_iff hP manager.identity.staticPrivate
  intro rs signedHash payload hs₁ hread
  rw [hs] at hread
  obtain ⟨encS3, encPayload3, -, -, -, -, hhs₁⟩ := (readMessage3_ok_iff hP).mp hread
  refine identifyPeer_ends (by simp [PendingHandshake.Past, hi, hhs₁, received3]) ?_
  intro ref claim trust' hclaim hobserve
  obtain ⟨p, hobj, -⟩ := TrustStore.observe_ok hobserve
  -- nothing is left that can fail
  refine Or.inl ⟨trivial, ?_⟩
  have hexists : ∃ keys, finaliseKeys P { pending with handshake := hs₁ } none fresh = .ok keys :=
    exists_finaliseKeys_responder hP hi (by rw [hhs₁, received3]) hr
  obtain ⟨keys, hkeys⟩ := hexists
  rw [finishResponder, Method.bind_of_ok ((finalise_ok_iff hobj).mpr ⟨keys, hkeys, rfl, rfl⟩)]
  exact ⟨_, _, rfl⟩

end Fin

end SessionManager

end Chatbit
