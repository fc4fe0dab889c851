import Chatbit.ConversationTheorems
import Chatbit.Handshake.Agreement
import Chatbit.NodeNetwork

/-!
# Which keys a node keeps for an honest node

A node learns static keys from handshakes, which it pins, and from beacons, which it lists as
discovered. Both come with a signature. A beacon body is longer than a transcript hash, so neither
signature can be shown as the other, and under the signing key of an honest node a node only ever
keeps the static key of that node (`NodeWorld.static_of_honest`).
-/

namespace Chatbit

open Lib Method HandshakeState

variable {ι β X E τ : Type} [Alphabet β] [DecidableEq β] {P : Primitives β X E}

omit [Alphabet β] [DecidableEq β] in
lemma Primitives.length_of_verify (P : Primitives β X E) {k signature message : Bytes β}
    (h : P.verify k signature message = true) : k.length = 32 := by
  rw [Primitives.verify, Bool.and_eq_true] at h
  exact of_decide_eq_true h.1

/-! ## The records of a trust store -/

namespace TrustStore

variable {store : TrustStore β} {A : Bytes β → Bytes β → Prop}

/-- The two keys of each record go together. -/
def Allows (A : Bytes β → Bytes β → Prop) (store : TrustStore β) : Prop :=
  ∀ ref p, store.object ref = some p → A p.signingPublic p.staticPublic

omit [Alphabet β] [DecidableEq β] in
lemma Allows.save (h : store.Allows A) : store.save.Allows A :=
  fun ref p hp => h ref p ((object_save store ref).symm.trans hp)

omit [Alphabet β] [DecidableEq β] in
lemma Allows.modify (h : store.Allows A) (ref : PeerRef) (f : PeerIdentity β → PeerIdentity β)
    (hf : ∀ p, (f p).signingPublic = p.signingPublic)
    (hA : ∀ p, store.object ref = some p → A p.signingPublic (f p).staticPublic) :
    (store.modify ref f hf).Allows A := by
  intro ref' p hp
  rw [object_modify] at hp
  rcases hobj : store.object ref' with _ | p₀
  · rw [hobj] at hp
    split_ifs at hp
    cases hp
  rw [hobj] at hp
  split_ifs at hp with href
  · obtain rfl := Option.some.inj hp
    subst href
    rw [hf]
    exact hA p₀ hobj
  · obtain rfl := Option.some.inj hp
    exact h ref' _ hobj

lemma Allows.observe (h : store.Allows A) {k s : Bytes β} (hA : A k s) (nickname : String)
    (now : ℚ) : (observe P k s nickname now store).2.Allows A := by
  have hends := observe_ends P store k s nickname now
  revert hends
  generalize TrustStore.observe P k s nickname now store = result
  intro hends
  cases hends with
  | pins hget =>
    refine Allows.save fun ref p hp => ?_
    rcases object_add store _ hp with hp | ⟨-, rfl⟩
    · exact h ref p hp
    · exact hA
  | refuses => exact h
  | knows => exact h
  | @renames ref p =>
    have hsame : ∀ p, store.object ref = some p → A p.signingPublic p.staticPublic :=
      fun p hp => h ref p hp
    exact Allows.save (h.modify ref (fun p => { p with nickname := nickname }) (fun _ => rfl) hsame)

omit [Alphabet β] in
lemma Allows.change (h : store.Allows A) (k : Bytes β) (unknown : String)
    (f : PeerIdentity β → PeerIdentity β) (hf : ∀ p, (f p).signingPublic = p.signingPublic)
    (hA : ∀ ref p, store.object ref = some p → p.signingPublic = k →
      A p.signingPublic (f p).staticPublic) :
    (change k unknown f hf store : Except (Exc β) PeerRef × _).2.Allows A := by
  have hends := change_ends store k unknown f hf
  revert hends
  generalize TrustStore.change k unknown f hf store = result
  intro hends
  cases hends with
  | raises => exact h
  | @changes ref p hget hobj =>
    obtain ⟨p', hp', hkey⟩ := object_of_get? hget
    refine (h.modify ref f hf fun p₀ hp₀ => hA ref p₀ hp₀ ?_).save
    obtain rfl := Option.some.inj (hp'.symm.trans hp₀)
    exact hkey

end TrustStore

/-! ## What a call pins -/

/-- The store stays, or observes keys that have been presented. -/
def TrustStore.PinsAs (P : Primitives β X E) (presents : Bytes β → Bytes β → Prop)
    (store store' : TrustStore β) : Prop :=
  store' = store ∨ ∃ k s nickname now, presents k s ∧
    store' = (observe P k s nickname now store).2

namespace SessionManager

variable {manager : SessionManager β X E}

/-- A handshake message is pinned as what it presents, or not at all. -/
lemma pinsAs_of_read {α : Type} {hsId : Bytes β} {expectRatchet : Bool} {rejected invalid : String}
    {now : ℚ} {pending : PendingHandshake β X}
    {read : Method (Exc β) (HandshakeState β X) (Bytes β × Bytes β × Bytes β)}
    {rest : PendingHandshake β X → PeerRef → IdentityPayload β →
      Method (Exc β) (SessionManager β X E) α}
    (hrest : ∀ pending ref claim, Keeps trust (rest pending ref claim)) :
    TrustStore.PinsAs P
      (fun k s => ∃ signedHash body handshake claim,
        read pending.handshake = (.ok (s, signedHash, body), handshake) ∧
        decodeIdentityPayload body expectRatchet = .ok claim ∧ claim.signingPub = k ∧
        P.verify k claim.signature (SIG_DOMAIN ++ signedHash) = true)
      manager.trust
      ((readHandshake hsId pending rejected read >>=
        fun ((rs, signedHash, payload), pending) =>
          identifyPeer P hsId rs signedHash payload expectRatchet invalid now (rest pending))
        manager).2.trust := by
  have hkeeps : (readHandshake hsId pending rejected read manager).2.trust = manager.trust :=
    keeps_readHandshake rejected read manager
  rw [bind_apply]
  rcases hr : readHandshake hsId pending rejected read manager with
    ⟨err | ⟨⟨s, signedHash, body⟩, pending'⟩, manager₁⟩
  · rw [hr] at hkeeps
    exact Or.inl hkeeps
  rw [hr] at hkeeps
  obtain ⟨handshake, hread, -, -⟩ := readHandshake_ok_iff.mp hr
  show TrustStore.PinsAs P _ _ (identifyPeer P hsId s signedHash body expectRatchet invalid now
    (rest pending') manager₁).2.trust
  rw [identifyPeer, bind_apply, eval_apply]
  rcases hclaim : decodeIdentityPayload body expectRatchet with err | claim
  · exact Or.inl hkeeps
  show TrustStore.PinsAs P _ _ ((verifyPeer P hsId s signedHash claim invalid >>= fun peer =>
    pin P peer now >>= fun peer => rest pending' peer claim) manager₁).2.trust
  rw [bind_apply]
  rcases hv : verifyPeer P hsId s signedHash claim invalid manager₁ with ⟨err | peer, manager₂⟩
  · have hverify : (verifyPeer P hsId s signedHash claim invalid manager₁).2.trust =
        manager₁.trust :=
      keeps_verifyPeer s signedHash claim invalid manager₁
    rw [hv] at hverify
    exact Or.inl (hverify.trans hkeeps)
  obtain ⟨hverified, rfl, rfl⟩ := verifyPeer_ok_iff.mp hv
  refine Or.inr ⟨_, s, claim.nickname, now, ⟨_, _, _, claim, hread, hclaim, rfl, hverified⟩, ?_⟩
  rw [← hkeeps]
  exact (Keeps.after (hrest pending' · claim) manager₂).trans rfl

lemma keeps_finishInitiator (hsId : Bytes β) (fresh : X) (establishedAt : ℚ)
    (pending : PendingHandshake β X) (ref : PeerRef) (claim : IdentityPayload β) :
    Keeps trust (finishInitiator P hsId fresh establishedAt pending ref claim :
      Method (Exc β) (SessionManager β X E) (Bytes β × Session β X)) :=
  .bind (.self _) fun _ => .bind (keeps_onHandshake _) fun _ => .bind (keeps_finalise _ _) fun _ =>
    .bind (.update fun _ => rfl) fun _ => .pure _ _

lemma keeps_finishResponder (hsId : Bytes β) (fresh : X) (establishedAt : ℚ)
    (pending : PendingHandshake β X) (ref : PeerRef) (claim : IdentityPayload β) :
    Keeps trust (finishResponder P hsId fresh establishedAt pending ref claim :
      Method (Exc β) (SessionManager β X E) (Session β X)) :=
  .bind (keeps_finalise _ _) fun _ => .bind (.update fun _ => rfl) fun _ => .pure _ _

/-- So is a RESP. -/
lemma pinsAs_handleResponse (payload : Bytes β) (fresh : X) (now establishedAt : ℚ) :
    TrustStore.PinsAs P (PresentsResponse P manager payload) manager.trust
      (handleResponse P payload fresh now establishedAt manager).2.trust := by
  by_cases hnot : ∀ p, manager.pending.get? (payload.take HS_ID_LEN) = some p → p.initiator = false
  · rw [handleResponse_of_not hnot]
    exact Or.inl rfl
  push Not at hnot
  obtain ⟨pending, hget, hi⟩ := hnot
  have hi : pending.initiator = true := by simpa using hi
  rw [handleResponse_of_pending hget hi, map_apply, completeInitiator_eq]
  rcases pinsAs_of_read (keeps_finishInitiator (payload.take HS_ID_LEN) fresh establishedAt) with
    h | ⟨k, s, nickname, now, ⟨signedHash, body, handshake, claim, hpresents⟩, h⟩
  · exact Or.inl h
  · exact Or.inr ⟨k, s, nickname, now,
      ⟨pending, signedHash, body, handshake, claim, hget, hi, hpresents⟩, h⟩

/-- And a FIN. -/
lemma pinsAs_handleFin (payload : Bytes β) (fresh : X) (now establishedAt : ℚ) :
    TrustStore.PinsAs P (PresentsFin P manager payload) manager.trust
      (handleFin P payload fresh now establishedAt manager).2.trust := by
  by_cases hnot : ∀ p, manager.pending.get? (payload.take HS_ID_LEN) = some p → p.initiator = true
  · rw [handleFin_of_not hnot]
    exact Or.inl rfl
  push Not at hnot
  obtain ⟨pending, hget, hi⟩ := hnot
  have hi : pending.initiator = false := by simpa using hi
  rw [handleFin_of_pending hget hi, map_apply, completeResponder_eq]
  rcases pinsAs_of_read (keeps_finishResponder (payload.take HS_ID_LEN) fresh establishedAt) with
    h | ⟨k, s, nickname, now, ⟨signedHash, body, handshake, claim, hpresents⟩, h⟩
  · exact Or.inl h
  · exact Or.inr ⟨k, s, nickname, now,
      ⟨pending, signedHash, body, handshake, claim, hget, hi, hpresents⟩, h⟩

/-- What a call may bring into the trust store. -/
def Brings (P : Primitives β X E) (manager : SessionManager β X E) (k s : Bytes β) :
    Call β X → Prop
  | .response payload _ _ _ => PresentsResponse P manager payload k s
  | .fin payload _ _ _ => PresentsFin P manager payload k s
  | .repin k' s' =>
    k' = k ∧ s' = s ∧ ∃ ref p, manager.trust.object ref = some p ∧ p.signingPublic = k
  | _ => False

/-- The records stay allowed when what a call brings is. -/
lemma allows_call {A : Bytes β → Bytes β → Prop} (h : manager.trust.Allows A) {c : Call β X}
    (hA : ∀ k s, manager.Brings P k s c → A k s) : (manager.call P c).trust.Allows A := by
  have hpins : ∀ presents trust', (∀ k s, presents k s → A k s) →
      TrustStore.PinsAs P presents manager.trust trust' → trust'.Allows A := by
    rintro presents trust' hpresents (rfl | ⟨k, s, nickname, now, hks, rfl⟩)
    · exact h
    · exact h.observe (hpresents k s hks) nickname now
  cases c with
  | start peerStatic hsId e now startedAt wallNow =>
    have hkeeps := keeps_startHandshake (P := P) peerStatic hsId e now startedAt wallNow manager
    show (startHandshake P peerStatic hsId e now startedAt wallNow manager).2.trust.Allows A
    rw [hkeeps]
    exact h
  | init payload e r now startedAt =>
    have hkeeps := keeps_handleInit (P := P) payload e r now startedAt manager
    show (handleInit P payload e r now startedAt manager).2.trust.Allows A
    rw [hkeeps]
    exact h
  | response payload fresh now establishedAt => exact hpins _ _ hA (pinsAs_handleResponse ..)
  | fin payload fresh now establishedAt => exact hpins _ _ hA (pinsAs_handleFin ..)
  | encrypt k plaintext | decrypt k blob fresh =>
    rw [SessionManager.call, onSession]
    split
    · exact h
    · exact h
  | drop k => exact h
  | markVerified k =>
    exact h.change k _ (fun p => { p with verified := true }) (fun _ => rfl)
      fun ref p hp _ => h ref p hp
  | repin k s =>
    exact h.change k _ (fun p => { p with staticPublic := s, verified := false }) (fun _ => rfl)
      fun ref p hp hkey => hA _ _ ⟨hkey.symm, rfl, ref, p, hp, rfl⟩
  | forget k => exact TrustStore.Allows.save fun ref p hp => h ref p hp

/-! ## What an honest node has signed -/

section Honest

variable (hP : P.Correct) (hH : P.HashIdeal) {identity : Identity X E} {item : Signed β X}
include hP

/-- A RESP that can be read is valid for the initiator that waits for it. -/
lemma PresentsResponse.valid (hm : WellFormed P manager) {payload k s : Bytes β}
    (h : PresentsResponse P manager payload k s) :
    ∃ pending identityPayload st e m,
      manager.pending.get? (payload.take HS_ID_LEN) = some pending ∧
      readMessage2 P (payload.drop HS_ID_LEN) pending.handshake =
        (.ok (s, transcript P [PROLOGUE, P.x25519PublicBytes e, m.re, m.encS], identityPayload),
          st) ∧
      decodeIdentityPayload identityPayload true = .ok m.claim ∧
      ReceivedResponse.Valid P e (payload.drop HS_ID_LEN) m ∧ m.claim.signingPub = k ∧ m.rs = s := by
  obtain ⟨pending, signedHash, body, handshake, claim, hget, hi, hread, hclaim, hkey, hverify⟩ := h
  rcases (hm _ _ hget).past_or_started hi with hpast | ⟨peerStatic, e, startedAt, rfl⟩
  · have hindex : pending.handshake.msgIndex ≠ 1 := by simpa [PendingHandshake.Past, hi] using hpast
    rw [readMessage2_of_index hindex] at hread
    cases hread
  · obtain ⟨re, encS, encPayload, hbody, hre, hS, hopens, rfl, rfl⟩ :=
      (readMessage2_ok_iff hP).mp hread
    exact ⟨_, _, _, e, ⟨re, encS, encPayload, s, body, claim⟩, hget, hread, hclaim,
      ⟨hbody, hre, hS, hopens, hclaim, hkey ▸ hverify⟩, hkey, rfl⟩

/-- A FIN that can be read is valid for the responder that waits for it. -/
lemma PresentsFin.valid (hm : WellFormed P manager) {payload k s : Bytes β}
    (h : PresentsFin P manager payload k s) :
    ∃ pending identityPayload st re e r m,
      manager.pending.get? (payload.take HS_ID_LEN) = some pending ∧
      readMessage3 P (payload.drop HS_ID_LEN) pending.handshake =
        (.ok (s, transcript P [PROLOGUE, re, P.x25519PublicBytes e,
          respEncStatic P manager.identity e re, respEncPayload P manager.identity e r re, m.encS],
          identityPayload), st) ∧
      decodeIdentityPayload identityPayload false = .ok m.claim ∧
      ReceivedFin.Valid P manager.identity.staticPrivate e re (respEncStatic P manager.identity e re)
        (respEncPayload P manager.identity e r re) (payload.drop HS_ID_LEN) m ∧
      m.claim.signingPub = k ∧ m.rs = s := by
  obtain ⟨pending, signedHash, body, handshake, claim, hget, hi, hread, hclaim, hkey, hverify⟩ := h
  rcases (hm _ _ hget).past_or_answered hi with hpast | ⟨re, e, r, startedAt, ha, rfl⟩
  · have hindex : pending.handshake.msgIndex ≠ 2 := by simpa [PendingHandshake.Past, hi] using hpast
    rw [readMessage3_of_index hindex] at hread
    cases hread
  · obtain ⟨encS, encPayload, hbody, hS, hopens, rfl, rfl⟩ := (readMessage3_ok_iff hP).mp hread
    exact ⟨_, _, _, re, e, r, ⟨encS, encPayload, s, body, claim⟩, hget, hread, hclaim,
      ⟨hbody, hS, hopens, hclaim, hkey ▸ hverify⟩, hkey, rfl⟩

end Honest

end SessionManager

section Beacon

variable (hP : P.Correct) {identity : Identity X E} {item : Signed β X}
include hP

omit [DecidableEq β] in
/-- A message of 72 octets is only signed as the body of a beacon. -/
lemma SignedBy.of_beacon (h : SignedBy P identity item) {body : Bytes β} (hlen : body.length = 72)
    (hmessage : item.message = SIG_DOMAIN ++ body) :
    ∃ timestamp, body = identity.beaconBody P timestamp := by
  cases h with
  | responder e re hre =>
    have heq : builderHash2 P PROLOGUE identity.staticPrivate e re = body :=
      List.append_cancel_left hmessage
    rw [← heq, builderHash2, length_transcript hP] at hlen
    exact absurd hlen (by decide)
  | initiator e body' m hm =>
    have heq : builderHash3 P PROLOGUE identity.staticPrivate e m.re m.rs m.encS m.encPayload =
        body := List.append_cancel_left hmessage
    rw [← heq, builderHash3, length_transcript hP] at hlen
    exact absurd hlen (by decide)
  | beacon timestamp ht => exact ⟨timestamp, (List.append_cancel_left hmessage).symm⟩

omit [DecidableEq β] in
/-- The static key of a beacon that an honest node has signed is its own. -/
lemma SignedBy.static_of_beacon (h : SignedBy P identity item) {payload : Bytes β}
    (hlen : 72 ≤ payload.length) (hmessage : item.message = SIG_DOMAIN ++ payload.take 72) :
    (Node.beaconCandidate payload).staticPublic = identity.staticPublic P := by
  obtain ⟨timestamp, hbody⟩ := h.of_beacon hP (by rw [List.length_take]; omega) hmessage
  have hsigning : (identity.signingPublic P).length = 32 := hP.length_ed25519Public _
  have hstatic : (identity.staticPublic P).length = 32 := hP.length_x25519Public _
  show (payload.drop 32).take 32 = _
  have htake : (payload.drop 32).take 32 = ((payload.take 72).drop 32).take 32 := by
    rw [List.drop_take, List.take_take]
    rfl
  rw [htake, hbody, Identity.beaconBody, List.append_assoc, List.drop_left' hsigning,
    List.take_left' hstatic]

end Beacon

/-! ## The network of the session managers -/

attribute [ext] World

/-- What a user does to the records of a trust store. -/
def Call.ofUser : Call β X → Option (NodeEvent β X)
  | .repin k s => some (.repin k s)
  | .markVerified k => some (.markVerified k)
  | _ => none

namespace Node

variable {T : Transport β τ} {node : Node T X E} {event : NodeEvent β X}

lemma signs_of_call (h : ∀ env, event ≠ .broadcastBeacon env) :
    node.signs P event = ((node.callOf P event).bind (node.sessions.signing P)).map .handshake := by
  unfold signs
  split
  · exact absurd rfl (h _)
  · rfl

/-- A manager is asked to re-pin or to mark a peer when the user asks for it. -/
lemma eq_of_callOf {c : Call β X} (h : node.callOf P event = some c) {event' : NodeEvent β X}
    (hc : c.ofUser = some event') : event = event' := by
  unfold callOf at h
  split at h
  · obtain ⟨⟨packet, payload⟩, -, h⟩ := Option.bind_eq_some_iff.mp h
    dsimp only [callOfPayload] at h
    split at h
    · cases h; cases hc
    · cases h; cases hc
    · cases h; cases hc
    · split at h
      · cases h; cases hc
      · cases h
    · cases h
    · cases h
    · cases h
  all_goals cases h
  all_goals cases hc
  all_goals rfl

end Node

namespace NodeWorld

variable [DecidableEq ι] {T : ι → Transport β τ} {identity : ι → Identity X E}
  {w : NodeWorld T X E}

lemma node_step (w : NodeWorld T X E) (a a' : ι) (event : NodeEvent β X) :
    (w.step P (a, event)).node a' =
      Function.update w.node a ((w.node a).step P event) a' := rfl

/-- A step of the nodes is at most one of their session managers. -/
lemma managers_step (w : NodeWorld T X E) {a : ι} {event : NodeEvent β X}
    (hadm : w.Admissible P (a, event)) :
    Reaches (World.Admissible P) (World.step P) w.managers (w.step P (a, event)).managers := by
  have hmanager : (w.step P (a, event)).managers.manager =
      Function.update w.managers.manager a
        (Node.afterCall P (w.node a).sessions ((w.node a).callOf P event)) := by
    funext a'
    show ((w.step P (a, event)).node a').sessions = _
    rw [node_step]
    by_cases ha : a' = a
    · subst ha
      rw [Function.update_self, Function.update_self, Node.sessions_step]
    · rw [Function.update_of_ne ha, Function.update_of_ne ha]
      rfl
  have hself : Function.update w.managers.manager a (w.node a).sessions = w.managers.manager :=
    Function.update_eq_self a w.managers.manager
  by_cases hbeacon : ∃ env, event = .broadcastBeacon env
  · obtain ⟨env, rfl⟩ := hbeacon
    have hstep : (w.step P (a, .broadcastBeacon env)).managers =
        w.managers.step P (.beacon a env.timestamp) :=
      World.ext (hmanager.trans hself) rfl
    rw [hstep]
    exact (Reaches.refl _).tail (hadm.timestamp env rfl)
  push Not at hbeacon
  have hjournal : (w.step P (a, event)).managers.journal =
      ((w.node a).signs P event).toList.map (fun item => (a, item)) ++ w.journal := rfl
  rw [Node.signs_of_call hbeacon] at hjournal
  rcases hcall : (w.node a).callOf P event with _ | c
  · rw [hcall] at hmanager hjournal
    have hstep : (w.step P (a, event)).managers = w.managers :=
      World.ext (hmanager.trans hself) hjournal
    rw [hstep]
    exact .refl _
  · rw [hcall] at hmanager hjournal
    have hstep : (w.step P (a, event)).managers = w.managers.step P (.call a c) := by
      refine World.ext hmanager (hjournal.trans ?_)
      show (((w.node a).sessions.signing P c).map _).toList.map _ ++ w.journal =
        ((w.node a).sessions.signing P c).toList.map _ ++ w.journal
      rcases (w.node a).sessions.signing P c with _ | st <;> rfl
    rw [hstep]
    exact (Reaches.refl _).tail (hadm.call c hcall)

/-! ## What the nodes keep -/

/-- What holds in every world that runs reach. -/
structure Right (P : Primitives β X E) (identity : ι → Identity X E) (w : NodeWorld T X E) :
    Prop where
  managers : w.managers.Reachable P identity
  owned : ∀ a, (w.node a).sessions.Owned
  trust : ∀ a, (w.node a).sessions.trust.Allows (w.Allowed P identity a)
  discovered : ∀ a k candidate, (w.node a).discovered.get? k = some candidate →
    candidate.signingPublic = k ∧ k ≠ (identity a).signingPublic P ∧
      ∀ b, (identity b).signingPublic P = k → candidate.staticPublic = (identity b).staticPublic P

lemma Allowed.step {a a' : ι} {k s : Bytes β} (h : w.Allowed P identity a k s)
    (event : NodeEvent β X) : (w.step P (a', event)).Allowed P identity a k s :=
  ⟨h.1, fun b hb => (h.2 b hb).imp_right (List.mem_append_right _)⟩

/-- What a handshake message of an honest node presents is its static key. -/
lemma Right.brings (hP : P.Correct) (hH : P.HashIdeal) (hw : w.Right P identity) {a : ι}
    {event : NodeEvent β X} {c : Call β X} (hcall : (w.node a).callOf P event = some c)
    (hun : w.managers.Unforged P a c) {k s : Bytes β} (h : (w.node a).sessions.Brings P k s c) :
    (w.step P (a, event)).Allowed P identity a k s := by
  have hok := hw.managers.ok hP
  have hhas : ∀ b, (w.managers.manager b).identity.signingPublic P = (identity b).signingPublic P :=
    fun b => congrArg (Identity.signingPublic P) (hok.identity_eq b)
  cases c with
  | response payload fresh now establishedAt =>
    obtain ⟨pending, identityPayload, st, e, m, hget, hread, hclaim, hm, rfl, rfl⟩ :=
      SessionManager.PresentsResponse.valid hP (hok.wellFormed a) h
    refine ⟨P.length_of_verify hm.verified, fun b hb => ?_⟩
    obtain ⟨item, hitem, hmessage⟩ := hun pending _ _ identityPayload st m.claim hget hread hclaim
      hm.verified b ((hhas b).trans hb)
    obtain ⟨e', -, -, hrs⟩ := hm.static_of_signed hP hH (hok.signed b item hitem) hmessage
    exact Or.inl hrs
  | fin payload fresh now establishedAt =>
    obtain ⟨pending, identityPayload, st, re, e, r, m, hget, hread, hclaim, hm, rfl, rfl⟩ :=
      SessionManager.PresentsFin.valid hP (hok.wellFormed a) h
    refine ⟨P.length_of_verify hm.verified, fun b hb => ?_⟩
    obtain ⟨item, hitem, hmessage⟩ := hun pending _ _ identityPayload st m.claim hget hread hclaim
      hm.verified b ((hhas b).trans hb)
    obtain ⟨e', rs, encS, encPayload, encS₃, -, -, hrs⟩ :=
      hm.static_of_signed hP hH (hok.signed b item hitem) hmessage
    exact Or.inl hrs
  | repin k' s' =>
    obtain ⟨rfl, rfl, ref, p, hp, rfl⟩ := h
    refine ⟨(hw.trust a ref p hp).1, fun b hb => ?_⟩
    rw [Node.eq_of_callOf hcall rfl]
    exact Or.inr List.mem_cons_self
  | _ => cases h

lemma Right.discovered_step (hP : P.Correct) (hw : w.Right P identity) {a : ι}
    {event : NodeEvent β X} (hadm : w.Admissible P (a, event)) {k : Bytes β}
    {candidate : PeerIdentity β}
    (hget : ((w.node a).step P event).discovered.get? k = some candidate) :
    candidate.signingPublic = k ∧ k ≠ (identity a).signingPublic P ∧
      ∀ b, (identity b).signingPublic P = k →
        candidate.staticPublic = (identity b).staticPublic P := by
  rcases Node.discovered_step (P := P) (w.node a) event with
    h | ⟨payload, hbeacon, h | ⟨hintroduces, h⟩⟩
  · exact hw.discovered a k candidate (h ▸ hget)
  · exact hw.discovered a k candidate (h ▸ hget)
  rw [h] at hget
  by_cases hk : k = (Node.beaconCandidate payload).signingPublic
  swap
  · rw [OrderedDict.get?_set_of_ne _ _ hk] at hget
    exact hw.discovered a k candidate hget
  subst hk
  rw [OrderedDict.get?_set_self] at hget
  obtain rfl := Option.some.inj hget
  have hok := hw.managers.ok hP
  refine ⟨rfl, ?_, fun b hb => ?_⟩
  · rw [← hok.identity_eq a]
    exact hintroduces.other
  · obtain ⟨item, hitem, hmessage⟩ := hadm.beacon payload hbeacon hintroduces.verified b
      ((congrArg (Identity.signingPublic P) (hok.identity_eq b)).trans hb)
    have hlen := hintroduces.length
    exact (hok.signed b item hitem).static_of_beacon hP (by omega) hmessage

lemma Right.step (hP : P.Correct) (hH : P.HashIdeal) (hw : w.Right P identity)
    {event : ι × NodeEvent β X} (hadm : w.Admissible P event) :
    (w.step P event).Right P identity := by
  obtain ⟨a, event⟩ := event
  obtain ⟨trust, hreach⟩ := hw.managers
  constructor
  · exact ⟨trust, hreach.trans (w.managers_step hadm)⟩
  · intro a'
    rw [node_step]
    by_cases ha : a' = a
    · subst ha
      rw [Function.update_self, Node.sessions_step]
      rcases (w.node a').callOf P event with _ | c
      · exact hw.owned a'
      · exact (hw.owned a').call hP ((hw.managers.ok hP).wellFormed a') c
    · rw [Function.update_of_ne ha]
      exact hw.owned a'
  · intro a'
    rw [node_step]
    by_cases ha : a' = a
    · subst ha
      rw [Function.update_self, Node.sessions_step]
      have hold : (w.node a').sessions.trust.Allows ((w.step P (a', event)).Allowed P identity a') :=
        fun ref p hp => (hw.trust a' ref p hp).step event
      rcases hcall : (w.node a').callOf P event with _ | c
      · exact hold
      · exact SessionManager.allows_call hold fun k s hbrings =>
          hw.brings hP hH hcall (hadm.call c hcall) hbrings
    · rw [Function.update_of_ne ha]
      exact fun ref p hp => (hw.trust a' ref p hp).step event
  · intro a' k candidate hget
    rw [node_step] at hget
    by_cases ha : a' = a
    · subst ha
      rw [Function.update_self] at hget
      exact hw.discovered_step hP hadm hget
    · rw [Function.update_of_ne ha] at hget
      exact hw.discovered a' k candidate hget

lemma Reachable.right (hP : P.Correct) (hH : P.HashIdeal) (hw : w.Reachable P identity) :
    w.Right P identity := by
  obtain ⟨node, hstarts, hreach⟩ := hw
  refine hreach.invariant (I := Right P identity) ?_ fun _ _ hw hadm => hw.step hP hH hadm
  choose trust hsessions hallows using hstarts.sessions
  constructor
  · have hmanagers : (NodeWorld.mk node [] []).managers = World.initial identity trust :=
      World.ext (funext hsessions) rfl
    rw [hmanagers]
    exact ⟨trust, .refl _⟩
  · intro a k session hget
    rw [show (node a).sessions = _ from hsessions a] at hget
    cases hget
  · intro a ref p hp
    rw [show (node a).sessions = _ from hsessions a] at hp
    obtain ⟨hlen, hstatic⟩ := hallows a ref p hp
    exact ⟨hlen, fun b hb => Or.inl (hstatic b hb)⟩
  · intro a k candidate hget
    rw [show (node a).discovered = _ from hstarts.discovered a, OrderedDict.get?_empty] at hget
    cases hget

/-- Whatever the network does, and whatever beacons and handshakes it makes up or replays: under the
signing key of an honest node `b`, a node discovers no other static key than that of `b`, pins no
other, and has no session with another, unless its user has re-pinned it. It never discovers
itself. -/
theorem static_of_honest (hP : P.Correct) (hH : P.HashIdeal) (hw : w.Reachable P identity)
    (a b : ι) :
    (∀ candidate, (w.node a).discovered.get? ((identity b).signingPublic P) = some candidate →
      candidate.staticPublic = (identity b).staticPublic P ∧
        (identity b).signingPublic P ≠ (identity a).signingPublic P) ∧
    (∀ p, (w.node a).sessions.trust.get ((identity b).signingPublic P) = some p →
      p.staticPublic = (identity b).staticPublic P ∨
        (a, (identity b).signingPublic P, p.staticPublic) ∈ w.repinned) ∧
    ∀ session, (w.node a).sessions.sessionFor ((identity b).signingPublic P) = some session →
      ∃ p, (w.node a).sessions.peerOf session = some p ∧
        p.signingPublic = (identity b).signingPublic P ∧
        (p.staticPublic = (identity b).staticPublic P ∨
          (a, (identity b).signingPublic P, p.staticPublic) ∈ w.repinned) := by
  have hright := hw.right hP hH
  refine ⟨fun candidate hget => ?_, fun p hp => ?_, fun session hs => ?_⟩
  · obtain ⟨-, hne, hstatic⟩ := hright.discovered a _ candidate hget
    exact ⟨hstatic b rfl, hne⟩
  · -- what is pinned is an object of the store
    obtain ⟨ref, href, hobject⟩ := Option.bind_eq_some_iff.mp hp
    obtain ⟨p', hp', hkey⟩ := TrustStore.object_of_get? href
    obtain rfl := Option.some.inj (hobject.symm.trans hp')
    rw [← hkey]
    exact (hright.trust a ref p hobject).2 b hkey.symm
  · -- and so is the peer of a session
    obtain ⟨p, hobject, hkey⟩ := hright.owned a _ session hs
    refine ⟨p, hobject, hkey, ?_⟩
    rw [← hkey]
    exact (hright.trust a session.peer p hobject).2 b hkey.symm

/-! ## Alice hears of Bob -/

section Meeting

open LabelRun SessionManager.Meeting

/-- The nodes of Alice and of Bob, as they are built. -/
def builtNode (a : Bool) : Node Node.openLink ℕ ℕ :=
  Node.new Node.openLink {} () (identities a) (.empty none) none (fun _ => .ok ())
    Node.aliceNode.capacity_eq

def built : NodeWorld (fun _ : Bool => Node.openLink) ℕ ℕ := { node := builtNode }

/-- Bob has sent his beacon. -/
def beaconSent : NodeWorld (fun _ : Bool => Node.openLink) ℕ ℕ :=
  built.step symbolic (true, .broadcastBeacon Node.aliceEnv)

def beaconFrame : Bytes SymByte := (beaconSent.node true).handed.flatten

def beaconArrives : NodeEvent SymByte ℕ := .inbound (.frame beaconFrame none arrival)

/-- Alice has received it. -/
def beaconHeard : NodeWorld (fun _ : Bool => Node.openLink) ℕ ℕ :=
  beaconSent.step symbolic (false, beaconArrives)

lemma starts_built : Starts symbolic identities builtNode where
  sessions a := ⟨.empty none, rfl, fun ref p hp => by cases hp⟩
  discovered _ := rfl

lemma sending_admissible : built.Admissible symbolic (true, .broadcastBeacon Node.aliceEnv) where
  call c hc := by cases hc
  beacon payload hpayload := by cases hpayload
  timestamp env henv := by
    cases henv
    rfl

lemma hearing_admissible : beaconSent.Admissible symbolic (false, beaconArrives) where
  call c hc := by
    have hnone : ((beaconSent.node false).callOf symbolic beaconArrives).isSome = false := by
      decide +kernel
    rw [hc] at hnone
    cases hnone
  beacon payload hpayload := by
    have hbeacon : (beaconSent.node false).beaconOf symbolic beaconArrives =
        some (bob.beacon symbolic Node.aliceEnv.timestamp) := by decide +kernel
    obtain rfl := Option.some.inj (hbeacon.symm.trans hpayload)
    intro _ b hb
    cases b with
    | false => exact absurd hb (by decide +kernel)
    | true =>
      exact ⟨.beacon (bob.beaconBody symbolic Node.aliceEnv.timestamp), List.mem_cons_self,
        by decide +kernel⟩
  timestamp env henv := by cases henv

lemma reachable_beaconHeard : beaconHeard.Reachable symbolic identities :=
  ⟨builtNode, starts_built, ((Reaches.refl _).tail sending_admissible).tail hearing_admissible⟩

/-- Alice has discovered Bob, with his static key. -/
theorem static_of_honest_meeting :
    ∃ candidate, (beaconHeard.node false).discovered.get? (bob.signingPublic symbolic) =
      some candidate ∧ candidate.staticPublic = bob.staticPublic symbolic := by
  have hsome : ((beaconHeard.node false).discovered.get? (bob.signingPublic symbolic)).isSome =
      true := by decide +kernel
  obtain ⟨candidate, hget⟩ := Option.isSome_iff_exists.mp hsome
  have hhonest := static_of_honest symbolic_correct symbolic_hashIdeal reachable_beaconHeard false
    true
  exact ⟨candidate, hget, (hhonest.1 candidate hget).1⟩

end Meeting

end NodeWorld

end Chatbit
