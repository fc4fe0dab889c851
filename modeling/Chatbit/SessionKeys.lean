import Mathlib.Data.Set.Basic
import Chatbit.Crypto.IdentityTheorems
import Chatbit.SessionRun

/-!
# Whose keys a session manager keeps

Peers are pinned, and sessions are filed, under signing keys. Each of these keys has signed a
handshake with us (`signer`), or was in the trust store to begin with.
-/

namespace Chatbit

open Lib Method

variable {β X E : Type} [Alphabet β] [DecidableEq β] {P : Primitives β X E} {K : Set (Bytes β)}

/-! ## The trust store -/

namespace TrustStore

variable {store : TrustStore β}

/-- Each object of the store has its signing key in `K`. -/
def KeysIn (K : Set (Bytes β)) (store : TrustStore β) : Prop :=
  ∀ p ∈ store.objects, p.signingPublic ∈ K

omit [Alphabet β] [DecidableEq β] in
/-- The entries are filed under keys of the set. -/
lemma KeysIn.peers (h : store.KeysIn K) : ∀ k ∈ store.peers.keys, k ∈ K := by
  intro k hk
  obtain ⟨ref, hmem⟩ := OrderedDict.mem_keys_iff.mp hk
  obtain ⟨p, hobj, rfl⟩ := store.keyed _ hmem
  exact h p (List.mem_of_getElem? hobj)

omit [Alphabet β] [DecidableEq β] in
/-- The records have keys of the set. -/
lemma KeysIn.object (h : store.KeysIn K) {ref : PeerRef} {p : PeerIdentity β}
    (hobj : store.object ref = some p) : p.signingPublic ∈ K :=
  h p (List.mem_of_getElem? hobj)

omit [Alphabet β] [DecidableEq β] in
/-- Saving changes no record. -/
lemma KeysIn.save (h : store.KeysIn K) : store.save.KeysIn K := by
  rwa [KeysIn, save_objects]

omit [Alphabet β] [DecidableEq β] in
/-- A change that keeps the key of a record keeps all of them. -/
lemma KeysIn.modify (h : store.KeysIn K) (ref : PeerRef) {f : PeerIdentity β → PeerIdentity β}
    (hf : ∀ p, (f p).signingPublic = p.signingPublic) : (store.modify ref f hf).KeysIn K := by
  intro p hp
  obtain ⟨n, hn⟩ := List.mem_iff_getElem?.mp hp
  rw [TrustStore.modify, List.getElem?_modify] at hn
  obtain ⟨q, hq, rfl⟩ := Option.map_eq_some_iff.mp hn
  have hkey := h q (List.mem_of_getElem? hq)
  split_ifs
  · rwa [hf]
  · exact hkey

/-- `observe` adds the key that it is called with. -/
lemma ensures_observe {k : Bytes β} (hk : k ∈ K) (staticPublic : Bytes β) (nickname : String)
    (now : ℚ) : Ensures (KeysIn K) (fun _ => True) (observe P k staticPublic nickname now) := by
  refine ensures_true_iff.mpr fun store h => ?_
  have hends := observe_ends P store k staticPublic nickname now
  generalize observe P k staticPublic nickname now store = outcome at hends
  cases hends with
  | pins hget =>
    refine KeysIn.save fun p hp => ?_
    rcases List.mem_append.mp hp with hp | hp
    · exact h p hp
    · rw [List.mem_singleton.mp hp]
      exact hk
  | refuses => exact h
  | @renames ref =>
    exact (h.modify ref (f := fun p => { p with nickname := nickname }) fun _ => rfl).save
  | knows => exact h

omit [Alphabet β] in
/-- The user's operations bring in no key. -/
lemma ensures_change (k : Bytes β) (unknown : String) (f : PeerIdentity β → PeerIdentity β)
    (hf : ∀ p, (f p).signingPublic = p.signingPublic) :
    Ensures (KeysIn K) (fun _ => True) (change k unknown f hf) := by
  refine .bind .self fun store _ => ?_
  split
  · exact .raise _
  · exact .bind (.update fun _ h => (h.modify _ hf).save) fun _ _ => .pure trivial

end TrustStore

/-! ## Who has signed -/

namespace SessionManager

/-- The key that an identity payload names, if the message was read and is signed under the key. -/
def signerOf (P : Primitives β X E) (expectRatchet : Bool) :
    Except (Exc β) (Bytes β × Bytes β × Bytes β) → Option (Bytes β)
  | .error _ => none
  | .ok (_, signedHash, payload) =>
    match decodeIdentityPayload payload expectRatchet with
    | .error _ => none
    | .ok claim =>
      if P.verify claim.signingPub claim.signature (SIG_DOMAIN ++ signedHash) = true then
        some claim.signingPub
      else none

/-- The signer of a message that goes on with a pending handshake of ours in this role. -/
def signer (P : Primitives β X E) (initiator : Bool)
    (read : Bytes β → Method (Exc β) (HandshakeState β X) (Bytes β × Bytes β × Bytes β))
    (payload : Bytes β) (manager : SessionManager β X E) : Option (Bytes β) :=
  match manager.pending.get? (payload.take HS_ID_LEN) with
  | none => none
  | some pending =>
    if pending.initiator = initiator then
      signerOf P initiator (read (payload.drop HS_ID_LEN) pending.handshake).1
    else none

def responseSigner (P : Primitives β X E) (manager : SessionManager β X E) (payload : Bytes β) :
    Option (Bytes β) :=
  signer P true (HandshakeState.readMessage2 P) payload manager

def finSigner (P : Primitives β X E) (manager : SessionManager β X E) (payload : Bytes β) :
    Option (Bytes β) :=
  signer P false (HandshakeState.readMessage3 P) payload manager

/-- The signer of what a call hands to the manager. -/
def callSigner (P : Primitives β X E) (manager : SessionManager β X E) :
    Call β X → Option (Bytes β)
  | .response payload _ _ _ => manager.responseSigner P payload
  | .fin payload _ _ _ => manager.finSigner P payload
  | _ => none

omit [DecidableEq β] in
/-- A claim that verifies names its signer. -/
lemma signerOf_eq_some {expectRatchet : Bool} {rs signedHash payload : Bytes β}
    {claim : IdentityPayload β} (hclaim : decodeIdentityPayload payload expectRatchet = .ok claim)
    (hverify : P.verify claim.signingPub claim.signature (SIG_DOMAIN ++ signedHash) = true) :
    signerOf P expectRatchet (.ok (rs, signedHash, payload)) = some claim.signingPub := by
  simp only [signerOf, hclaim, hverify, if_true]

end SessionManager

/-! ## The manager -/

namespace SessionManager

/-- The keys of the peers and of the sessions are in `K`. -/
structure KeysIn (K : Set (Bytes β)) (manager : SessionManager β X E) : Prop where
  trust : manager.trust.KeysIn K
  sessions : ∀ k ∈ manager.sessions.keys, k ∈ K

section Handlers

variable {hsId : Bytes β} {pending : PendingHandshake β X}

omit [Alphabet β] in
lemma ensures_setPending : Ensures (KeysIn K) (fun _ => True)
    (setPending hsId pending : Method (Exc β) (SessionManager β X E) Unit) :=
  .update fun _ h => ⟨h.trust, h.sessions⟩

omit [Alphabet β] in
lemma ensures_delPending : Ensures (KeysIn K) (fun _ => True)
    (delPending hsId : Method (Exc β) (SessionManager β X E) Unit) :=
  .update fun _ h => ⟨h.trust, h.sessions⟩

omit [Alphabet β] in
lemma ensures_onHandshake {α : Type} (m : Method (Exc β) (HandshakeState β X) α) :
    Ensures (KeysIn K) (fun result => (m pending.handshake).1 = .ok result.1)
      (onHandshake hsId pending m : Method (Exc β) (SessionManager β X E) _) :=
  .bind ensures_setPending fun _ _ => .bind (.eval fun _ h => h) fun _ h => .pure h

omit [Alphabet β] in
/-- What a message was read as is what it reads as. -/
lemma ensures_readHandshake {α : Type} (rejected : String)
    (read : Method (Exc β) (HandshakeState β X) α) :
    Ensures (KeysIn K) (fun result => (read pending.handshake).1 = .ok result.1)
      (readHandshake hsId pending rejected read : Method (Exc β) (SessionManager β X E) _) := by
  intro manager h
  have hensures : Ensures (KeysIn K) (fun result => (read pending.handshake).1 = .ok result.1)
      (onHandshake hsId pending read : Method (Exc β) (SessionManager β X E) _) :=
    ensures_onHandshake read
  have hread := hensures manager h
  unfold readHandshake
  unfold wp at hread ⊢
  rcases hcall : onHandshake hsId pending read manager with ⟨err | result, manager'⟩
  · rw [hcall] at hread
    dsimp only at hread ⊢
    rw [hcall]
    dsimp only
    split_ifs
    · exact ⟨hread.trust, hread.sessions⟩
    · exact hread
  · rw [hcall] at hread
    dsimp only at hread ⊢
    rw [hcall]
    exact hread

/-- A peer that passes has signed. -/
lemma ensures_verifyPeer {signedHash : Bytes β} {claim : IdentityPayload β}
    (hsigned : P.verify claim.signingPub claim.signature (SIG_DOMAIN ++ signedHash) = true →
      claim.signingPub ∈ K) (rs : Bytes β) (invalid : String) :
    Ensures (KeysIn K) (fun peer => peer.signingPublic ∈ K)
      (verifyPeer P hsId rs signedHash claim invalid :
        Method (Exc β) (SessionManager β X E) _) := by
  unfold verifyPeer
  dsimp only
  split_ifs with hverify
  · exact .pure (hsigned hverify)
  · exact .bind ensures_delPending fun _ _ => .raise _

/-- Pinning a peer brings in its key. -/
lemma ensures_pin {peer : PeerIdentity β} (hpeer : peer.signingPublic ∈ K) (now : ℚ) :
    Ensures (KeysIn K) (fun _ => True)
      (pin P peer now : Method (Exc β) (SessionManager β X E) _) :=
  .onField (fun _ h => h.trust) (fun _ _ h htrust => ⟨htrust, h.sessions⟩)
    (TrustStore.ensures_observe hpeer _ _ _)

/-- The session is filed under the key of a peer of the store. -/
lemma ensures_finalise (ref : PeerRef) (ratchetPub : Option (Bytes β)) (establishedAt : ℚ)
    (fresh : X) : Ensures (KeysIn K) (fun _ => True)
      (finalise P pending ref ratchetPub establishedAt fresh :
        Method (Exc β) (SessionManager β X E) _) := by
  refine .bind (.eval fun _ _ => trivial) fun _ _ => .bind .self fun manager hmanager => ?_
  split
  · exact .raise _
  · rename_i peer hpeer
    refine .bind (.update fun _ h => ⟨h.trust, fun k hk => ?_⟩) fun _ _ => .pure trivial
    rcases OrderedDict.mem_keys_set_iff.mp hk with rfl | hk
    · exact hmanager.trust.object hpeer
    · exact h.sessions k hk

/-- Completing a handshake brings in the signer of its RESP only. -/
lemma ensures_completeInitiator {body : Bytes β}
    (hsigned : ∀ k, signerOf P true (HandshakeState.readMessage2 P body pending.handshake).1 =
      some k → k ∈ K) (fresh : X) (now establishedAt : ℚ) :
    Ensures (KeysIn K) (fun _ => True)
      (completeInitiator P hsId body pending fresh now establishedAt :
        Method (Exc β) (SessionManager β X E) _) := by
  refine .bind (Q := fun _ => True) ?_ fun _ _ => .bind .self fun _ _ =>
    .bind (ensures_onHandshake _) fun _ _ => .bind (ensures_finalise _ _ _ _) fun _ _ =>
    .bind ensures_delPending fun _ _ => .pure trivial
  refine .bind (ensures_readHandshake _ _) fun result hread => ?_
  refine .bind (.eval fun _ hclaim => hclaim) fun claim hclaim => ?_
  rw [hread] at hsigned
  exact .bind (ensures_verifyPeer (fun hverify => hsigned _ (signerOf_eq_some hclaim hverify)) _ _)
    fun _ hpeer => .bind (ensures_pin hpeer _) fun _ _ => .pure trivial

/-- For the responder it is the signer of the FIN. -/
lemma ensures_completeResponder {body : Bytes β}
    (hsigned : ∀ k, signerOf P false (HandshakeState.readMessage3 P body pending.handshake).1 =
      some k → k ∈ K) (fresh : X) (now establishedAt : ℚ) :
    Ensures (KeysIn K) (fun _ => True)
      (completeResponder P hsId body pending fresh now establishedAt :
        Method (Exc β) (SessionManager β X E) _) := by
  refine .bind (ensures_readHandshake _ _) fun result hread => ?_
  refine .bind (.eval fun _ hclaim => hclaim) fun claim hclaim => ?_
  rw [hread] at hsigned
  exact .bind (ensures_verifyPeer (fun hverify => hsigned _ (signerOf_eq_some hclaim hverify)) _ _)
    fun _ hpeer => .bind (ensures_pin hpeer _) fun _ _ =>
    .bind (ensures_finalise _ _ _ _) fun _ _ => .bind ensures_delPending fun _ _ => .pure trivial

/-- Beginning a handshake brings in no key. -/
lemma ensures_startHandshake (peerStatic hsId : Bytes β) (e : X) (now startedAt wallNow : ℚ) :
    Ensures (KeysIn K) (fun _ => True)
      (startHandshake P peerStatic hsId e now startedAt wallNow :
        Method (Exc β) (SessionManager β X E) _) :=
  .bind (.update fun _ h => ⟨h.trust, h.sessions⟩) fun _ _ => .bind .self fun _ _ =>
    .bind (.eval fun _ _ => trivial) fun _ _ => .bind ensures_setPending fun _ _ =>
    .bind (.eval fun _ _ => trivial) fun _ _ => .pure trivial

/-- Nor does answering one. -/
lemma ensures_handleInit (payload : Bytes β) (ephemeral ratchetPrivate : X) (now startedAt : ℚ) :
    Ensures (KeysIn K) (fun _ => True)
      (handleInit P payload ephemeral ratchetPrivate now startedAt :
        Method (Exc β) (SessionManager β X E) _) := by
  refine .bind (.update fun _ h => ⟨h.trust, h.sessions⟩) fun _ _ => .bind .self fun manager _ => ?_
  dsimp only
  split_ifs
  · exact .pure trivial
  · exact .pure trivial
  refine .bind (.eval fun _ _ => trivial) fun answer _ => ?_
  cases answer with
  | none => exact .pure trivial
  | some answer => exact .bind ensures_setPending fun _ _ => .pure trivial

/-- A RESP brings in the key of its signer at most. -/
lemma KeysIn.handleResponse {manager : SessionManager β X E} (h : manager.KeysIn K)
    {payload : Bytes β} (hsigned : ∀ k, manager.responseSigner P payload = some k → k ∈ K)
    (fresh : X) (now establishedAt : ℚ) :
    (handleResponse P payload fresh now establishedAt manager).2.KeysIn K := by
  unfold SessionManager.handleResponse
  rw [self_bind]
  rcases hget : manager.pending.get? (payload.take HS_ID_LEN) with _ | pending
  · exact h
  dsimp only
  split_ifs with hrole
  · exact h
  · have hrole : pending.initiator = true := by simpa using hrole
    rw [Method.map_apply]
    refine (ensures_completeInitiator (fun k hk => hsigned k ?_) _ _ _).snd h
    simpa only [responseSigner, signer, hget, if_pos hrole] using hk

/-- So does a FIN. -/
lemma KeysIn.handleFin {manager : SessionManager β X E} (h : manager.KeysIn K)
    {payload : Bytes β} (hsigned : ∀ k, manager.finSigner P payload = some k → k ∈ K)
    (fresh : X) (now establishedAt : ℚ) :
    (handleFin P payload fresh now establishedAt manager).2.KeysIn K := by
  unfold SessionManager.handleFin
  rw [self_bind]
  rcases hget : manager.pending.get? (payload.take HS_ID_LEN) with _ | pending
  · exact h
  dsimp only
  split_ifs with hrole
  · exact h
  · have hrole : pending.initiator = false := by simpa using hrole
    rw [Method.map_apply]
    refine (ensures_completeResponder (fun k hk => hsigned k ?_) _ _ _).snd h
    simpa only [finSigner, signer, hget, if_pos hrole] using hk

omit [Alphabet β] in
/-- A call on a session leaves the keys alone. -/
lemma KeysIn.onSession {α : Type} {manager : SessionManager β X E} (h : manager.KeysIn K)
    (k : Bytes β) (m : Method (Exc β) (Session β X) α) : (manager.onSession k m).KeysIn K := by
  unfold SessionManager.onSession
  split
  · exact h
  · rename_i session hsession
    refine ⟨h.trust, fun k' hk' => ?_⟩
    rcases OrderedDict.mem_keys_set_iff.mp hk' with rfl | hk'
    · exact h.sessions k' (OrderedDict.mem_keys_iff.mpr ⟨_, OrderedDict.get?_eq_some_iff.mp hsession⟩)
    · exact h.sessions k' hk'

/-- A call brings in the key that has signed what it hands over at most. -/
lemma KeysIn.call {manager : SessionManager β X E} (h : manager.KeysIn K) {c : Call β X}
    (hsigned : ∀ k, manager.callSigner P c = some k → k ∈ K) : (manager.call P c).KeysIn K := by
  cases c with
  | start peerStatic hsId e now startedAt wallNow => exact (ensures_startHandshake _ _ _ _ _ _).snd h
  | init payload e r now startedAt => exact (ensures_handleInit _ _ _ _ _).snd h
  | response payload fresh now establishedAt => exact h.handleResponse hsigned _ _ _
  | fin payload fresh now establishedAt => exact h.handleFin hsigned _ _ _
  | encrypt k plaintext => exact h.onSession _ _
  | decrypt k blob fresh => exact h.onSession _ _
  | drop k =>
    exact ⟨h.trust, fun k' hk' => h.sessions k' ((List.filter_sublist.map Prod.fst).subset hk')⟩
  | markVerified k => exact ⟨(TrustStore.ensures_change _ _ _ _).snd h.trust, h.sessions⟩
  | repin k s => exact ⟨(TrustStore.ensures_change _ _ _ _).snd h.trust, h.sessions⟩
  | forget k => exact ⟨TrustStore.KeysIn.save h.trust, h.sessions⟩

end Handlers

end SessionManager

end Chatbit
