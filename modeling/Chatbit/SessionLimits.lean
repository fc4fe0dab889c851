import Chatbit.Handshake.Connect
import Chatbit.SessionRunTheorems

/-!
# How many handshakes are pending

`handle_init` compares the pending entries with `MAX_PENDING_HANDSHAKES` before it adds one.
`start_handshake` adds its entry without that check, so the bound is kept by the calls that find
room (`HasRoom`). A RESP or a FIN changes no entry but its own.
-/

namespace Chatbit

open Lib

variable {β X E : Type} [Alphabet β] [DecidableEq β] {P : Primitives β X E}

namespace SessionManager

/-! ## Entries of other handshakes -/

/-- What is pending under other ids. -/
def others (hsId : Bytes β) (manager : SessionManager β X E) :
    OrderedDict (Bytes β) (PendingHandshake β X) := manager.pending.erase hsId

section Frame

variable {hsId : Bytes β} {pending : PendingHandshake β X}

omit [Alphabet β] in
/-- Changing the entry of a handshake leaves the others. -/
lemma others_setPending : Method.Keeps (others hsId)
    (setPending hsId pending : Method (Exc β) (SessionManager β X E) Unit) :=
  .update fun manager => manager.pending.erase_set_self hsId pending

omit [Alphabet β] in
/-- So does deleting it. -/
lemma others_delPending : Method.Keeps (others hsId)
    (delPending hsId : Method (Exc β) (SessionManager β X E) Unit) :=
  .update fun manager => manager.pending.erase_erase hsId

omit [Alphabet β] in
/-- A message of the handshake is read into its entry. -/
lemma others_onHandshake {α : Type} (m : Method (Exc β) (HandshakeState β X) α) :
    Method.Keeps (others hsId)
      (onHandshake hsId pending m : Method (Exc β) (SessionManager β X E) _) :=
  .bind others_setPending fun _ => .bind (.eval _ _) fun _ => .pure _ _

omit [Alphabet β] in
/-- If it is rejected, its entry goes. -/
lemma others_readHandshake {α : Type} (rejected : String)
    (read : Method (Exc β) (HandshakeState β X) α) :
    Method.Keeps (others hsId)
      (readHandshake hsId pending rejected read : Method (Exc β) (SessionManager β X E) _) := by
  intro manager
  have hread : (onHandshake hsId pending read manager).2.others hsId = manager.others hsId :=
    others_onHandshake read manager
  unfold readHandshake
  rcases h : onHandshake hsId pending read manager with ⟨err | result, manager'⟩
  · rw [h] at hread
    dsimp only
    split_ifs
    · exact (others_delPending manager').trans hread
    · exact hread
  · rwa [h] at hread

/-- If the identity is not verified, its entry goes. -/
lemma others_verifyPeer (rs signedHash : Bytes β) (claim : IdentityPayload β) (invalid : String) :
    Method.Keeps (others hsId)
      (verifyPeer P hsId rs signedHash claim invalid :
        Method (Exc β) (SessionManager β X E) _) := by
  unfold verifyPeer
  dsimp only
  split_ifs
  · exact .pure _ _
  · exact .bind others_delPending fun _ _ => rfl

/-- Pinning is about the trust store. -/
lemma others_pin (peer : PeerIdentity β) (now : ℚ) : Method.Keeps (others hsId)
    (pin P peer now : Method (Exc β) (SessionManager β X E) _) := by
  apply Method.Keeps.onField
  exact fun _ _ => rfl

/-- The session that comes of a handshake ends its entry. -/
lemma others_finalise (peer : PeerRef) (ratchetPub : Option (Bytes β)) (establishedAt : ℚ)
    (fresh : X) : Method.Keeps (others hsId)
      (finalise P pending peer ratchetPub establishedAt fresh :
        Method (Exc β) (SessionManager β X E) _) := by
  refine .bind (.eval _ _) fun _ => .bind (.self _) fun manager => ?_
  split
  · exact fun _ => rfl
  · exact .bind (.update fun _ => rfl) fun _ => .pure _ _

/-- So a RESP touches the handshake that it belongs to only. -/
lemma others_completeInitiator (body : Bytes β) (fresh : X) (now establishedAt : ℚ) :
    Method.Keeps (others hsId)
      (completeInitiator P hsId body pending fresh now establishedAt :
        Method (Exc β) (SessionManager β X E) _) := by
  refine .bind ?_ fun _ => .bind (.self _) fun _ => .bind (others_onHandshake _) fun _ =>
    .bind (others_finalise _ _ _ _) fun _ => .bind others_delPending fun _ => .pure _ _
  exact .bind (others_readHandshake _ _) fun _ => .bind (.eval _ _) fun _ =>
    .bind (others_verifyPeer _ _ _ _) fun _ => .bind (others_pin _ _) fun _ => .pure _ _

/-- So does a FIN. -/
lemma others_completeResponder (body : Bytes β) (fresh : X) (now establishedAt : ℚ) :
    Method.Keeps (others hsId)
      (completeResponder P hsId body pending fresh now establishedAt :
        Method (Exc β) (SessionManager β X E) _) :=
  .bind (others_readHandshake _ _) fun _ => .bind (.eval _ _) fun _ =>
    .bind (others_verifyPeer _ _ _ _) fun _ => .bind (others_pin _ _) fun _ =>
    .bind (others_finalise _ _ _ _) fun _ => .bind others_delPending fun _ => .pure _ _

end Frame

/-! ## What a call does to the number of entries -/

section Calls

variable {manager manager' : SessionManager β X E} {hsId : Bytes β}

omit [Alphabet β] in
/-- Where an entry is there and the others stay, the entries do not get more. -/
lemma length_pending_le_of_others (hmem : hsId ∈ manager.pending.keys)
    (h : manager'.others hsId = manager.others hsId) :
    manager'.pending.length ≤ manager.pending.length := by
  have hlen := OrderedDict.length_erase hmem
  have heq : (manager'.pending.erase hsId).length = (manager.pending.erase hsId).length :=
    congrArg OrderedDict.length h
  by_cases hmem' : hsId ∈ manager'.pending.keys
  · have hlen' := OrderedDict.length_erase hmem'
    omega
  · rw [OrderedDict.erase_of_not_mem hmem'] at heq
    omega

/-- A RESP adds no entry. -/
lemma length_pending_handleResponse (payload : Bytes β) (fresh : X) (now establishedAt : ℚ) :
    (handleResponse P payload fresh now establishedAt manager).2.pending.length ≤
      manager.pending.length := by
  by_cases hnot : ∀ p, manager.pending.get? (payload.take HS_ID_LEN) = some p → p.initiator = false
  · rw [handleResponse_of_not hnot]
  · push Not at hnot
    obtain ⟨pending, hget, hi⟩ := hnot
    rw [handleResponse_of_pending hget (by simpa using hi), Method.map_apply]
    exact length_pending_le_of_others (OrderedDict.mem_keys_of_get? hget)
      (others_completeInitiator _ _ _ _ manager)

/-- Nor does a FIN. -/
lemma length_pending_handleFin (payload : Bytes β) (fresh : X) (now establishedAt : ℚ) :
    (handleFin P payload fresh now establishedAt manager).2.pending.length ≤
      manager.pending.length := by
  by_cases hnot : ∀ p, manager.pending.get? (payload.take HS_ID_LEN) = some p → p.initiator = true
  · rw [handleFin_of_not hnot]
  · push Not at hnot
    obtain ⟨pending, hget, hi⟩ := hnot
    rw [handleFin_of_pending hget (by simpa using hi), Method.map_apply]
    exact length_pending_le_of_others (OrderedDict.mem_keys_of_get? hget)
      (others_completeResponder _ _ _ _ manager)

omit [Alphabet β] [DecidableEq β] in
/-- Nor does time. -/
lemma length_pending_expire (now : ℚ) (manager : SessionManager β X E) :
    (manager.expire now).pending.length ≤ manager.pending.length :=
  List.length_filter_le _ _

/-- `handle_init` keeps the bound, whatever the payload. -/
lemma length_pending_handleInit (payload : Bytes β) (ephemeral ratchetPrivate : X)
    (now startedAt : ℚ) (hle : manager.pending.length ≤ MAX_PENDING_HANDSHAKES) :
    (handleInit P payload ephemeral ratchetPrivate now startedAt manager).2.pending.length ≤
      MAX_PENDING_HANDSHAKES := by
  have hexpire := (manager.length_pending_expire now).trans hle
  rw [handleInit, expirePending, Method.update_bind, Method.self_bind]
  split_ifs with hfull hmem
  · exact hexpire
  · exact hexpire
  · rw [Method.bind_apply, Method.eval_apply]
    rcases respond P (manager.expire now).identity (payload.drop HS_ID_LEN) ephemeral
      ratchetPrivate with err | _ | ⟨message, handshake⟩
    · exact hexpire
    · exact hexpire
    · -- the entry that is added had room
      change ((manager.expire now).pending.set _ _).length ≤ _
      rw [OrderedDict.length_set, if_neg hmem]
      omega

/-- If the call starts a handshake, an entry is free for it after the expiry, or its id replaces
one that is pending. -/
def HasRoom (manager : SessionManager β X E) : Call β X → Prop
  | .start _ hsId _ now _ _ =>
    hsId ∈ (manager.expire now).pending.keys ∨
      (manager.expire now).pending.length < MAX_PENDING_HANDSHAKES
  | _ => True

/-- A call keeps the cap exactly where there is room for what it adds. -/
lemma length_pending_call_iff (hle : manager.pending.length ≤ MAX_PENDING_HANDSHAKES)
    (c : Call β X) :
    (manager.call P c).pending.length ≤ MAX_PENDING_HANDSHAKES ↔ HasRoom manager c := by
  cases c with
  | start peerStatic hsId e now startedAt wallNow =>
    have hexpire := (manager.length_pending_expire now).trans hle
    rw [SessionManager.call, startHandshake_snd, OrderedDict.length_set, HasRoom]
    split_ifs with hmem
    · exact iff_of_true hexpire (Or.inl hmem)
    · rw [or_iff_right hmem]
      omega
  | init => exact iff_of_true (length_pending_handleInit _ _ _ _ _ hle) trivial
  | response => exact iff_of_true ((length_pending_handleResponse _ _ _ _).trans hle) trivial
  | fin => exact iff_of_true ((length_pending_handleFin _ _ _ _).trans hle) trivial
  | encrypt | decrypt =>
    rw [SessionManager.call, pending_onSession]
    exact iff_of_true hle trivial
  | drop | markVerified | repin | forget => exact iff_of_true hle trivial

end Calls

/-! ## Runs -/

/-- The bound holds throughout a run exactly when each handshake that it starts has room. -/
theorem length_pending_le_iff (identity : Identity X E) (trust : TrustStore β)
    (calls : List (Call β X)) :
    (∀ n, (afterCalls P { identity := identity, trust := trust } (calls.take n)).pending.length ≤
        MAX_PENDING_HANDSHAKES) ↔
      AdmitsAll HasRoom (call P) { identity := identity, trust := trust } calls :=
  forall_take_iff
    (I := fun manager : SessionManager β X E => manager.pending.length ≤ MAX_PENDING_HANDSHAKES)
    (Nat.zero_le _) (fun _ c hle => length_pending_call_iff hle c) calls

open Meeting in
/-- A clock that stands still, and one handshake more than the table is for. -/
theorem starts_exceed_limit :
    ¬ (afterCalls symbolic ({ identity := alice, trust := .empty none } : SessionManager _ _ _)
        ((List.range (MAX_PENDING_HANDSHAKES + 1)).map fun i =>
          .start (bob.staticPublic symbolic) (toBytesBig HS_ID_LEN i) 12 0 0 0)).pending.length ≤
      MAX_PENDING_HANDSHAKES := by
  decide +kernel

end SessionManager

end Chatbit
