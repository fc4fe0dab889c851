import Chatbit.SessionRun
import Chatbit.SessionRefusals

/-!
# What holds in every state of a session manager

Every pending entry is as `start_handshake` or `handle_init` left it, or it is past the message
that it waits for (`PendingHandshake.Fits`).
-/

namespace Chatbit

open Lib HandshakeState

variable {β X E : Type} [Alphabet β] [DecidableEq β] {P : Primitives β X E}

/-- The reading of the clock that `_expire_pending` compares with, where the call makes one. -/
def Call.expiry : Call β X → Option ℚ
  | .start _ _ _ now _ _ | .init _ _ _ now _ => some now
  | _ => none

namespace SessionManager

/-- What may be pending under `hsId`. -/
inductive Fits (P : Primitives β X E) (identity : Identity X E) (hsId : Bytes β) :
    PendingHandshake β X → Prop
  | waitsResponse (peerStatic : Bytes β) (e : X) (startedAt : ℚ) :
    Fits P identity hsId (startPending P identity peerStatic hsId e startedAt)
  | waitsFin (re : Bytes β) (e r : X) (startedAt : ℚ) (h : Answerable P identity e re) :
    Fits P identity hsId (respPending P identity hsId re e r startedAt)
  | past {p : PendingHandshake β X} (h : p.Past) : Fits P identity hsId p

/-- Every entry fits. -/
def WellFormed (P : Primitives β X E) (manager : SessionManager β X E) : Prop :=
  ∀ hsId p, manager.pending.get? hsId = some p → Fits P manager.identity hsId p

omit [DecidableEq β] in
lemma Fits.past_or_started {identity : Identity X E} {hsId : Bytes β} {p : PendingHandshake β X}
    (h : Fits P identity hsId p) (hi : p.initiator = true) :
    p.Past ∨ ∃ peerStatic e startedAt, p = startPending P identity peerStatic hsId e startedAt := by
  cases h with
  | waitsResponse peerStatic e startedAt => exact Or.inr ⟨peerStatic, e, startedAt, rfl⟩
  | waitsFin re e r startedAt h => cases hi
  | past h => exact Or.inl h

omit [DecidableEq β] in
lemma Fits.past_or_answered {identity : Identity X E} {hsId : Bytes β} {p : PendingHandshake β X}
    (h : Fits P identity hsId p) (hi : p.initiator = false) :
    p.Past ∨ ∃ re e r startedAt, Answerable P identity e re ∧
      p = respPending P identity hsId re e r startedAt := by
  cases h with
  | waitsResponse peerStatic e startedAt => cases hi
  | waitsFin re e r startedAt h => exact Or.inr ⟨re, e, r, startedAt, h, rfl⟩
  | past h => exact Or.inl h

/-! ## What a RESP does -/

/-- What `handle_response` has checked when it returns a session, and what it made of it. -/
structure AcceptsResponse (P : Primitives β X E) (manager : SessionManager β X E)
    (payload : Bytes β) (fresh : X) (now : ℚ) (pending : PendingHandshake β X) (e : X)
    (m : ReceivedResponse β) (ref : PeerRef) (trust' : TrustStore β)
    (keys : DoubleRatchet β X × Bytes β × Bytes β) : Prop where
  pending_eq : ∃ peerStatic startedAt,
    pending = startPending P manager.identity peerStatic (payload.take HS_ID_LEN) e startedAt
  get_pending : manager.pending.get? (payload.take HS_ID_LEN) = some pending
  valid : m.Valid P e (payload.drop HS_ID_LEN)
  observed : TrustStore.observe P m.claim.signingPub m.rs m.claim.nickname now manager.trust =
    (.ok ref, trust')
  se : P.exchange manager.identity.staticPrivate m.re ≠ zeros DHLEN
  keys_eq : finaliseKeys P { pending with handshake := m.finState P manager.identity e }
    m.claim.ratchetPub fresh = .ok keys

section Outcome

variable (hP : P.Correct) {manager manager' : SessionManager β X E} {payload : Bytes β} {fresh : X}
  {now establishedAt : ℚ}
include hP

/-- Everything about a RESP that gives a session. -/
lemma handleResponse_some_iff (hm : WellFormed P manager) {fin : Bytes β} {session : Session β X} :
    handleResponse P payload fresh now establishedAt manager =
        (.ok (some (fin, session)), manager') ↔
      ∃ pending e m ref trust' keys,
        AcceptsResponse P manager payload fresh now pending e m ref trust' keys ∧
        fin = payload.take HS_ID_LEN ++ m.fin P manager.identity e ∧
        session = newSession pending ref keys establishedAt ∧
        manager' = manager.completed (payload.take HS_ID_LEN) m.claim.signingPub trust' session := by
  constructor
  · intro h
    obtain ⟨pending, hget, hi, h⟩ := handleResponse_some h
    rcases (hm _ _ hget).past_or_started hi with hpast | ⟨peerStatic, e, startedAt, rfl⟩
    · obtain ⟨⟨err, herr⟩, -⟩ := completeInitiator_past hi hpast h
      cases herr
    · obtain ⟨m, ref, trust', keys, hvalid, hobserve, hz, rfl, hkeys, rfl, rfl⟩ :=
        (completeInitiator_ok_iff hP rfl).mp h
      exact ⟨_, e, m, ref, trust', keys,
        ⟨⟨_, _, rfl⟩, hget, hvalid, hobserve, hz, hkeys⟩, rfl, rfl, rfl⟩
  · rintro ⟨_, e, m, ref, trust', keys, ⟨⟨peerStatic, startedAt, rfl⟩, hget, hvalid, hobserve, hz,
      hkeys⟩, rfl, rfl, rfl⟩
    rw [handleResponse_of_pending hget rfl, Method.map_ok]
    exact ⟨_, (completeInitiator_ok_iff hP rfl).mpr
      ⟨m, ref, trust', keys, hvalid, hobserve, hz, rfl, hkeys, rfl, rfl⟩, rfl⟩

/-- A RESP that does not give a session is ignored or spoils the entry that it belongs to. -/
lemma handleResponse_of_not_some (hm : WellFormed P manager)
    (h : ∀ result manager', handleResponse P payload fresh now establishedAt manager ≠
      (.ok (some result), manager')) :
    ((∀ p, manager.pending.get? (payload.take HS_ID_LEN) = some p → p.initiator = false) ∧
      handleResponse P payload fresh now establishedAt manager = (.ok none, manager)) ∨
    ((∃ p, manager.pending.get? (payload.take HS_ID_LEN) = some p ∧ p.initiator = true) ∧
      ∃ err manager', handleResponse P payload fresh now establishedAt manager =
        (.error err, manager') ∧ Spoiled (payload.take HS_ID_LEN) manager manager') := by
  by_cases hnot : ∀ p, manager.pending.get? (payload.take HS_ID_LEN) = some p → p.initiator = false
  · exact Or.inl ⟨hnot, handleResponse_of_not hnot⟩
  push Not at hnot
  obtain ⟨pending, hget, hi⟩ := hnot
  have hi : pending.initiator = true := by simpa using hi
  refine Or.inr ⟨⟨pending, hget, hi⟩, ?_⟩
  rw [handleResponse_of_pending hget hi] at h ⊢
  rcases hc : completeInitiator P (payload.take HS_ID_LEN) (payload.drop HS_ID_LEN) pending fresh
    now establishedAt manager with ⟨err | result, manager'⟩
  · refine ⟨err, manager', Method.map_error.mpr hc, ?_⟩
    rcases (hm _ _ hget).past_or_started hi with hpast | ⟨peerStatic, e, startedAt, rfl⟩
    · obtain ⟨-, rfl⟩ := completeInitiator_past hi hpast hc
      exact .of_erase _ manager
    · exact (completeInitiator_ends hP rfl rfl).spoiled hc
  · exact absurd (Method.map_ok.mpr ⟨result, hc, rfl⟩) (h result manager')

end Outcome

/-! ## What a FIN does -/

/-- What `handle_fin` has checked when it returns a session, and what it made of it. -/
structure AcceptsFin (P : Primitives β X E) (manager : SessionManager β X E)
    (payload : Bytes β) (fresh : X) (now : ℚ) (pending : PendingHandshake β X) (re : Bytes β)
    (e r : X) (m : ReceivedFin β) (ref : PeerRef) (trust' : TrustStore β)
    (keys : DoubleRatchet β X × Bytes β × Bytes β) : Prop where
  pending_eq : ∃ startedAt,
    pending = respPending P manager.identity (payload.take HS_ID_LEN) re e r startedAt
  answerable : Answerable P manager.identity e re
  get_pending : manager.pending.get? (payload.take HS_ID_LEN) = some pending
  valid : m.Valid P manager.identity.staticPrivate e re (respEncStatic P manager.identity e re)
    (respEncPayload P manager.identity e r re) (payload.drop HS_ID_LEN)
  observed : TrustStore.observe P m.claim.signingPub m.rs m.claim.nickname now manager.trust =
    (.ok ref, trust')
  keys_eq : finaliseKeys P { pending with
      handshake := m.state P manager.identity.staticPrivate e re
        (respEncStatic P manager.identity e re) (respEncPayload P manager.identity e r re) }
    none fresh = .ok keys

section Outcome

variable (hP : P.Correct) {manager manager' : SessionManager β X E} {payload : Bytes β} {fresh : X}
  {now establishedAt : ℚ}
include hP

/-- Everything about a FIN that gives a session. -/
lemma handleFin_some_iff (hm : WellFormed P manager) {session : Session β X} :
    handleFin P payload fresh now establishedAt manager = (.ok (some session), manager') ↔
      ∃ pending re e r m ref trust' keys,
        AcceptsFin P manager payload fresh now pending re e r m ref trust' keys ∧
        session = newSession pending ref keys establishedAt ∧
        manager' = manager.completed (payload.take HS_ID_LEN) m.claim.signingPub trust' session := by
  constructor
  · intro h
    obtain ⟨pending, hget, hi, h⟩ := handleFin_some h
    rcases (hm _ _ hget).past_or_answered hi with hpast | ⟨re, e, r, startedAt, ha, rfl⟩
    · obtain ⟨⟨err, herr⟩, -⟩ := completeResponder_past hi hpast h
      cases herr
    · obtain ⟨m, ref, trust', keys, hvalid, hobserve, hkeys, rfl, rfl⟩ :=
        (completeResponder_ok_iff hP rfl).mp h
      exact ⟨_, re, e, r, m, ref, trust', keys,
        ⟨⟨_, rfl⟩, ha, hget, hvalid, hobserve, hkeys⟩, rfl, rfl⟩
  · rintro ⟨_, re, e, r, m, ref, trust', keys, ⟨⟨startedAt, rfl⟩, ha, hget, hvalid, hobserve,
      hkeys⟩, rfl, rfl⟩
    rw [handleFin_of_pending hget rfl, Method.map_ok]
    exact ⟨_, (completeResponder_ok_iff hP rfl).mpr
      ⟨m, ref, trust', keys, hvalid, hobserve, hkeys, rfl, rfl⟩, rfl⟩

/-- A FIN that does not give a session is ignored or spoils the entry that it belongs to. -/
lemma handleFin_of_not_some (hm : WellFormed P manager)
    (h : ∀ result manager', handleFin P payload fresh now establishedAt manager ≠
      (.ok (some result), manager')) :
    ((∀ p, manager.pending.get? (payload.take HS_ID_LEN) = some p → p.initiator = true) ∧
      handleFin P payload fresh now establishedAt manager = (.ok none, manager)) ∨
    ((∃ p, manager.pending.get? (payload.take HS_ID_LEN) = some p ∧ p.initiator = false) ∧
      ∃ err manager', handleFin P payload fresh now establishedAt manager =
        (.error err, manager') ∧ Spoiled (payload.take HS_ID_LEN) manager manager') := by
  by_cases hnot : ∀ p, manager.pending.get? (payload.take HS_ID_LEN) = some p → p.initiator = true
  · exact Or.inl ⟨hnot, handleFin_of_not hnot⟩
  push Not at hnot
  obtain ⟨pending, hget, hi⟩ := hnot
  have hi : pending.initiator = false := by simpa using hi
  refine Or.inr ⟨⟨pending, hget, hi⟩, ?_⟩
  rw [handleFin_of_pending hget hi] at h ⊢
  rcases hc : completeResponder P (payload.take HS_ID_LEN) (payload.drop HS_ID_LEN) pending fresh
    now establishedAt manager with ⟨err | result, manager'⟩
  · refine ⟨err, manager', Method.map_error.mpr hc, ?_⟩
    rcases (hm _ _ hget).past_or_answered hi with hpast | ⟨re, e, r, startedAt, ha, rfl⟩
    · obtain ⟨-, rfl⟩ := completeResponder_past hi hpast hc
      exact .of_erase _ manager
    · exact (completeResponder_ends hP rfl rfl rfl).spoiled hc
  · exact absurd (Method.map_ok.mpr ⟨result, hc, rfl⟩) (h result manager')

/-! ## What a call does to the pending entries -/

omit hP in
/-- What handling a RESP or a FIN with this id may leave. -/
inductive Handled (hsId : Bytes β) (manager : SessionManager β X E) :
    SessionManager β X E → Prop
  | ignored : Handled hsId manager manager
  | completed (signingPublic : Bytes β) (trust' : TrustStore β) (session : Session β X) :
    Handled hsId manager (manager.completed hsId signingPublic trust' session)
  | spoiled {manager' : SessionManager β X E} (h : Spoiled hsId manager manager') :
    Handled hsId manager manager'

lemma handleResponse_handled (hm : WellFormed P manager) :
    Handled (payload.take HS_ID_LEN) manager
      (handleResponse P payload fresh now establishedAt manager).2 := by
  by_cases hok : ∃ result manager',
    handleResponse P payload fresh now establishedAt manager = (.ok (some result), manager')
  · obtain ⟨⟨fin, session⟩, manager', hok⟩ := hok
    obtain ⟨_, e, m, ref, trust', keys, -, -, -, rfl⟩ := (handleResponse_some_iff hP hm).mp hok
    rw [hok]
    exact .completed _ _ _
  · push Not at hok
    rcases handleResponse_of_not_some hP hm hok with ⟨-, heq⟩ | ⟨-, err, manager', heq, hs⟩
    · rw [heq]; exact .ignored
    · rw [heq]; exact .spoiled hs

lemma handleFin_handled (hm : WellFormed P manager) :
    Handled (payload.take HS_ID_LEN) manager
      (handleFin P payload fresh now establishedAt manager).2 := by
  by_cases hok : ∃ result manager',
    handleFin P payload fresh now establishedAt manager = (.ok (some result), manager')
  · obtain ⟨session, manager', hok⟩ := hok
    obtain ⟨_, re, e, r, m, ref, trust', keys, -, -, rfl⟩ := (handleFin_some_iff hP hm).mp hok
    rw [hok]
    exact .completed _ _ _
  · push Not at hok
    rcases handleFin_of_not_some hP hm hok with ⟨-, heq⟩ | ⟨-, err, manager', heq, hs⟩
    · rw [heq]; exact .ignored
    · rw [heq]; exact .spoiled hs

omit hP [Alphabet β] in
lemma Handled.identity {hsId : Bytes β} (h : Handled hsId manager manager') :
    manager'.identity = manager.identity := by
  cases h with
  | ignored => rfl
  | completed => rfl
  | spoiled hs => exact hs.identity

omit hP [Alphabet β] in
lemma Handled.get? {hsId hsId' : Bytes β} {p : PendingHandshake β X}
    (h : Handled hsId' manager manager') (hp : manager'.pending.get? hsId = some p) :
    manager.pending.get? hsId = some p ∨ p.Past := by
  by_cases hid : hsId = hsId'
  · subst hid
    cases h with
    | ignored => exact Or.inl hp
    | completed =>
      rw [SessionManager.completed, OrderedDict.get?_erase_self] at hp
      cases hp
    | spoiled hs => exact Or.inr (hs.entry p hp)
  · cases h with
    | ignored => exact Or.inl hp
    | completed =>
      rw [SessionManager.completed, OrderedDict.get?_erase_of_ne _ hid] at hp
      exact Or.inl hp
    | spoiled hs =>
      rw [hs.others _ hid] at hp
      exact Or.inl hp

omit hP [Alphabet β] in
/-- What `_expire_pending` leaves has not timed out. -/
lemma get?_expire_iff {hsId : Bytes β} {p : PendingHandshake β X} :
    (manager.expire now).pending.get? hsId = some p ↔
      manager.pending.get? hsId = some p ∧ now - p.startedAt ≤ HANDSHAKE_TIMEOUT := by
  rw [SessionManager.expire, OrderedDict.get?_filter, Option.filter_eq_some_iff]
  simp

omit hP [Alphabet β] in
lemma get?_set_expire {hsId hsId' : Bytes β} {p q : PendingHandshake β X}
    (h : ((manager.expire now).pending.set hsId' q).get? hsId = some p) :
    (manager.pending.get? hsId = some p ∧ now - p.startedAt ≤ HANDSHAKE_TIMEOUT) ∨
      hsId = hsId' ∧ p = q := by
  by_cases hid : hsId = hsId'
  · subst hid
    rw [OrderedDict.get?_set_self] at h
    exact Or.inr ⟨rfl, (Option.some.inj h).symm⟩
  · rw [OrderedDict.get?_set_of_ne _ _ hid] at h
    exact Or.inl (get?_expire_iff.mp h)

omit hP [Alphabet β] in
lemma pending_onSession {α : Type} (signingPublic : Bytes β)
    (m : Method (Exc β) (Session β X) α) :
    (manager.onSession signingPublic m).pending = manager.pending := by
  unfold SessionManager.onSession
  split <;> rfl

/-- The call adds the entry `p` under `hsId`. -/
inductive Adds (P : Primitives β X E) (identity : Identity X E) (hsId : Bytes β) :
    Call β X → PendingHandshake β X → Prop
  | start (peerStatic : Bytes β) (e : X) (now startedAt wallNow : ℚ) :
    Adds P identity hsId (.start peerStatic hsId e now startedAt wallNow)
      (startPending P identity peerStatic hsId e startedAt)
  | init {payload : Bytes β} (hid : hsId = payload.take HS_ID_LEN) (e r : X) (now startedAt : ℚ)
    (ha : Answerable P identity e (payload.drop HS_ID_LEN)) :
    Adds P identity hsId (.init payload e r now startedAt)
      (respPending P identity hsId (payload.drop HS_ID_LEN) e r startedAt)

/-- What is pending after a call was pending before, and has not timed out if the call looked; or it
is past its message, or was added by the call. -/
lemma get?_call (hm : WellFormed P manager) {c : Call β X} {hsId : Bytes β}
    {p : PendingHandshake β X} (h : (manager.call P c).pending.get? hsId = some p) :
    (manager.pending.get? hsId = some p ∧
        ∀ now, c.expiry = some now → now - p.startedAt ≤ HANDSHAKE_TIMEOUT) ∨
      p.Past ∨ Adds P manager.identity hsId c p := by
  -- most calls expire nothing
  have hnever : ∀ now, (none : Option ℚ) = some now → now - p.startedAt ≤ HANDSHAKE_TIMEOUT :=
    fun now hnow => absurd hnow.symm (Option.some_ne_none now)
  cases c with
  | start peerStatic hsId' e now startedAt wallNow =>
    rw [SessionManager.call, startHandshake_snd] at h
    rcases get?_set_expire h with ⟨h, hrecent⟩ | ⟨rfl, rfl⟩
    · refine Or.inl ⟨h, ?_⟩
      rintro _ ⟨⟩
      exact hrecent
    · exact Or.inr (Or.inr (.start peerStatic e now startedAt wallNow))
  | init payload e r now startedAt =>
    rw [SessionManager.call, handleInit_eq hP] at h
    -- an INIT that is refused adds nothing
    have hold : manager.pending.get? hsId = some p ∧ now - p.startedAt ≤ HANDSHAKE_TIMEOUT ∨
        Adds P manager.identity hsId (.init payload e r now startedAt) p := by
      split_ifs at h with ha
      · rcases get?_set_expire h with h | ⟨hid, rfl⟩
        · exact Or.inl h
        · subst hid
          exact Or.inr (.init rfl e r now startedAt ha.2.2)
      · exact Or.inl (get?_expire_iff.mp h)
    rcases hold with ⟨h, hrecent⟩ | hadd
    · refine Or.inl ⟨h, ?_⟩
      rintro _ ⟨⟩
      exact hrecent
    · exact Or.inr (Or.inr hadd)
  | response payload fresh now establishedAt =>
    exact ((handleResponse_handled hP hm).get? h).imp (fun h => ⟨h, hnever⟩) Or.inl
  | fin payload fresh now establishedAt =>
    exact ((handleFin_handled hP hm).get? h).imp (fun h => ⟨h, hnever⟩) Or.inl
  | encrypt signingPublic plaintext =>
    rw [SessionManager.call, pending_onSession] at h
    exact Or.inl ⟨h, hnever⟩
  | decrypt signingPublic blob fresh =>
    rw [SessionManager.call, pending_onSession] at h
    exact Or.inl ⟨h, hnever⟩
  | drop signingPublic => exact Or.inl ⟨h, hnever⟩
  | markVerified signingPublic => exact Or.inl ⟨h, hnever⟩
  | repin signingPublic staticPublic => exact Or.inl ⟨h, hnever⟩
  | forget signingPublic => exact Or.inl ⟨h, hnever⟩

/-- The identity is the one that the manager was created with. -/
lemma identity_call (hm : WellFormed P manager) (c : Call β X) :
    (manager.call P c).identity = manager.identity := by
  cases c with
  | start => rw [SessionManager.call, startHandshake_snd]; rfl
  | init =>
    rw [SessionManager.call, handleInit_eq hP]
    split_ifs <;> rfl
  | response => exact (handleResponse_handled hP hm).identity
  | fin => exact (handleFin_handled hP hm).identity
  | encrypt | decrypt =>
    rw [SessionManager.call, SessionManager.onSession]
    split <;> rfl
  | drop | markVerified | repin | forget => rfl

/-! ## Every state is well formed -/

lemma WellFormed.call (hm : WellFormed P manager) (c : Call β X) :
    WellFormed P (manager.call P c) := by
  intro hsId p hp
  rw [identity_call hP hm]
  rcases get?_call hP hm hp with ⟨hp, -⟩ | hpast | hadd
  · exact hm hsId p hp
  · exact .past hpast
  · cases hadd with
    | start peerStatic e now startedAt wallNow => exact .waitsResponse peerStatic e startedAt
    | init hid e r now startedAt ha => exact .waitsFin _ e r startedAt ha

lemma Reachable.wellFormed (hm : Reachable P manager) : WellFormed P manager := by
  obtain ⟨identity, trust, hm⟩ := hm
  refine hm.invariant (I := WellFormed P) ?_ fun u c hu _ => hu.call hP c
  intro hsId p hp
  rw [OrderedDict.get?_empty] at hp
  cases hp

omit hP in
lemma afterCalls_append (calls : List (Call β X)) (c : Call β X) :
    afterCalls P manager (calls ++ [c]) = (afterCalls P manager calls).call P c := by
  rw [afterCalls, List.foldl_append]
  rfl

omit hP in
lemma Reachable.call (hm : Reachable P manager) (c : Call β X) : Reachable P (manager.call P c) := by
  obtain ⟨identity, trust, hm⟩ := hm
  exact ⟨identity, trust, hm.tail trivial⟩

end Outcome

end SessionManager

end Chatbit
