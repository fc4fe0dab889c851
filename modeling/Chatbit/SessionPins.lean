import Chatbit.Crypto.Pins
import Chatbit.SessionRunTheorems

/-!
# What handshakes pin

A handshake calls `observe` at most once, before it touches the session table. So whatever peers
send, a pinned key changes only where the user says so.
-/

namespace Chatbit

open Lib HandshakeState

variable {β X E : Type} [Alphabet β] [DecidableEq β] {P : Primitives β X E}

/-! ## What a handshake call does to the trust store -/

/-- The store stays, or `observe` is called on it. -/
def TrustStore.Observes (P : Primitives β X E) (store store' : TrustStore β) : Prop :=
  store' = store ∨ ∃ signingPublic staticPublic nickname now,
    store' = (observe P signingPublic staticPublic nickname now store).2

namespace SessionManager

variable {hsId body : Bytes β} {pending : PendingHandshake β X} {fresh : X}
  {now establishedAt : ℚ}

omit [Alphabet β] in
/-- A step of the handshake pins nobody. -/
lemma keeps_onHandshake {α : Type} (m : Method (Exc β) (HandshakeState β X) α) :
    Method.Keeps trust (onHandshake hsId pending m :
      Method (Exc β) (SessionManager β X E) (α × PendingHandshake β X)) := by
  unfold onHandshake
  rcases m pending.handshake with ⟨result, handshake⟩
  refine Method.Keeps.bind (Method.Keeps.update fun _ => rfl) fun _ => ?_
  exact Method.Keeps.bind (Method.Keeps.eval _ _) fun _ => Method.Keeps.pure _ _

omit [Alphabet β] in
/-- Nor does reading a message. -/
lemma keeps_readHandshake {α : Type} (rejected : String)
    (read : Method (Exc β) (HandshakeState β X) α) :
    Method.Keeps trust (readHandshake hsId pending rejected read :
      Method (Exc β) (SessionManager β X E) (α × PendingHandshake β X)) := by
  intro manager
  have hkeeps : (onHandshake hsId pending read manager).2.trust = manager.trust :=
    keeps_onHandshake read manager
  unfold readHandshake
  rcases h : onHandshake hsId pending read manager with ⟨err | result, manager'⟩
  · rw [h] at hkeeps
    dsimp only
    split_ifs
    · exact hkeeps
    · exact hkeeps
  · rw [h] at hkeeps
    exact hkeeps

/-- Nor does verifying its signature. -/
lemma keeps_verifyPeer (rs signedHash : Bytes β) (claim : IdentityPayload β) (invalid : String) :
    Method.Keeps trust (verifyPeer P hsId rs signedHash claim invalid :
      Method (Exc β) (SessionManager β X E) (PeerIdentity β)) := by
  unfold verifyPeer
  dsimp only
  split_ifs
  · exact Method.Keeps.pure _ _
  · exact Method.Keeps.bind (Method.Keeps.update fun _ => rfl) fun _ _ => rfl

/-- Nor does making the session. -/
lemma keeps_finalise (ref : PeerRef) (ratchetPub : Option (Bytes β)) :
    Method.Keeps trust (finalise P pending ref ratchetPub establishedAt fresh :
      Method (Exc β) (SessionManager β X E) (Session β X)) := by
  unfold finalise
  refine Method.Keeps.bind (Method.Keeps.eval _ _) fun keys => ?_
  refine Method.Keeps.bind (Method.Keeps.self _) fun manager => ?_
  split
  · exact fun _ => rfl
  · exact Method.Keeps.bind (Method.Keeps.update fun _ => rfl) fun _ => Method.Keeps.pure _ _

/-- Pinning is one `observe`. -/
lemma observes_pin (peer : PeerIdentity β) (now : ℚ) :
    Method.Moves (TrustStore.Observes P) trust
      (pin P peer now : Method (Exc β) (SessionManager β X E) PeerRef) :=
  fun _ => Or.inr ⟨_, _, _, _, rfl⟩

/-- Accepting a RESP pins its peer, if it gets that far. -/
lemma observes_acceptResponse :
    Method.Moves (TrustStore.Observes P) trust (acceptResponse P hsId body pending now :
      Method (Exc β) (SessionManager β X E)
        (PeerRef × IdentityPayload β × PendingHandshake β X)) := by
  have hrefl : ∀ store : TrustStore β, TrustStore.Observes P store store := fun _ => Or.inl rfl
  unfold acceptResponse
  refine .keeps_bind hrefl (keeps_readHandshake _ _) fun read => ?_
  refine .keeps_bind hrefl (Method.Keeps.eval _ _) fun claim => ?_
  refine .keeps_bind hrefl (keeps_verifyPeer _ _ _ _) fun peer => ?_
  exact .bind_keeps (observes_pin _ _) fun ref => Method.Keeps.pure _ _

/-- Completing a handshake pins at most one peer. -/
lemma observes_completeInitiator :
    Method.Moves (TrustStore.Observes P) trust
      (completeInitiator P hsId body pending fresh now establishedAt :
        Method (Exc β) (SessionManager β X E) (Bytes β × Session β X)) := by
  unfold completeInitiator
  refine .bind_keeps observes_acceptResponse fun accepted => ?_
  refine Method.Keeps.bind (Method.Keeps.self _) fun manager => ?_
  refine Method.Keeps.bind (keeps_onHandshake _) fun fin => ?_
  refine Method.Keeps.bind (keeps_finalise _ _) fun session => ?_
  exact Method.Keeps.bind (Method.Keeps.update fun _ => rfl) fun _ => Method.Keeps.pure _ _

/-- The same for the responder. -/
lemma observes_completeResponder :
    Method.Moves (TrustStore.Observes P) trust
      (completeResponder P hsId body pending fresh now establishedAt :
        Method (Exc β) (SessionManager β X E) (Session β X)) := by
  have hrefl : ∀ store : TrustStore β, TrustStore.Observes P store store := fun _ => Or.inl rfl
  unfold completeResponder
  refine .keeps_bind hrefl (keeps_readHandshake _ _) fun read => ?_
  refine .keeps_bind hrefl (Method.Keeps.eval _ _) fun claim => ?_
  refine .keeps_bind hrefl (keeps_verifyPeer _ _ _ _) fun peer => ?_
  refine .bind_keeps (observes_pin _ _) fun ref => ?_
  refine Method.Keeps.bind (keeps_finalise _ _) fun session => ?_
  exact Method.Keeps.bind (Method.Keeps.update fun _ => rfl) fun _ => Method.Keeps.pure _ _

/-- So a RESP makes at most one `observe`. -/
lemma observes_handleResponse (payload : Bytes β) :
    Method.Moves (TrustStore.Observes P) trust
      (handleResponse P payload fresh now establishedAt :
        Method (Exc β) (SessionManager β X E) (Option (Bytes β × Session β X))) := by
  have hrefl : ∀ store : TrustStore β, TrustStore.Observes P store store := fun _ => Or.inl rfl
  unfold handleResponse
  refine .keeps_bind hrefl (Method.Keeps.self _) fun manager => ?_
  split
  · exact fun _ => Or.inl rfl
  · split_ifs
    · exact fun _ => Or.inl rfl
    · intro manager
      rw [Method.map_apply]
      exact observes_completeInitiator manager

/-- So does a FIN. -/
lemma observes_handleFin (payload : Bytes β) :
    Method.Moves (TrustStore.Observes P) trust
      (handleFin P payload fresh now establishedAt :
        Method (Exc β) (SessionManager β X E) (Option (Session β X))) := by
  have hrefl : ∀ store : TrustStore β, TrustStore.Observes P store store := fun _ => Or.inl rfl
  unfold handleFin
  refine .keeps_bind hrefl (Method.Keeps.self _) fun manager => ?_
  split
  · exact fun _ => Or.inl rfl
  · split_ifs
    · exact fun _ => Or.inl rfl
    · intro manager
      rw [Method.map_apply]
      exact observes_completeResponder manager

/-- Beginning a handshake pins nobody. -/
lemma keeps_startHandshake (peerStatic hsId : Bytes β) (ephemeral : X) (now startedAt wallNow : ℚ) :
    Method.Keeps trust (startHandshake P peerStatic hsId ephemeral now startedAt wallNow :
      Method (Exc β) (SessionManager β X E) (Bytes β × Bytes β)) := by
  unfold startHandshake
  refine Method.Keeps.bind (Method.Keeps.update fun _ => rfl) fun _ => ?_
  refine Method.Keeps.bind (Method.Keeps.self _) fun manager => ?_
  refine Method.Keeps.bind (Method.Keeps.eval _ _) fun message => ?_
  refine Method.Keeps.bind (Method.Keeps.update fun _ => rfl) fun _ => ?_
  exact Method.Keeps.bind (Method.Keeps.eval _ _) fun tag => Method.Keeps.pure _ _

/-- Nor does answering one. -/
lemma keeps_handleInit (payload : Bytes β) (ephemeral ratchetPrivate : X) (now startedAt : ℚ) :
    Method.Keeps trust (handleInit P payload ephemeral ratchetPrivate now startedAt :
      Method (Exc β) (SessionManager β X E) (Option (Bytes β))) := by
  unfold handleInit
  refine Method.Keeps.bind (Method.Keeps.update fun _ => rfl) fun _ => ?_
  refine Method.Keeps.bind (Method.Keeps.self _) fun manager => ?_
  dsimp only
  split_ifs
  · exact Method.Keeps.pure _ _
  · exact Method.Keeps.pure _ _
  · refine Method.Keeps.bind (Method.Keeps.eval _ _) fun answer => ?_
    split
    · exact Method.Keeps.pure _ _
    · exact Method.Keeps.bind (Method.Keeps.update fun _ => rfl) fun _ => Method.Keeps.pure _ _

end SessionManager

/-! ## Runs -/

/-- A call on the manager, or an `observe` that no handshake makes. -/
inductive TrustEvent (β X : Type) where
  | call (c : Call β X)
  | observe (signingPublic staticPublic : Bytes β) (nickname : String) (now : ℚ)

/-- What an event may do to the pins. -/
def TrustEvent.MayDo : TrustEvent β X → PinOp β → Prop
  | .call (.response _ _ _ _), .observe _ _ | .call (.fin _ _ _ _), .observe _ _ => True
  | .call (.markVerified signingPublic), op => op = .markVerified signingPublic
  | .call (.repin signingPublic staticPublic), op => op = .repin signingPublic staticPublic
  | .call (.forget signingPublic), op => op = .forget signingPublic
  | .observe signingPublic staticPublic _ _, op => op = .observe signingPublic staticPublic
  | .call _, _ => False

namespace SessionManager

variable {manager : SessionManager β X E}

def pins (manager : SessionManager β X E) : Pins β := manager.trust.pins

def afterEvent (P : Primitives β X E) (manager : SessionManager β X E) :
    TrustEvent β X → SessionManager β X E
  | .call c => manager.call P c
  | .observe signingPublic staticPublic nickname now =>
    manager.onTrust (TrustStore.observe P signingPublic staticPublic nickname now)

def afterEvents (P : Primitives β X E) (manager : SessionManager β X E)
    (events : List (TrustEvent β X)) : SessionManager β X E :=
  events.foldl (afterEvent P) manager

/-- An operation called on the store, for the pins. -/
lemma pins_onTrust (op : TrustOp β) {α : Type} {m : Method (Exc β) (TrustStore β) α}
    (h : op.run P = m >>= fun _ => pure ()) :
    (manager.onTrust m).pins = manager.pins.apply op.pinOp := by
  have hrun := TrustStore.pins_run P manager.trust op
  rwa [h, Method.snd_bind_pure] at hrun

/-- In the abstract store this is an `observe` or nothing. -/
lemma pins_of_observes {manager' : SessionManager β X E}
    (h : TrustStore.Observes P manager.trust manager'.trust) :
    manager'.pins = manager.pins ∨
      ∃ k s, manager'.pins = manager.pins.apply (.observe k s) := by
  rcases h with h | ⟨k, s, nickname, now, h⟩
  · exact Or.inl (congrArg TrustStore.pins h)
  · exact Or.inr ⟨k, s, (congrArg TrustStore.pins h).trans
      (pins_onTrust (P := P) (.observe k s nickname now) rfl)⟩

/-- The pins change by an operation of the event, or stay. -/
lemma pins_afterEvent (manager : SessionManager β X E) (event : TrustEvent β X) :
    (manager.afterEvent P event).pins = manager.pins ∨
      ∃ op, event.MayDo op ∧ (manager.afterEvent P event).pins = manager.pins.apply op := by
  cases event with
  | observe k s nickname now =>
    exact Or.inr ⟨_, rfl, pins_onTrust (P := P) (.observe k s nickname now) rfl⟩
  | call c =>
    cases c with
    | start peerStatic hsId e now startedAt wallNow =>
      exact Or.inl (congrArg TrustStore.pins (keeps_startHandshake _ _ _ _ _ _ manager))
    | init payload e r now startedAt =>
      exact Or.inl (congrArg TrustStore.pins (keeps_handleInit _ _ _ _ _ manager))
    | response payload fresh now establishedAt =>
      exact (pins_of_observes (observes_handleResponse payload manager)).imp_right
        fun ⟨k, s, h⟩ => ⟨.observe k s, trivial, h⟩
    | fin payload fresh now establishedAt =>
      exact (pins_of_observes (observes_handleFin payload manager)).imp_right
        fun ⟨k, s, h⟩ => ⟨.observe k s, trivial, h⟩
    | encrypt k plaintext | decrypt k blob fresh =>
      refine Or.inl ?_
      unfold afterEvent SessionManager.call SessionManager.onSession
      dsimp only
      split <;> rfl
    | drop k => exact Or.inl rfl
    | markVerified k => exact Or.inr ⟨_, rfl, pins_onTrust (P := P) (.markVerified k) rfl⟩
    | repin k s => exact Or.inr ⟨_, rfl, pins_onTrust (P := P) (.repin k s) rfl⟩
    | forget k => exact Or.inr ⟨_, rfl, TrustStore.pins_run P manager.trust (.forget k)⟩

/-- The pin of one peer stays or changes by an operation on that peer. -/
lemma pin_afterEvent (manager : SessionManager β X E) (event : TrustEvent β X) (k : Bytes β) :
    (manager.afterEvent P event).pins k = manager.pins k ∨
      ∃ op, event.MayDo op ∧ op.peer = k ∧
        (manager.afterEvent P event).pins k = Pins.change (manager.pins k) op := by
  rcases pins_afterEvent (P := P) manager event with h | ⟨op, hop, h⟩
  · exact Or.inl (congrFun h k)
  · rw [h, Pins.apply]
    by_cases hk : k = op.peer
    · subst hk
      exact Or.inr ⟨op, hop, rfl, Function.update_self _ _ _⟩
    · exact Or.inl (Function.update_of_ne hk _ _)

omit [Alphabet β] [DecidableEq β] in
/-- Only the user's call may repin, forget or verify. -/
lemma eq_of_mayDo {event : TrustEvent β X} {op : PinOp β} (h : event.MayDo op) :
    (∀ k s, op = .repin k s → event = .call (.repin k s)) ∧
      (∀ k, op = .forget k → event = .call (.forget k)) ∧
      ∀ k, op = .markVerified k → event = .call (.markVerified k) := by
  rcases event with (_ | _ | _ | _ | _ | _ | _ | _ | _ | _) | _ <;> cases op <;>
    simp_all [TrustEvent.MayDo]

omit [Alphabet β] in
lemma afterEvents_snoc [Alphabet β] (manager : SessionManager β X E)
    (events : List (TrustEvent β X)) (event : TrustEvent β X) :
    manager.afterEvents P (events ++ [event]) =
      (manager.afterEvents P events).afterEvent P event := by
  rw [afterEvents, List.foldl_append]
  rfl

/-- A pin goes away only when the user forgets the peer. -/
lemma forget_of_none {events : List (TrustEvent β X)} {k : Bytes β}
    (h : manager.pins k ≠ none) (h' : (manager.afterEvents P events).pins k = none) :
    .call (.forget k) ∈ events := by
  induction events using List.reverseRecOn with
  | nil => exact absurd h' h
  | append_singleton events event ih =>
    rw [afterEvents_snoc] at h'
    by_cases hnone : (manager.afterEvents P events).pins k = none
    · exact List.mem_append_left _ (ih hnone)
    · rcases pin_afterEvent (P := P) (manager.afterEvents P events) event k with
        heq | ⟨op, hop, hpeer, heq⟩
      · exact absurd (heq.symm.trans h') hnone
      · obtain ⟨p, hp⟩ := Option.ne_none_iff_exists'.mp hnone
        rw [h', hp] at heq
        cases op with
        | observe => cases heq
        | markVerified => cases heq
        | repin => cases heq
        | forget k' =>
          obtain rfl : k' = k := hpeer
          rw [(eq_of_mayDo hop).2.1 _ rfl]
          exact List.mem_append_right _ (List.mem_singleton_self _)

/-- A new observation: an event that pins a peer that is not pinned then. -/
def Observed (P : Primitives β X E) (manager : SessionManager β X E)
    (events : List (TrustEvent β X)) (k s : Bytes β) : Prop :=
  ∃ before event after, events = before ++ event :: after ∧
    .call (.forget k) ∈ before ∧ event.MayDo (.observe k s) ∧
    (manager.afterEvents P before).pins k = none

/-- A pinned key changes only through `repin`, or through `forget` and a new observation. -/
lemma static_change {events : List (TrustEvent β X)} {k s s' : Bytes β} {v v' : Bool}
    (h : manager.pins k = some (s, v))
    (h' : (manager.afterEvents P events).pins k = some (s', v')) :
    s' = s ∨ .call (.repin k s') ∈ events ∨ Observed P manager events k s' := by
  induction events using List.reverseRecOn generalizing s' v' with
  | nil =>
    have heq : some (s, v) = some (s', v') := h.symm.trans h'
    exact Or.inl (Prod.mk.inj (Option.some.inj heq)).1.symm
  | append_singleton events event ih =>
    -- what the earlier events have done they have done
    have hearlier : ∀ v'', (manager.afterEvents P events).pins k = some (s', v'') →
        s' = s ∨ .call (.repin k s') ∈ events ++ [event] ∨
          Observed P manager (events ++ [event]) k s' := by
      intro v'' hpin
      rcases ih hpin with hs | hrepin | ⟨before, e, after, rfl, hforget, hobserve, hnone⟩
      · exact Or.inl hs
      · exact Or.inr (Or.inl (List.mem_append_left _ hrepin))
      · exact Or.inr (Or.inr ⟨before, e, after ++ [event], by simp, hforget, hobserve, hnone⟩)
    rw [afterEvents_snoc] at h'
    rcases pin_afterEvent (P := P) (manager.afterEvents P events) event k with
      heq | ⟨op, hop, hpeer, heq⟩
    · exact hearlier v' (heq.symm.trans h')
    · rw [h'] at heq
      rcases hpin : (manager.afterEvents P events).pins k with _ | ⟨s'', v''⟩
      · rw [hpin] at heq
        cases op with
        | observe k' s'' =>
          obtain rfl : k' = k := hpeer
          obtain ⟨rfl, -⟩ := Prod.mk.inj (Option.some.inj heq)
          have hforget := forget_of_none (P := P) (by rw [h]; simp) hpin
          exact Or.inr (Or.inr ⟨events, event, [], rfl, hforget, hop, hpin⟩)
        | markVerified => cases heq
        | repin => cases heq
        | forget => cases heq
      · rw [hpin] at heq
        cases op with
        | observe k' s'' =>
          obtain ⟨rfl, -⟩ := Prod.mk.inj (Option.some.inj heq)
          exact hearlier _ hpin
        | markVerified =>
          obtain ⟨rfl, -⟩ := Prod.mk.inj (Option.some.inj heq)
          exact hearlier _ hpin
        | repin k' s'' =>
          obtain rfl : k' = k := hpeer
          obtain ⟨rfl, -⟩ := Prod.mk.inj (Option.some.inj heq)
          rw [(eq_of_mayDo hop).1 _ _ rfl]
          exact Or.inr (Or.inl (List.mem_append_right _ (List.mem_singleton_self _)))
        | forget => cases heq

/-- After `repin` and `forget` the peer is not verified. -/
lemma not_verified_of_revoked {event : TrustEvent β X} {k : Bytes β}
    (h : (∃ s, event = .call (.repin k s)) ∨ event = .call (.forget k)) (s : Bytes β) :
    (manager.afterEvent P event).pins k ≠ some (s, true) := by
  rcases h with ⟨s', rfl⟩ | rfl
  · have hpins : (manager.afterEvent P (.call (.repin k s'))).pins = _ :=
      pins_onTrust (P := P) (.repin k s') rfl
    rw [hpins, Pins.apply]
    intro heq
    change Function.update manager.pins k ((manager.pins k).map fun _ => (s', false)) k = _ at heq
    rw [Function.update_self, Option.map_eq_some_iff] at heq
    obtain ⟨-, -, heq⟩ := heq
    cases heq
  · have hpins : (manager.afterEvent P (.call (.forget k))).pins = _ :=
      TrustStore.pins_run P manager.trust (.forget k)
    rw [hpins, Pins.apply]
    change Function.update manager.pins k none k ≠ _
    rw [Function.update_self]
    exact (Option.some_ne_none _).symm

/-- A peer is verified only since `mark_verified` was called on the pin that it has. -/
lemma marked_of_verified {events : List (TrustEvent β X)} {k s : Bytes β}
    (hempty : manager.pins k = none)
    (h : (manager.afterEvents P events).pins k = some (s, true)) :
    ∃ before after v, events = before ++ .call (.markVerified k) :: after ∧
      (manager.afterEvents P before).pins k = some (s, v) ∧
      (∀ s', .call (.repin k s') ∉ after) ∧ .call (.forget k) ∉ after := by
  induction events using List.reverseRecOn with
  | nil =>
    have heq : none = some (s, true) := hempty.symm.trans h
    cases heq
  | append_singleton events event ih =>
    rw [afterEvents_snoc] at h
    -- the last event leaves the peer verified, so it revokes nothing
    have hkept : ¬ ((∃ s, event = .call (.repin k s)) ∨ event = .call (.forget k)) :=
      fun hrevoked => not_verified_of_revoked hrevoked s h
    have hearlier : (manager.afterEvents P events).pins k = some (s, true) → ∃ before after v,
        events ++ [event] = before ++ .call (.markVerified k) :: after ∧
        (manager.afterEvents P before).pins k = some (s, v) ∧
        (∀ s', .call (.repin k s') ∉ after) ∧ .call (.forget k) ∉ after := by
      intro hpin
      obtain ⟨before, after, v, rfl, hv, hrepin, hforget⟩ := ih hpin
      refine ⟨before, after ++ [event], v, by simp, hv, fun s' hmem => ?_, fun hmem => ?_⟩
      · rcases List.mem_append.mp hmem with hmem | hmem
        · exact hrepin s' hmem
        · exact hkept (Or.inl ⟨s', (List.mem_singleton.mp hmem).symm⟩)
      · rcases List.mem_append.mp hmem with hmem | hmem
        · exact hforget hmem
        · exact hkept (Or.inr (List.mem_singleton.mp hmem).symm)
    -- either the pin was there before, or the last event is the mark itself
    rcases pin_afterEvent (P := P) (manager.afterEvents P events) event k with
      heq | ⟨op, hop, hpeer, heq⟩
    · exact hearlier (heq.symm.trans h)
    · rw [h] at heq
      cases op with
      | observe k' s' =>
        rcases hpin : (manager.afterEvents P events).pins k with _ | p
        · rw [hpin] at heq
          cases heq
        · rw [hpin] at heq
          exact hearlier (hpin.trans heq.symm)
      | markVerified k' =>
        obtain rfl : k' = k := hpeer
        obtain ⟨⟨s', v⟩, hpin, heq⟩ := Option.map_eq_some_iff.mp heq.symm
        obtain ⟨rfl, -⟩ := Prod.mk.inj heq
        rw [(eq_of_mayDo hop).2.2 _ rfl]
        exact ⟨events, [], v, rfl, hpin, fun _ => List.not_mem_nil, List.not_mem_nil⟩
      | repin k' s' =>
        obtain ⟨-, -, heq⟩ := Option.map_eq_some_iff.mp heq.symm
        cases heq
      | forget k' => cases heq

/-! ## A changed key -/

/-- The payload is a RESP for a handshake that is pending, which reads, and its signed claim is
that the signing key `k` comes with the static key `s`. -/
def PresentsResponse (P : Primitives β X E) (manager : SessionManager β X E)
    (payload k s : Bytes β) : Prop :=
  ∃ pending signedHash body handshake claim,
    manager.pending.get? (payload.take HS_ID_LEN) = some pending ∧ pending.initiator = true ∧
    readMessage2 P (payload.drop HS_ID_LEN) pending.handshake =
      (.ok (s, signedHash, body), handshake) ∧
    decodeIdentityPayload body true = .ok claim ∧ claim.signingPub = k ∧
    P.verify k claim.signature (SIG_DOMAIN ++ signedHash) = true

/-- The same for a FIN. -/
def PresentsFin (P : Primitives β X E) (manager : SessionManager β X E) (payload k s : Bytes β) :
    Prop :=
  ∃ pending signedHash body handshake claim,
    manager.pending.get? (payload.take HS_ID_LEN) = some pending ∧ pending.initiator = false ∧
    readMessage3 P (payload.drop HS_ID_LEN) pending.handshake =
      (.ok (s, signedHash, body), handshake) ∧
    decodeIdentityPayload body false = .ok claim ∧ claim.signingPub = k ∧
    P.verify k claim.signature (SIG_DOMAIN ++ signedHash) = true

/-- Pinning another key raises, and touches nothing. -/
lemma pin_of_conflict (manager : SessionManager β X E) (peer : PeerIdentity β) (now : ℚ)
    {s : Bytes β} {v : Bool} (h : manager.pins peer.signingPublic = some (s, v))
    (hne : s ≠ peer.staticPublic) :
    ∃ name, pin P peer now manager =
      (.error (.keyChangedError name s peer.staticPublic), manager) := by
  obtain ⟨p, hp, heq⟩ := Option.map_eq_some_iff.mp h
  obtain ⟨rfl, -⟩ := Prod.mk.inj heq
  have hends := TrustStore.observe_ends P manager.trust peer.signingPublic peer.staticPublic
    peer.nickname now
  rw [pin, Method.onField_apply]
  revert hends
  generalize TrustStore.observe P peer.signingPublic peer.staticPublic peer.nickname now
    manager.trust = result
  intro hends
  cases hends with
  | pins hget =>
    rw [TrustStore.get_of_none hget] at hp
    cases hp
  | refuses hget hobj hstatic =>
    obtain rfl := Option.some.inj (hp.symm.trans (TrustStore.get_of_object hget hobj))
    exact ⟨_, rfl⟩
  | renames hget hobj hstatic | knows hget hobj hstatic =>
    obtain rfl := Option.some.inj (hp.symm.trans (TrustStore.get_of_object hget hobj))
    exact absurd hstatic hne

/-- The call raises `KeyChangedError` and leaves the trust store and the session table. -/
def RefusesKey {α : Type} (m : Method (Exc β) (SessionManager β X E) α)
    (manager : SessionManager β X E) (pinned presented : Bytes β) : Prop :=
  ∃ name manager', m manager = (.error (.keyChangedError name pinned presented), manager') ∧
    manager'.trust = manager.trust ∧ manager'.sessions = manager.sessions

/-- Identifying a pinned peer whose message has been read, and who comes with another key, raises. -/
lemma refusesKey_of_read {α : Type} {hsId s s' signedHash body : Bytes β} {v expectRatchet : Bool}
    {rejected invalid : String} {now : ℚ} {pending : PendingHandshake β X}
    {handshake : HandshakeState β X} {claim : IdentityPayload β}
    {read : Method (Exc β) (HandshakeState β X) (Bytes β × Bytes β × Bytes β)}
    {rest : PendingHandshake β X → PeerRef → IdentityPayload β →
      Method (Exc β) (SessionManager β X E) α}
    (hread : read pending.handshake = (.ok (s, signedHash, body), handshake))
    (hclaim : decodeIdentityPayload body expectRatchet = .ok claim)
    (hverify : P.verify claim.signingPub claim.signature (SIG_DOMAIN ++ signedHash) = true)
    (hpin : manager.pins claim.signingPub = some (s', v)) (hne : s' ≠ s) :
    RefusesKey (readHandshake hsId pending rejected read >>=
      fun ((rs, signedHash, payload), pending) =>
        identifyPeer P hsId rs signedHash payload expectRatchet invalid now (rest pending))
      manager s' s := by
  -- the entry holds the handshake that has read the message
  let manager' : SessionManager β X E := { manager with
    pending := manager.pending.set hsId { pending with handshake := handshake } }
  obtain ⟨name, hraise⟩ := pin_of_conflict (P := P) manager'
    { signingPublic := claim.signingPub, staticPublic := s, nickname := claim.nickname } now
    hpin hne
  refine ⟨name, manager', ?_, rfl, rfl⟩
  rw [Method.bind_of_ok (readHandshake_ok_iff.mpr ⟨handshake, hread, rfl, rfl⟩)]
  dsimp only
  rw [identifyPeer, hclaim, Method.bind_of_ok (Method.eval_apply _ _),
    Method.bind_of_ok (verifyPeer_ok_iff.mpr ⟨hverify, rfl, rfl⟩), Method.bind_of_error hraise]

/-- A RESP with another static key than the pinned one is refused. -/
lemma refuses_of_presentsResponse {payload k s s' : Bytes β} {v : Bool}
    (h : PresentsResponse P manager payload k s) (hpin : manager.pins k = some (s', v))
    (hne : s' ≠ s) (fresh : X) (now establishedAt : ℚ) :
    RefusesKey (handleResponse P payload fresh now establishedAt) manager s' s := by
  obtain ⟨pending, signedHash, body, handshake, claim, hget, hi, hread, hclaim, rfl, hverify⟩ := h
  obtain ⟨name, manager', hraise, hsame⟩ := refusesKey_of_read hread hclaim hverify hpin hne
  refine ⟨name, manager', ?_, hsame⟩
  rw [handleResponse_of_pending hget hi, Method.map_error, completeInitiator_eq]
  exact hraise

/-- So is a FIN. -/
lemma refuses_of_presentsFin {payload k s s' : Bytes β} {v : Bool}
    (h : PresentsFin P manager payload k s) (hpin : manager.pins k = some (s', v))
    (hne : s' ≠ s) (fresh : X) (now establishedAt : ℚ) :
    RefusesKey (handleFin P payload fresh now establishedAt) manager s' s := by
  obtain ⟨pending, signedHash, body, handshake, claim, hget, hi, hread, hclaim, rfl, hverify⟩ := h
  obtain ⟨name, manager', hraise, hsame⟩ := refusesKey_of_read hread hclaim hverify hpin hne
  refine ⟨name, manager', ?_, hsame⟩
  rw [handleFin_of_pending hget hi, Method.map_error, completeResponder_eq]
  exact hraise

/-! ## The result -/

/-- From an empty trust store, whatever payloads arrive and whatever is called on the store:
a pinned key changes only to the key of a `repin`, or to one that is observed after a `forget`;
a peer is verified only since a `mark_verified` of its present pin, with no `repin` or `forget`
after; a handshake that presents another key for a pinned peer raises `KeyChangedError` and leaves
the store and the sessions; and operations that differ in nicknames only have the same effect on
pins, and return alike, on stores that differ in nicknames only. -/
theorem no_silent_repin (P : Primitives β X E) (identity : Identity X E) (path : Option String)
    (events events' : List (TrustEvent β X)) :
    let start : SessionManager β X E := { identity, trust := .empty path }
    let manager := start.afterEvents P events
    (∀ k s s' v v', manager.pins k = some (s, v) →
      (manager.afterEvents P events').pins k = some (s', v') →
      s' = s ∨ .call (.repin k s') ∈ events' ∨ Observed P manager events' k s') ∧
    (∀ k s, manager.pins k = some (s, true) →
      ∃ before after v, events = before ++ .call (.markVerified k) :: after ∧
        (start.afterEvents P before).pins k = some (s, v) ∧
        (∀ s', .call (.repin k s') ∉ after) ∧ .call (.forget k) ∉ after) ∧
    (∀ payload k s s' v fresh now establishedAt, manager.pins k = some (s', v) → s' ≠ s →
      (PresentsResponse P manager payload k s →
        RefusesKey (handleResponse P payload fresh now establishedAt) manager s' s) ∧
      (PresentsFin P manager payload k s →
        RefusesKey (handleFin P payload fresh now establishedAt) manager s' s)) ∧
    (∀ (store store' : TrustStore β) (op op' : TrustOp β), store.pins = store'.pins →
      op.pinOp = op'.pinOp → (op.run P store).2.pins = (op'.run P store').2.pins ∧
        ((∃ last, op.run P store = (.ok (), last)) ↔
          ∃ last, op'.run P store' = (.ok (), last))) := by
  intro start manager
  refine ⟨fun k s s' v v' h h' => static_change h h', fun k s h => ?_, ?_, ?_⟩
  · have hempty : start.pins k = none := rfl
    exact marked_of_verified hempty h
  · intro payload k s s' v fresh now establishedAt hpin hne
    exact ⟨fun h => refuses_of_presentsResponse h hpin hne fresh now establishedAt,
      fun h => refuses_of_presentsFin h hpin hne fresh now establishedAt⟩
  · -- an operation is one on the pins, whatever else it is told
    intro store store' op op' hpins hop
    rw [TrustStore.pins_run, TrustStore.pins_run, TrustStore.returns_iff, TrustStore.returns_iff,
      hpins, hop]
    exact ⟨rfl, Iff.rfl⟩

end SessionManager

end Chatbit
