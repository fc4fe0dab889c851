import Chatbit.Lib.Inherits
import Chatbit.Handshake.Crossing
import Chatbit.Handshake.Matched

/-!
# What is left when no handshake payload is in flight

Between honest parties a payload completes only the handshake that it belongs to, so the session
that a FIN gives its receiver is paired with the one that its sender made. As long as every FIN
arrives in order (`Duo.InOrder`), either the two sessions are paired or a FIN that will replace one
of them is on its way.
-/

namespace Chatbit

open Lib HandshakeState

variable {β X E : Type} [Alphabet β] [DecidableEq β] {P : Primitives β X E}

/-! ## Honest payloads are read by the honest handshake only -/

section Reading

variable (hP : P.Correct) (hH : P.HashIdeal) (hA : P.AeadIdeal)
include hP hH hA

omit [DecidableEq β] in
/-- Ciphertexts that are equal were sealed on the same transcript. -/
lemma data_of_sealAfter {data data' secrets secrets' : List (Bytes β)} {n n' : ℕ} {p p' : Bytes β}
    (hlen : data.length = data'.length)
    (h : SymmetricState.sealAfter P data secrets n p =
      SymmetricState.sealAfter P data' secrets' n' p') : data = data' :=
  transcript_inj hP hH hlen (hA.ad_inj _ _ _ _ _ _ _ _ h)

omit [DecidableEq β] in
/-- The RESP to the INIT of `e` opens for no other key. -/
lemma ReceivedResponse.Valid.eq_honest {responder : Identity X E} {e e' eR r : X}
    {m : ReceivedResponse β}
    (h : m.Valid P e' (respMessage P responder eR r (P.x25519PublicBytes e))) :
    P.x25519PublicBytes e' = P.x25519PublicBytes e ∧ m = honestResponse P responder eR r e' := by
  have hhonest := honestResponse_valid hP responder eR r e
  have hbody := hhonest.body_eq.symm.trans h.body_eq
  simp only [List.append_assoc] at hbody
  obtain ⟨hre, hrest⟩ := List.append_inj hbody (hhonest.length_re.trans h.length_re.symm)
  obtain ⟨hS, -⟩ := List.append_inj hrest (hhonest.length_encS.trans h.length_encS.symm)
  have hseal := hhonest.opens.static.symm.trans (hS.trans h.opens.static)
  have hdata := data_of_sealAfter hP hH hA (by rfl) hseal
  have hpub : P.x25519PublicBytes e' = P.x25519PublicBytes e :=
    (List.cons.inj (List.cons.inj hdata).2).1.symm
  rw [← hpub] at h
  exact ⟨hpub, h.unique hP (honestResponse_valid hP responder eR r e')⟩

omit [DecidableEq β] in
/-- The FIN to the RESP of `eR` and `r` opens for no other handshake of the responder. -/
lemma honestResponse_of_opens3 {initiator responder : Identity X E} {e eR r e' r' : X}
    {re encS encPayload rs payload : Bytes β} (hS : encS.length = DHLEN + TAGLEN)
    (hbody : (honestResponse P responder eR r e).fin P initiator e = encS ++ encPayload)
    (h : Opens3 P PROLOGUE responder.staticPrivate e' re (respEncStatic P responder e' re)
      (respEncPayload P responder e' r' re) encS encPayload rs payload) :
    re = P.x25519PublicBytes e ∧
      honestResponse P responder eR r e = honestResponse P responder e' r' e := by
  have hhonest := honestFin_valid hP initiator responder eR r e
  obtain ⟨hS', -⟩ := List.append_inj (hhonest.body_eq.symm.trans hbody)
    (hhonest.length_encS.trans hS.symm)
  have hseal := hhonest.opens.static.symm.trans (hS'.trans h.static)
  have hdata := data_of_sealAfter hP hH hA (by rfl) hseal
  simp only [List.cons.injEq, true_and, and_true] at hdata
  obtain ⟨rfl, hpub, hencS, hencPayload⟩ := hdata
  refine ⟨rfl, ?_⟩
  -- both answers to `e` are the same bytes, and these are read in one way
  have hmessage : respMessage P responder e' r' (P.x25519PublicBytes e) =
      respMessage P responder eR r (P.x25519PublicBytes e) := by
    rw [respMessage, respMessage, ← hpub, ← hencS, ← hencPayload]
  exact (honestResponse_valid hP responder eR r e).unique hP
    (hmessage ▸ honestResponse_valid hP responder e' r' e)

end Reading

/-! ## What honest payloads do -/

namespace SessionManager

section Honest

variable (hP : P.Correct) (hH : P.HashIdeal) (hA : P.AeadIdeal)
  {manager manager' : SessionManager β X E} {initiator responder : Identity X E} {hsId : Bytes β}
  {e eR r fresh freshR : X} {now establishedAt startedAt estI : ℚ}
include hP hH hA

/-- The session that an honest RESP gives, and the FIN that answers it. -/
lemma handleResponse_of_honest (hm : WellFormed P manager) (hid : hsId.length = HS_ID_LEN)
    {fin : Bytes β} {session : Session β X}
    (h : handleResponse P (hsId ++ respMessage P responder eR r (P.x25519PublicBytes e)) fresh now
      establishedAt manager = (.ok (some (fin, session)), manager')) :
    ∃ e' peerStatic startedAt ref keys trust',
      finaliseKeys P (startedDone P manager.identity responder peerStatic hsId e' eR r startedAt)
        (some (P.x25519PublicBytes r)) fresh = .ok keys ∧
      session = newSession (startPending P manager.identity peerStatic hsId e' startedAt) ref keys
        establishedAt ∧
      fin = hsId ++ (honestResponse P responder eR r e').fin P manager.identity e' ∧
      manager' = manager.completed hsId (responder.signingPublic P) trust' session := by
  obtain ⟨pending, e', m, ref, trust', keys, haccepts, rfl, rfl, rfl⟩ :=
    (handleResponse_some_iff hP hm).mp h
  obtain ⟨peerStatic, startedAt, rfl⟩ := haccepts.pending_eq
  have hvalid := haccepts.valid
  rw [List.drop_left' hid] at hvalid
  obtain ⟨-, rfl⟩ := hvalid.eq_honest hP hH hA
  have hkeys := haccepts.keys_eq
  rw [List.take_left' hid] at hkeys ⊢
  exact ⟨e', peerStatic, startedAt, ref, keys, trust', hkeys, rfl, rfl, rfl⟩

variable {peerStatic : Bytes β} {keys : DoubleRatchet β X × Bytes β × Bytes β} {ref : PeerRef}

/-- The responder whose entry opens an honest FIN makes a session that is paired with the one that
came with it. -/
lemma handleFin_of_opens (hm : WellFormed P manager) (hid : hsId.length = HS_ID_LEN)
    (hkeys : finaliseKeys P (startedDone P initiator manager.identity peerStatic hsId e eR r
      startedAt) (some (P.x25519PublicBytes r)) fresh = .ok keys)
    (hopens : manager.Opens P
      (hsId ++ (honestResponse P manager.identity eR r e).fin P initiator e))
    (hc : manager.trust.Compatible (initiator.signingPublic P) (initiator.staticPublic P)) :
    ∃ trust' session rootKeys r',
      handleFin P (hsId ++ (honestResponse P manager.identity eR r e).fin P initiator e) freshR now
        establishedAt manager =
        (.ok (some session), manager.completed hsId (initiator.signingPublic P) trust' session) ∧
      Session.Paired P rootKeys r' fresh
        (newSession (startPending P initiator peerStatic hsId e startedAt) ref keys estI)
        session := by
  obtain ⟨pending, hget, hi, hok⟩ := hopens
  rw [List.take_left' hid] at hget
  rw [List.drop_left' hid] at hok
  rcases (hm _ _ hget).past_or_answered hi with hpast | ⟨re, e', r', answeredAt, -, rfl⟩
  · have h2 : pending.handshake.msgIndex ≠ 2 := by simpa [PendingHandshake.Past, hi] using hpast
    rw [readMessage3_of_index h2] at hok
    cases hok
  rcases hread : readMessage3 P ((honestResponse P manager.identity eR r e).fin P initiator e)
    (respPending P manager.identity hsId re e' r' answeredAt).handshake with ⟨err | x, st⟩
  · rw [hread] at hok
    cases hok
  obtain ⟨encS, encPayload, hbody, hS, hopens3, -, -⟩ := (readMessage3_ok_iff hP).mp hread
  obtain ⟨rfl, heq⟩ := honestResponse_of_opens3 hP hH hA hS hbody hopens3
  -- from here on the handshake is the one of the entry
  have hr : P.x25519PublicBytes r = P.x25519PublicBytes r' :=
    Option.some.inj (congrArg (fun m : ReceivedResponse β => m.claim.ratchetPub) heq)
  rw [startedDone, heq, hr] at hkeys
  obtain ⟨refR, trust', keysR, session, -, hkeysR, rfl, hfin⟩ :=
    handleFin_honest hP hid hget hc freshR now establishedAt
  rw [heq]
  exact ⟨trust', _, _, r', hfin, paired_of_finaliseKeys hP hkeys hkeysR⟩

/-- A FIN that gives a session was opened by its entry, and no other key is pinned for its
sender. -/
lemma opens_of_handleFin (hm : WellFormed P manager) (hid : hsId.length = HS_ID_LEN)
    {session : Session β X}
    (h : handleFin P (hsId ++ (honestResponse P manager.identity eR r e).fin P initiator e) freshR
      now establishedAt manager = (.ok (some session), manager')) :
    manager.Opens P (hsId ++ (honestResponse P manager.identity eR r e).fin P initiator e) ∧
      manager.trust.Compatible (initiator.signingPublic P) (initiator.staticPublic P) := by
  obtain ⟨pending, re, e', r', m, ref, trust', keys, haccepts, -, -⟩ :=
    (handleFin_some_iff hP hm).mp h
  obtain ⟨answeredAt, rfl⟩ := haccepts.pending_eq
  have hvalid := haccepts.valid
  refine ⟨⟨_, haccepts.get_pending, rfl, ?_⟩, ?_⟩
  · rw [show (respPending P manager.identity _ re e' r' answeredAt).handshake =
      sent2 P PROLOGUE manager.identity.staticPrivate e' re _ _ from rfl, hvalid.read hP]
    rfl
  · rw [List.drop_left' hid] at hvalid
    obtain ⟨rfl, heq⟩ := honestResponse_of_opens3 hP hH hA hvalid.length_encS hvalid.body_eq
      hvalid.opens
    rw [heq] at hvalid
    obtain rfl := hvalid.unique hP (honestFin_valid hP initiator manager.identity e' r' e)
    exact TrustStore.compatible_of_observe haccepts.observed

end Honest

end SessionManager

/-! ## The invariant -/

/-- The sessions are the two ends of one handshake. -/
def Session.Matched (P : Primitives β X E) (s t : Session β X) : Prop :=
  ∃ keys r fresh, Session.Paired P keys r fresh s t ∨ Session.Paired P keys r fresh t s

lemma Session.Matched.symm {s t : Session β X} (h : Session.Matched P s t) :
    Session.Matched P t s := by
  obtain ⟨keys, r, fresh, h⟩ := h
  exact ⟨keys, r, fresh, h.symm⟩

/-- The initiator's end can send. -/
lemma Session.Paired.cks_ne_none {keys : Bytes β × Bytes β × Bytes β} {r fresh : X}
    {s t : Session β X} (h : Session.Paired P keys r fresh s t) : s.ratchet.cks ≠ none := by
  have hsender := h.sender
  by_cases hk : keys.1.length = 32
  · rcases hl : loadX25519Public (P.x25519PublicBytes r) with err | raw
    · simp [DoubleRatchet.initSender, hk, hl, bind, Except.bind] at hsender
    rcases hd : P.dh fresh (P.x25519PublicBytes r) with err | shared
    · simp [DoubleRatchet.initSender, hk, hl, hd, bind, Except.bind] at hsender
    simp only [DoubleRatchet.initSender, hk, hl, hd, bind, Except.bind, pure, Except.pure, ne_eq,
      not_true_eq_false, if_false, Except.ok.injEq] at hsender
    rw [← hsender]
    simp
  · simp [DoubleRatchet.initSender, hk, bind, Except.bind, throw, throwThe, MonadExceptOf.throw]
      at hsender

namespace Duo

/-- What may be on its way to `p`. -/
inductive Sent (P : Primitives β X E) (identity : Party → Identity X E) (p : Party) :
    Payload β X → Prop
  | init {hsId : Bytes β} (hid : hsId.length = HS_ID_LEN) (e : X) :
    Sent P identity p (.init (hsId ++ P.x25519PublicBytes e))
  | response {hsId : Bytes β} (hid : hsId.length = HS_ID_LEN) (e eR r : X) :
    Sent P identity p
      (.response (hsId ++ respMessage P (identity p.other) eR r (P.x25519PublicBytes e)))
  | fin {hsId : Bytes β} (hid : hsId.length = HS_ID_LEN) (e eR r fresh : X) (peerStatic : Bytes β)
    (startedAt establishedAt : ℚ) (ref : PeerRef) (keys : DoubleRatchet β X × Bytes β × Bytes β)
    (hkeys : SessionManager.finaliseKeys P (SessionManager.startedDone P (identity p.other)
      (identity p) peerStatic hsId e eR r startedAt) (some (P.x25519PublicBytes r)) fresh =
        .ok keys) :
    Sent P identity p
      (.fin (hsId ++ (honestResponse P (identity p) eR r e).fin P (identity p.other) e)
        (SessionManager.newSession (SessionManager.startPending P (identity p.other) peerStatic hsId
          e startedAt) ref keys establishedAt))

/-- The sessions that the two hold for each other match. -/
def Settled (P : Primitives β X E) (duo : Duo β X E) : Prop :=
  ∀ p s t, duo.session P p = some s → duo.session P p.other = some t → Session.Matched P s t

/-- Both parties are honest. -/
structure Honest (P : Primitives β X E) (identity : Party → Identity X E) (duo : Duo β X E) :
    Prop where
  identity_eq : ∀ p, (duo.manager p).identity = identity p
  wellFormed : ∀ p, SessionManager.WellFormed P (duo.manager p)
  sent : ∀ item ∈ duo.flight, Sent P identity item.1 item.2

/-- The sessions match, or a FIN will replace one of them. -/
def Resolved (P : Primitives β X E) (duo : Duo β X E) : Prop :=
  duo.Settled P ∨ ∃ p, duo.Owed P duo.flight p

/-! ### After a call -/

section AfterCall

variable {duo duo' : Duo β X E} {p q : Party} {manager : SessionManager β X E}
  {sent : List (Payload β X)}

omit [Alphabet β] [DecidableEq β] in
lemma manager_afterCall :
    (duo.afterCall p manager sent).manager = Function.update duo.manager p manager := rfl

omit [Alphabet β] in
lemma session_afterCall_self :
    (duo.afterCall p manager sent).session P p =
      manager.sessionFor ((duo.manager p.other).identity.signingPublic P) := by
  simp [session, afterCall, Function.update_of_ne p.other_ne]

omit [Alphabet β] in
lemma session_afterCall_other (hid : manager.identity = (duo.manager p).identity) :
    (duo.afterCall p manager sent).session P p.other = duo.session P p.other := by
  simp [session, afterCall, Function.update_of_ne p.other_ne, hid]

omit [Alphabet β] in
/-- A call that leaves the sessions leaves them. -/
lemma session_afterCall (hid : manager.identity = (duo.manager p).identity)
    (hs : manager.sessions = (duo.manager p).sessions) (q : Party) :
    (duo.afterCall p manager sent).session P q = duo.session P q := by
  rcases p.eq_or_eq_other q with rfl | rfl
  · rw [session_afterCall_self, SessionManager.sessionFor, hs]; rfl
  · exact session_afterCall_other hid

lemma Settled.congr (h : duo.Settled P) (hs : ∀ q, duo'.session P q = duo.session P q) :
    duo'.Settled P := by
  intro p s t hsp htp
  rw [hs] at hsp htp
  exact h p s t hsp htp

omit [Alphabet β] in
lemma Owed.mono {flight flight' : List (Party × Payload β X)} (h : duo.Owed P flight p)
    (hsub : ∀ item ∈ flight, item.2.made.isSome → item ∈ flight')
    (hs : duo'.session P p.other = duo.session P p.other) : duo'.Owed P flight' p := by
  obtain ⟨item, hmem, hp, hmade, heq⟩ := h
  exact ⟨item, hsub item hmem hmade, hp, hmade, hs ▸ heq⟩

/-- A call of an honest party that sends what honest parties send. -/
lemma Honest.afterCall (hP : P.Correct) {identity : Party → Identity X E}
    (h : Honest P identity duo) (c : Call β X)
    (hsent : ∀ payload ∈ sent, Sent P identity p.other payload) :
    Honest P identity (duo.afterCall p ((duo.manager p).call P c) sent) where
  identity_eq q := by
    rw [← h.identity_eq q, manager_afterCall]
    rcases eq_or_ne q p with rfl | hq
    · rw [Function.update_self, SessionManager.identity_call hP (h.wellFormed q)]
    · rw [Function.update_of_ne hq]
  wellFormed q := by
    rw [manager_afterCall]
    rcases eq_or_ne q p with rfl | hq
    · rw [Function.update_self]
      exact (h.wellFormed q).call hP c
    · rw [Function.update_of_ne hq]
      exact h.wellFormed q
  sent item hitem := by
    rcases List.mem_append.mp hitem with hitem | hitem
    · exact h.sent item hitem
    · obtain ⟨payload, hpayload, rfl⟩ := List.mem_map.mp hitem
      exact hsent payload hpayload

/-- A call that leaves the sessions, with every FIN still on its way. -/
lemma Resolved.afterCall {flight : List (Party × Payload β X)} (h : duo.Resolved P)
    (hsub : ∀ item ∈ duo.flight, item.2.made.isSome → item ∈ flight)
    (hid : manager.identity = (duo.manager p).identity)
    (hs : manager.sessions = (duo.manager p).sessions) :
    ({ duo with flight := flight }.afterCall p manager sent).Resolved P := by
  have hsession : ∀ q, ({ duo with flight := flight }.afterCall p manager sent).session P q =
      duo.session P q := session_afterCall hid hs
  rcases h with h | ⟨q, h⟩
  · exact Or.inl (h.congr hsession)
  · exact Or.inr ⟨q, h.mono (fun item hitem hmade => List.mem_append_left _ (hsub item hitem hmade))
      (hsession _)⟩

end AfterCall

/-! ### Steps -/

section Steps

variable {identity : Party → Identity X E} {duo : Duo β X E} {p : Party}

lemma Honest.erase (h : Honest P identity duo) (i : ℕ) :
    Honest P identity { duo with flight := duo.flight.eraseIdx i } where
  identity_eq := h.identity_eq
  wellFormed := h.wellFormed
  sent item hitem := h.sent item (List.mem_of_mem_eraseIdx hitem)

variable (hP : P.Correct)
include hP

omit hP in
lemma step_start_eq (hsId : Bytes β) (e : X) (now startedAt wallNow : ℚ) :
    duo.step P (.start p hsId e now startedAt wallNow) =
      duo.afterCall p ((duo.manager p).call P (.start
          ((duo.manager p.other).identity.staticPublic P) hsId e now startedAt wallNow))
        (sends (fun r => .init r.1) ((SessionManager.startHandshake P
          ((duo.manager p.other).identity.staticPublic P) hsId e now startedAt wallNow
          (duo.manager p)).1.map some)) := rfl

/-- `start_handshake` leaves the sessions and sends an INIT, or raises. -/
lemma step_start (h : Honest P identity duo) (hr : duo.Resolved P) {hsId : Bytes β}
    (hid : hsId.length = HS_ID_LEN) (e : X) (now startedAt wallNow : ℚ) :
    Honest P identity (duo.step P (.start p hsId e now startedAt wallNow)) ∧
      (duo.step P (.start p hsId e now startedAt wallNow)).Resolved P := by
  rw [step_start_eq]
  refine ⟨h.afterCall hP _ ?_, hr.afterCall (fun _ hitem _ => hitem) ?_ ?_⟩
  · rw [SessionManager.startHandshake_eq]
    rcases Tags.handshakeTag P ((duo.manager p.other).identity.staticPublic P)
      (Tags.currentEpoch wallNow) with err | tag
    · intro payload hpayload
      cases hpayload
    · intro payload hpayload
      obtain rfl := List.mem_singleton.mp hpayload
      exact .init hid e
  · exact SessionManager.identity_call hP (h.wellFormed p) _
  · rw [SessionManager.call, SessionManager.startHandshake_snd]
    rfl

/-! A payload arrives. `rest` is what is then still in flight. -/

variable {rest : List (Party × Payload β X)} {i : ℕ} {e r : X} {now later : ℚ}

omit hP [Alphabet β] [DecidableEq β] in
lemma sends_of_not_some {α : Type} {f : α → Payload β X} {result : Except (Exc β) (Option α)}
    (h : ∀ a, result ≠ .ok (some a)) : sends f result = [] := by
  unfold sends
  split
  · exact absurd rfl (h _)
  · rfl

omit hP in
lemma receive_init_eq (payload : Bytes β) :
    duo.receive P p e r now later (.init payload) =
      duo.afterCall p ((duo.manager p).call P (.init payload e r now later))
        (sends .response
          (SessionManager.handleInit P payload e r now later (duo.manager p)).1) := rfl

omit hP in
lemma receive_response_eq (payload : Bytes β) :
    duo.receive P p e r now later (.response payload) =
      duo.afterCall p ((duo.manager p).call P (.response payload e now later))
        (sends (fun r => .fin r.1 r.2)
          (SessionManager.handleResponse P payload e now later (duo.manager p)).1) := rfl

omit hP in
lemma receive_fin_eq (payload : Bytes β) (made : Session β X) :
    duo.receive P p e r now later (.fin payload made) =
      duo.afterCall p ((duo.manager p).call P (.fin payload e now later)) [] := rfl

/-- An INIT changes no session, and is answered by a RESP or not at all. -/
lemma receive_init {payload : Bytes β} (h : Honest P identity { duo with flight := rest })
    (hr : duo.Resolved P) (hsent : Sent P identity p (.init payload))
    (hsub : ∀ item ∈ duo.flight, item.2.made.isSome → item ∈ rest) :
    Honest P identity ({ duo with flight := rest }.receive P p e r now later (.init payload)) ∧
      ({ duo with flight := rest }.receive P p e r now later (.init payload)).Resolved P := by
  rw [receive_init_eq]
  refine ⟨h.afterCall hP _ ?_, hr.afterCall hsub ?_ ?_⟩
  · cases hsent with | init hid e₀ =>
    rw [SessionManager.handleInit_eq hP, List.take_left' hid, List.drop_left' hid]
    split_ifs with ha
    · intro payload hpayload
      obtain rfl := List.mem_singleton.mp hpayload
      have hidentity := h.identity_eq p
      rw [show (duo.manager p).identity = identity p.other.other by
        rw [p.other_other]; exact hidentity]
      exact .response hid e₀ e r
    · intro payload hpayload
      cases hpayload
  · exact SessionManager.identity_call hP (h.wellFormed p) _
  · rw [SessionManager.call, SessionManager.handleInit_eq hP]
    split_ifs <;> rfl

variable (hH : P.HashIdeal) (hA : P.AeadIdeal)
include hH hA

/-- A RESP that is accepted replaces the session, and the FIN that answers it is then on its way. -/
lemma receive_response {payload : Bytes β} (h : Honest P identity { duo with flight := rest })
    (hr : duo.Resolved P) (hsent : Sent P identity p (.response payload))
    (hsub : ∀ item ∈ duo.flight, item.2.made.isSome → item ∈ rest) :
    Honest P identity ({ duo with flight := rest }.receive P p e r now later (.response payload)) ∧
      ({ duo with flight := rest }.receive P p e r now later (.response payload)).Resolved P := by
  have hidentity : (duo.manager p).identity = identity p.other.other := by
    rw [p.other_other]
    exact h.identity_eq p
  rw [receive_response_eq]
  by_cases hsome : ∃ made, (SessionManager.handleResponse P payload e now later
    (duo.manager p)).1 = .ok (some made)
  · obtain ⟨⟨fin, session⟩, hsome⟩ := hsome
    rcases hcall : SessionManager.handleResponse P payload e now later (duo.manager p) with
      ⟨result, manager'⟩
    rw [hcall] at hsome
    obtain rfl : result = _ := hsome
    -- an honest RESP, so the FIN and the session are those of an honest initiator
    cases hsent with | response hid e₀ eR r₀ =>
    obtain ⟨e', peerStatic, startedAt, ref, keys, trust', hkeys, rfl, rfl, rfl⟩ :=
      SessionManager.handleResponse_of_honest hP hH hA (h.wellFormed p) hid hcall
    rw [hidentity] at hkeys
    refine ⟨h.afterCall hP _ ?_, Or.inr ⟨p.other, _, List.mem_append_right _
      (List.mem_singleton.mpr rfl), rfl, rfl, ?_⟩⟩
    · intro payload hpayload
      obtain rfl := List.mem_singleton.mp hpayload
      rw [hidentity]
      exact .fin hid e' eR r₀ e peerStatic startedAt later ref keys hkeys
    · rw [p.other_other, session_afterCall_self, SessionManager.call, hcall,
        show (duo.manager p.other).identity = identity p.other from h.identity_eq p.other]
      exact (OrderedDict.get?_set_self _ _ _).symm
  -- otherwise nothing is sent, and the sessions stay
  · push Not at hsome
    rw [sends_of_not_some hsome]
    refine ⟨h.afterCall hP _ (by simp), hr.afterCall hsub ?_ ?_⟩
    · exact SessionManager.identity_call hP (h.wellFormed p) _
    · have hnot : ∀ made manager', SessionManager.handleResponse P payload e now later
          (duo.manager p) ≠ (.ok (some made), manager') :=
        fun made manager' hcall => hsome made (congrArg Prod.fst hcall)
      rcases SessionManager.handleResponse_of_not_some hP (h.wellFormed p) hnot with
        ⟨-, heq⟩ | ⟨-, err, manager', heq, hspoiled⟩
      · rw [SessionManager.call, heq]
      · rw [SessionManager.call, heq]
        exact hspoiled.sessions

/-- A FIN that its receiver waits for pairs the session of the receiver with the one that it was
sent with. -/
lemma receive_fin_awaited {payload : Bytes β} {made : Session β X}
    (h : Honest P identity { duo with flight := rest })
    (hsent : Sent P identity p (.fin payload made)) (hawaits : duo.Awaits P p payload) (e r : X)
    (now later : ℚ) :
    ∃ session,
      ({ duo with flight := rest }.receive P p e r now later (.fin payload made)).session P p =
        some session ∧
      ({ duo with flight := rest }.receive P p e r now later (.fin payload made)).session P
        p.other = duo.session P p.other ∧
      Session.Matched P session made := by
  have hidentity : (duo.manager p).identity = identity p := h.identity_eq p
  have hother : (duo.manager p.other).identity = identity p.other := h.identity_eq p.other
  obtain ⟨hopens, hc⟩ := hawaits
  cases hsent with | fin hid e₀ eR r₀ fresh peerStatic startedAt establishedAt ref keys hkeys =>
  rw [← hidentity] at hkeys hopens ⊢
  rw [hother] at hc
  obtain ⟨trust', session, rootKeys, r', hcall, hpaired⟩ :=
    SessionManager.handleFin_of_opens hP hH hA (h.wellFormed p) hid hkeys hopens hc
  refine ⟨session, ?_, ?_, rootKeys, r', fresh, Or.inr hpaired⟩
  · rw [receive_fin_eq, session_afterCall_self, SessionManager.call, hcall, hother]
    exact OrderedDict.get?_set_self _ _ _
  · rw [receive_fin_eq]
    exact session_afterCall_other (SessionManager.identity_call hP (h.wellFormed p) _)

/-- A FIN that its receiver does not wait for changes no session. -/
lemma sessions_receive_fin {payload : Bytes β} {made : Session β X}
    (h : Honest P identity { duo with flight := rest })
    (hsent : Sent P identity p (.fin payload made)) (hawaits : ¬ duo.Awaits P p payload) :
    ((duo.manager p).call P (.fin payload e now later)).sessions = (duo.manager p).sessions := by
  have hnot : ∀ session manager', SessionManager.handleFin P payload e now later
      (duo.manager p) ≠ (.ok (some session), manager') := by
    intro session manager' hcall
    have hidentity : (duo.manager p).identity = identity p := h.identity_eq p
    have hother : (duo.manager p.other).identity = identity p.other := h.identity_eq p.other
    cases hsent with | fin hid e₀ eR r₀ fresh peerStatic startedAt establishedAt ref keys hkeys =>
    rw [← hidentity] at hcall hawaits
    obtain ⟨hopens, hc⟩ := SessionManager.opens_of_handleFin hP hH hA (h.wellFormed p) hid hcall
    exact hawaits ⟨hopens, hother ▸ hc⟩
  rcases SessionManager.handleFin_of_not_some hP (h.wellFormed p) hnot with
    ⟨-, heq⟩ | ⟨-, err, manager', heq, hspoiled⟩
  · rw [SessionManager.call, heq]
  · rw [SessionManager.call, heq]
    exact hspoiled.sessions

/-- The step that the condition is about. -/
lemma receive_fin {payload : Bytes β} {made : Session β X}
    (h : Honest P identity { duo with flight := rest }) (hr : duo.Resolved P)
    (hsent : Sent P identity p (.fin payload made))
    (hsub : ∀ item ∈ duo.flight, item = (p, .fin payload made) ∨ item ∈ rest)
    (horder : duo.FinInOrder P rest p payload made) :
    Honest P identity ({ duo with flight := rest }.receive P p e r now later (.fin payload made)) ∧
      ({ duo with flight := rest }.receive P p e r now later (.fin payload made)).Resolved P := by
  refine ⟨?_, ?_⟩
  · rw [receive_fin_eq]
    exact h.afterCall hP _ (by simp)
  have hflight : ∀ item ∈ rest, item ∈
      ({ duo with flight := rest }.receive P p e r now later (.fin payload made)).flight :=
    fun item hitem => List.mem_append_left _ hitem
  by_cases hawaits : duo.Awaits P p payload
  · obtain ⟨session, hp, hother, hmatched⟩ := receive_fin_awaited hP hH hA h hsent hawaits
      e r now later
    -- the FIN is awaited: the responder's session is now the one that the FIN was made with
    rcases horder.1 hawaits with hcurrent | howed
    · refine Or.inl fun q s t hs ht => ?_
      rcases p.eq_or_eq_other q with rfl | rfl
      · rw [hp, Option.some.injEq] at hs
        rw [hother, hcurrent, Option.some.injEq] at ht
        exact hs ▸ ht ▸ hmatched
      · rw [hother, hcurrent, Option.some.injEq] at hs
        rw [p.other_other, hp, Option.some.injEq] at ht
        exact hs ▸ ht ▸ hmatched.symm
    · exact Or.inr ⟨p, howed.mono (fun item hitem _ => hflight item hitem) hother⟩
  · -- the FIN is not awaited: the responder refuses it, and no session changes
    have hsession : ∀ q, ({ duo with flight := rest }.receive P p e r now later
        (.fin payload made)).session P q = duo.session P q := by
      rw [receive_fin_eq]
      exact session_afterCall (SessionManager.identity_call hP (h.wellFormed p) _)
        (sessions_receive_fin hP hH hA h hsent hawaits)
    rcases hr with hsettled | ⟨q, item, hmem, hq, hmade, heq⟩
    · exact Or.inl (hsettled.congr hsession)
    rcases hsub item hmem with rfl | hrest
    · subst hq
      rcases horder.2 hawaits with hne | hnone | howed
      · exact absurd heq.symm hne
      · refine Or.inl fun q s t hs ht => ?_
        rw [hsession] at hs ht
        rcases p.eq_or_eq_other q with rfl | rfl
        · rw [hnone] at hs
          cases hs
        · rw [p.other_other, hnone] at ht
          cases ht
      · exact Or.inr ⟨p.other, howed.mono (fun item hitem _ => hflight item hitem) (hsession _)⟩
    · exact Or.inr ⟨q, item, hflight item hrest, hq, hmade, heq.trans (hsession _).symm⟩

/-- Every step that is in order keeps the invariant. -/
lemma step_inOrder (h : Honest P identity duo) (hr : duo.Resolved P) {event : DuoEvent β X}
    (ha : Admissible duo event) (horder : duo.InOrder P event) :
    Honest P identity (duo.step P event) ∧ (duo.step P event).Resolved P := by
  cases event with
  | start p hsId e now startedAt wallNow => exact step_start hP h hr ha e now startedAt wallNow
  | deliver i e r now later =>
    rcases hitem : duo.flight[i]? with _ | ⟨p, payload⟩
    · simp only [step, hitem]
      exact ⟨h, hr⟩
    simp only [step, hitem]
    have hrest := fun item => mem_eraseIdx_or (b := item) hitem
    have hsent := h.sent _ (List.mem_of_getElem? hitem)
    have hsub : payload.made = none →
        ∀ item ∈ duo.flight, item.2.made.isSome → item ∈ duo.flight.eraseIdx i := by
      intro hmade item hmem hsome
      rcases hrest item hmem with rfl | hmem
      · rw [hmade] at hsome
        cases hsome
      · exact hmem
    cases payload with
    | init payload => exact receive_init hP (h.erase i) hr hsent (hsub rfl)
    | response payload => exact receive_response hP hH hA (h.erase i) hr hsent (hsub rfl)
    | fin payload made =>
      exact receive_fin hP hH hA (h.erase i) hr hsent hrest (horder p payload made hitem)

/-- In a run in which every FIN arrives in order, once no handshake payload is in flight the two
sessions are the two ends of one handshake, and one of the parties can send. -/
theorem settled_of_inOrder {trust : Party → TrustStore β}
    (h : Reaches (fun duo event => Admissible duo event ∧ duo.InOrder P event) (step P)
      (initial identity trust) duo)
    (hflight : duo.flight = []) {s t : Session β X} (hs : duo.session P .left = some s)
    (ht : duo.session P .right = some t) :
    Session.Matched P s t ∧ (s.ratchet.cks ≠ none ∨ t.ratchet.cks ≠ none) := by
  have hgood : Honest P identity duo ∧ duo.Resolved P := by
    refine h.invariant (I := fun duo => Honest P identity duo ∧ duo.Resolved P) ⟨?_, Or.inl ?_⟩
      fun duo event hgood hevent => step_inOrder hP hH hA hgood.1 hgood.2 hevent.1 hevent.2
    · exact ⟨fun _ => rfl, fun _ _ _ hp => (nomatch hp), fun _ hitem => (nomatch hitem)⟩
    · intro p s t hs
      cases hs
  have hmatched : Session.Matched P s t := by
    rcases hgood.2 with hsettled | ⟨p, item, hmem, -⟩
    · exact hsettled .left s t hs ht
    · rw [hflight] at hmem
      cases hmem
  refine ⟨hmatched, ?_⟩
  obtain ⟨keys, r, fresh, hpaired | hpaired⟩ := hmatched
  · exact Or.inl hpaired.cks_ne_none
  · exact Or.inr hpaired.cks_ne_none

end Steps

/-! ## Alice and Bob open at the same time -/

open SessionManager.Meeting

/-- Alice on the left, Bob on the right. -/
def pair : Party → Identity ℕ ℕ
  | .left => alice
  | .right => bob

def strangers : Duo SymByte ℕ ℕ := initial pair fun _ => .empty none

/-- Only the arrival of a FIN can be out of order. -/
lemma inOrder_of_made {duo : Duo β X E} {i : ℕ}
    (h : (duo.flight[i]?).bind (fun item => item.2.made) = none) (e r : X) (now later : ℚ) :
    duo.InOrder P (.deliver i e r now later) := by
  intro p payload made hitem
  rw [hitem] at h
  cases h

/-- After `n` steps of a handshake that Alice opens. -/
def opened : ℕ → Duo SymByte ℕ ℕ
  | 0 => strangers.step symbolic (.start .left hsId 12 0 0 0)
  | n + 1 => (opened n).step symbolic (.deliver 0 (22 + n) 25 0 0)

/-- One handshake is in order. -/
theorem settled_of_inOrder_opened :
    ∃ s t, (opened 3).session symbolic .left = some s ∧
      (opened 3).session symbolic .right = some t ∧ Session.Matched symbolic s t ∧
      (s.ratchet.cks ≠ none ∨ t.ratchet.cks ≠ none) := by
  have hfin : (opened 2).InOrder symbolic (.deliver 0 24 25 0 0) := by
    intro p payload made hitem
    have hmade : ((opened 2).flight[0]?).map (fun item => (item.1, item.2.made)) =
        some (.right, (opened 2).session symbolic .left) := by decide +kernel
    rw [hitem] at hmade
    obtain ⟨rfl, hmade⟩ := Prod.mk.inj (Option.some.inj hmade)
    exact ⟨fun _ => Or.inl hmade.symm,
      fun _ => Or.inr (Or.inl (show (opened 2).session symbolic .right = none by decide +kernel))⟩
  have hrun : Reaches (fun duo event => Admissible duo event ∧ duo.InOrder symbolic event)
      (step symbolic) strangers (opened 3) := by
    refine ((((Reaches.refl _).tail ⟨show hsId.length = HS_ID_LEN from rfl, trivial⟩).tail
      ⟨trivial, inOrder_of_made ?_ 22 25 0 0⟩).tail ⟨trivial, inOrder_of_made ?_ 23 25 0 0⟩).tail
      ⟨trivial, hfin⟩
    all_goals decide +kernel
  obtain ⟨s, hs⟩ := Option.isSome_iff_exists.mp
    (show ((opened 3).session symbolic .left).isSome by decide +kernel)
  obtain ⟨t, ht⟩ := Option.isSome_iff_exists.mp
    (show ((opened 3).session symbolic .right).isSome by decide +kernel)
  exact ⟨s, t, hs, ht, settled_of_inOrder symbolic_correct symbolic_hashIdeal symbolic_aeadIdeal
    hrun (by decide +kernel) hs ht⟩

/-- Both INITs, then both RESPs, then both FINs arrive. -/
def crossed : Duo SymByte ℕ ℕ :=
  [.start .left hsId 12 0 0 0, .start .right (hsId.map fun _ => ofOctet 5) 32 0 0 0,
    .deliver 0 33 34 0 0, .deliver 0 13 14 0 0, .deliver 0 15 0 0 0, .deliver 0 35 0 0 0,
    .deliver 0 0 0 0 0, .deliver 0 0 0 0 0].foldl (step symbolic) strangers

/-- Each party ends up with the responder's end of its own handshake, and neither can send. -/
theorem crossed_unsettled :
    Reachable symbolic pair crossed ∧ crossed.flight = [] ∧
      ∃ s t, crossed.session symbolic .left = some s ∧ crossed.session symbolic .right = some t ∧
        ¬ Session.Matched symbolic s t ∧ s.ratchet.cks = none ∧ t.ratchet.cks = none := by
  refine ⟨⟨_, (Reaches.refl _).foldl ?_⟩, by decide +kernel, ?_⟩
  · simp [Admissible, hsId, HS_ID_LEN]
  have hcks : (crossed.session symbolic .left).map (fun s => s.ratchet.cks) = some none ∧
      (crossed.session symbolic .right).map (fun s => s.ratchet.cks) = some none := by
    decide +kernel
  obtain ⟨s, hs, hcks_s⟩ := Option.map_eq_some_iff.mp hcks.1
  obtain ⟨t, ht, hcks_t⟩ := Option.map_eq_some_iff.mp hcks.2
  refine ⟨s, t, hs, ht, ?_, hcks_s, hcks_t⟩
  rintro ⟨keys, r, fresh, hpaired | hpaired⟩
  · exact hpaired.cks_ne_none hcks_s
  · exact hpaired.cks_ne_none hcks_t

end Duo

end Chatbit
