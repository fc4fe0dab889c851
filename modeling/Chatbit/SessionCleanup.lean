import Chatbit.Handshake.Connect

/-!
# What a refused handshake leaves

A call of `handle_response` or `handle_fin` that raises should leave the sessions and the trust
store alone, and no entry whose handshake object has moved on. It does, unless the message opens
and its identity payload is refused after the last clean-up (`refuses_cleanly_iff`).
-/

namespace Chatbit

open Lib HandshakeState

variable {β X E : Type} [Alphabet β] [DecidableEq β] {P : Primitives β X E}

namespace SessionManager

/-- If the call raises, nothing but pending entries has changed, and every one that is left can
still be completed. -/
def RefusesCleanly {α : Type} (manager : SessionManager β X E)
    (outcome : Except (Exc β) α × SessionManager β X E) : Prop :=
  ∀ err manager', outcome = (.error err, manager') →
    manager'.sessions = manager.sessions ∧ manager'.trust = manager.trust ∧
      ∀ hsId p, manager'.pending.get? hsId = some p → ¬ p.Past

/-- No other entry is past the message that it waits for. -/
def OthersWait (manager : SessionManager β X E) (hsId : Bytes β) : Prop :=
  ∀ k p, k ≠ hsId → manager.pending.get? k = some p → ¬ p.Past

omit [Alphabet β] in
/-- A call that raises is clean when it deletes the entry and the other entries wait. -/
lemma Ends.refusesCleanly_iff {α : Type} {hsId : Bytes β} {manager : SessionManager β X E}
    {accepts late : Prop} {outcome : Except (Exc β) α × SessionManager β X E}
    (h : Ends hsId manager accepts late outcome) :
    RefusesCleanly manager outcome ↔ ¬ late ∧ (accepts ∨ OthersWait manager hsId) := by
  cases h with
  | completes h hlate =>
    exact iff_of_true (fun err manager' h => by cases h) ⟨hlate, Or.inl h⟩
  | cleans h hlate =>
    constructor
    · intro hclean
      refine ⟨hlate, Or.inr fun k p hk hp => ?_⟩
      obtain ⟨-, -, hwait⟩ := hclean _ _ rfl
      exact hwait k p ((OrderedDict.get?_erase_of_ne _ hk).trans hp)
    · rintro ⟨-, haccepts | hothers⟩
      · exact absurd haccepts h
      · rintro err manager' ⟨⟩
        refine ⟨rfl, rfl, fun k p hp => ?_⟩
        obtain ⟨hk, hmem⟩ := OrderedDict.mem_erase.mp (OrderedDict.get?_eq_some_iff.mp hp)
        exact hothers k p hk (OrderedDict.get?_eq_some_iff.mpr hmem)
  | @leaves err trust' p hlate hp =>
    refine iff_of_false (fun hclean => ?_) fun h => h.1 hlate
    obtain ⟨-, -, hwait⟩ := hclean _ _ rfl
    exact hwait hsId p (OrderedDict.get?_set_self _ _ _) hp

/-! ## The condition -/

section Condition

variable (P : Primitives β X E) (manager : SessionManager β X E) (pending : PendingHandshake β X)
  (fresh : X) (payload : Bytes β)

/-- The entry waits for message 2, with an ephemeral key for which `Q` holds. -/
def AwaitsResponse (Q : X → Prop) : Prop :=
  ¬ pending.Past ∧ ∃ e, pending.handshake.e = some e ∧ Q e

/-- The entry waits for message 3, after an exchange for which `Q` holds. -/
def AwaitsFin (Q : X → Bytes β → X → Prop) : Prop :=
  ¬ pending.Past ∧ ∃ e re r, pending.handshake.e = some e ∧ pending.handshake.re = some re ∧
    pending.ratchetPrivate = some r ∧ Q e re r

/-- A RESP for a pending initiator: it is not refused late, and it is accepted or every other entry
waits. -/
def CleansResponse : Prop :=
  ∀ pending, manager.pending.get? (payload.take HS_ID_LEN) = some pending →
    pending.initiator = true →
    ¬ AwaitsResponse pending (fun e =>
      RefusesResponseLate P manager e fresh (payload.drop HS_ID_LEN)) ∧
    (AwaitsResponse pending (fun e =>
        CompletesResponse P manager e fresh (payload.drop HS_ID_LEN)) ∨
      OthersWait manager (payload.take HS_ID_LEN))

/-- The same for a FIN for a pending responder. -/
def CleansFin : Prop :=
  ∀ pending, manager.pending.get? (payload.take HS_ID_LEN) = some pending →
    pending.initiator = false →
    ¬ AwaitsFin pending (fun e re r =>
      RefusesFinLate P manager e re (respEncStatic P manager.identity e re)
        (respEncPayload P manager.identity e r re) (payload.drop HS_ID_LEN)) ∧
    (AwaitsFin pending (fun e re r =>
        CompletesFin P manager e re (respEncStatic P manager.identity e re)
          (respEncPayload P manager.identity e r re) (payload.drop HS_ID_LEN)) ∨
      OthersWait manager (payload.take HS_ID_LEN))

end Condition

section Outcome

variable (hP : P.Correct) {manager : SessionManager β X E} {payload : Bytes β} {fresh : X}
  {now establishedAt : ℚ} {pending : PendingHandshake β X}

omit [Alphabet β] in
lemma refusesCleanly_map {α γ : Type} (f : α → γ) (m : Method (Exc β) (SessionManager β X E) α) :
    RefusesCleanly manager ((f <$> m) manager) ↔ RefusesCleanly manager (m manager) := by
  constructor
  · exact fun h err manager' hm => h err manager' (Method.map_error.mpr hm)
  · exact fun h err manager' hm => h err manager' (Method.map_error.mp hm)

omit [DecidableEq β] in
lemma awaitsResponse_started {identity : Identity X E} {peerStatic hsId : Bytes β} {e : X}
    {startedAt : ℚ} {Q : X → Prop} :
    AwaitsResponse (startPending P identity peerStatic hsId e startedAt) Q ↔ Q e := by
  simp [AwaitsResponse, PendingHandshake.Past, startPending, sent1]

omit [DecidableEq β] in
lemma awaitsFin_answered {identity : Identity X E} {hsId re : Bytes β} {e r : X}
    {startedAt : ℚ} {Q : X → Bytes β → X → Prop} :
    AwaitsFin (respPending P identity hsId re e r startedAt) Q ↔ Q e re r := by
  simp [AwaitsFin, PendingHandshake.Past, respPending, respState, sent2]

include hP

/-- Everything about how a RESP for a pending initiator ends. -/
lemma pendingInitiator_ends (hm : WellFormed P manager) {hsId body : Bytes β}
    (hget : manager.pending.get? hsId = some pending) (hi : pending.initiator = true) :
    Ends hsId manager
      (AwaitsResponse pending fun e => CompletesResponse P manager e fresh body)
      (AwaitsResponse pending fun e => RefusesResponseLate P manager e fresh body)
      (completeInitiator P hsId body pending fresh now establishedAt manager) := by
  rcases (hm _ _ hget).past_or_started hi with hpast | ⟨peerStatic, e, startedAt, rfl⟩
  · -- reading raises once more, and the entry goes
    rcases hc : completeInitiator P hsId body pending fresh now establishedAt manager with
      ⟨result, manager'⟩
    obtain ⟨⟨err, rfl⟩, rfl⟩ := completeInitiator_past hi hpast hc
    exact .cleans (fun h => h.1 hpast) fun h => h.1 hpast
  · rw [awaitsResponse_started, awaitsResponse_started]
    exact completeInitiator_ends hP rfl rfl

/-- Everything about how a FIN for a pending responder ends. -/
lemma pendingResponder_ends (hm : WellFormed P manager) {hsId body : Bytes β}
    (hget : manager.pending.get? hsId = some pending) (hi : pending.initiator = false) :
    Ends hsId manager
      (AwaitsFin pending fun e re r => CompletesFin P manager e re
        (respEncStatic P manager.identity e re) (respEncPayload P manager.identity e r re) body)
      (AwaitsFin pending fun e re r => RefusesFinLate P manager e re
        (respEncStatic P manager.identity e re) (respEncPayload P manager.identity e r re) body)
      (completeResponder P hsId body pending fresh now establishedAt manager) := by
  rcases (hm _ _ hget).past_or_answered hi with hpast | ⟨re, e, r, startedAt, -, rfl⟩
  · rcases hc : completeResponder P hsId body pending fresh now establishedAt manager with
      ⟨result, manager'⟩
    obtain ⟨⟨err, rfl⟩, rfl⟩ := completeResponder_past hi hpast hc
    exact .cleans (fun h => h.1 hpast) fun h => h.1 hpast
  · rw [awaitsFin_answered, awaitsFin_answered]
    exact completeResponder_ends hP rfl rfl rfl

lemma handleResponse_cleans_iff (hm : WellFormed P manager) :
    RefusesCleanly manager (handleResponse P payload fresh now establishedAt manager) ↔
      CleansResponse P manager fresh payload := by
  by_cases hnot : ∀ p, manager.pending.get? (payload.take HS_ID_LEN) = some p → p.initiator = false
  · rw [handleResponse_of_not hnot]
    refine iff_of_true (fun _ _ h => by cases h) fun p hp hi => ?_
    rw [hnot p hp] at hi
    cases hi
  push Not at hnot
  obtain ⟨pending, hget, hi⟩ := hnot
  have hi : pending.initiator = true := by simpa using hi
  rw [handleResponse_of_pending hget hi, refusesCleanly_map,
    (pendingInitiator_ends hP hm hget hi).refusesCleanly_iff]
  constructor
  · intro h p hp _
    obtain rfl := Option.some.inj (hget.symm.trans hp)
    exact h
  · exact fun h => h pending hget hi

lemma handleFin_cleans_iff (hm : WellFormed P manager) :
    RefusesCleanly manager (handleFin P payload fresh now establishedAt manager) ↔
      CleansFin P manager payload := by
  by_cases hnot : ∀ p, manager.pending.get? (payload.take HS_ID_LEN) = some p → p.initiator = true
  · rw [handleFin_of_not hnot]
    refine iff_of_true (fun _ _ h => by cases h) fun p hp hi => ?_
    rw [hnot p hp] at hi
    cases hi
  push Not at hnot
  obtain ⟨pending, hget, hi⟩ := hnot
  have hi : pending.initiator = false := by simpa using hi
  rw [handleFin_of_pending hget hi, refusesCleanly_map,
    (pendingResponder_ends hP hm hget hi).refusesCleanly_iff]
  constructor
  · intro h p hp _
    obtain rfl := Option.some.inj (hget.symm.trans hp)
    exact h
  · exact fun h => h pending hget hi

/-- Exactly which RESPs and FINs, if they are refused, are refused without a trace. -/
theorem refuses_cleanly_iff (hm : Reachable P manager) :
    (RefusesCleanly manager (handleResponse P payload fresh now establishedAt manager) ↔
      CleansResponse P manager fresh payload) ∧
    (RefusesCleanly manager (handleFin P payload fresh now establishedAt manager) ↔
      CleansFin P manager payload) :=
  ⟨handleResponse_cleans_iff hP (hm.wellFormed hP), handleFin_cleans_iff hP (hm.wellFormed hP)⟩

end Outcome

/-! ## A late refusal -/

namespace Meeting

/-- A RESP of Bob's with another identity payload. -/
def responseWith (P : Primitives SymByte ℕ ℕ) (idPayload : Bytes SymByte) : Bytes SymByte :=
  hsId ++ (P.x25519PublicBytes 22 ++ respEncStatic P bob 22 (P.x25519PublicBytes 12) ++
    encPayload2 P PROLOGUE bob.staticPrivate 22 (P.x25519PublicBytes 12) idPayload)

/-- What Bob signs, with a ratchet key of his choice. -/
def signedBy (P : Primitives SymByte ℕ ℕ) (ratchetPub : Bytes SymByte) : Bytes SymByte :=
  encodeIdentityPayload P bob (some ratchetPub)
    (builderHash2 P PROLOGUE bob.staticPrivate 22 (P.x25519PublicBytes 12))

/-- The zero point is of low order. -/
def lowOrder : Primitives SymByte ℕ ℕ :=
  { symbolic with exchange := fun x raw =>
      if raw = zeros DHLEN then zeros DHLEN else symbolic.exchange x raw }

def startedBy (P : Primitives SymByte ℕ ℕ) : SessionManager SymByte ℕ ℕ :=
  ({ identity := alice, trust := .empty none } : SessionManager SymByte ℕ ℕ).call P
    (.start (bob.staticPublic P) hsId 12 0 0 0)

/-- Whether the call raised, and its entry is past message 2. -/
def raisedPast {α : Type} (outcome : Except (Exc SymByte) α × SessionManager SymByte ℕ ℕ) : Bool :=
  match outcome.1, outcome.2.pending.get? hsId with
  | .error _, some p => decide p.Past
  | _, _ => false

lemma not_refusesCleanly {α : Type} {manager : SessionManager SymByte ℕ ℕ}
    {outcome : Except (Exc SymByte) α × SessionManager SymByte ℕ ℕ}
    (h : raisedPast outcome = true) : ¬ RefusesCleanly manager outcome := by
  intro hclean
  obtain ⟨err | a, manager'⟩ := outcome
  · rcases hget : manager'.pending.get? hsId with _ | p
    · simp [raisedPast, hget] at h
    · exact (hclean err manager' rfl).2.2 hsId p hget (by simpa [raisedPast, hget] using h)
  · simp [raisedPast] at h

/-- Bob is pinned although his handshake was refused. -/
def raisedPinned {α : Type} (outcome : Except (Exc SymByte) α × SessionManager SymByte ℕ ℕ) :
    Bool :=
  match outcome.1 with
  | .error _ => (outcome.2.trust.get (SymByte.signingKey 30)).isSome
  | _ => false

end Meeting

open Meeting in
/-- A truncated identity payload, and a signed one with a ratchet key of low order. -/
theorem refused_handshake_stays :
    Reachable symbolic (startedBy symbolic) ∧
    ¬ RefusesCleanly (startedBy symbolic) (handleResponse symbolic
      (responseWith symbolic ((signedBy symbolic (SymByte.publicKey 23)).take 100)) 13 0 0
        (startedBy symbolic)) ∧
    ¬ RefusesCleanly (startedBy lowOrder) (handleResponse lowOrder
      (responseWith lowOrder (signedBy lowOrder (zeros DHLEN))) 13 0 0 (startedBy lowOrder)) ∧
    raisedPinned (handleResponse lowOrder
      (responseWith lowOrder (signedBy lowOrder (zeros DHLEN))) 13 0 0
        (startedBy lowOrder)) = true :=
  ⟨Reachable.call ⟨alice, .empty none, .refl _⟩ _, not_refusesCleanly (by decide +kernel),
    not_refusesCleanly (by decide +kernel), by decide +kernel⟩

namespace Meeting

/-- A RESP of Bob's that opens, with a signature from some other handshake. -/
def missigned : Bytes SymByte :=
  responseWith symbolic (encodeIdentityPayload symbolic bob (some (SymByte.publicKey 23)) (zeros 32))

/-- What Alice reads of it. -/
def readMissigned : Option (Bytes SymByte × Bytes SymByte × Bytes SymByte) :=
  (readMessage2 symbolic (missigned.drop HS_ID_LEN)
    (sent1 symbolic PROLOGUE alice.staticPrivate 12)).1.toOption

lemma not_verified : ∀ out ∈ readMissigned, ∃ claim ∈ (decodeIdentityPayload out.2.2 true).toOption,
    symbolic.verify claim.signingPub claim.signature (SIG_DOMAIN ++ out.2.1) = false := by
  decide +kernel

lemma not_refusesLate_missigned :
    ¬ RefusesResponseLate symbolic started 12 13 (missigned.drop HS_ID_LEN) := by
  rintro ⟨rs, signedHash, payload, hreads, hlate⟩
  obtain ⟨st, hread⟩ := (readsResponse_iff symbolic_correct alice.staticPrivate).mp hreads
  have hout : (rs, signedHash, payload) ∈ readMissigned := by
    rw [readMissigned, hread]
    rfl
  obtain ⟨claim, hclaim, hverify⟩ := not_verified _ hout
  rw [RefusesLate] at hlate
  rcases hdecode : decodeIdentityPayload payload true with err | claim'
  · rw [hdecode] at hclaim
    cases hclaim
  · rw [hdecode] at hclaim hlate
    obtain rfl := Option.some.inj hclaim
    exact Bool.false_ne_true (hverify.symm.trans hlate.1)

end Meeting

open Meeting in
/-- A RESP that opens and is signed wrongly is refused, and the entry goes. -/
theorem refuses_cleanly_missigned :
    readMissigned.isSome = true ∧
      (handleResponse symbolic missigned 13 0 0 started).1.toBool = false ∧
      RefusesCleanly started (handleResponse symbolic missigned 13 0 0 started) := by
  refine ⟨by decide +kernel, by decide +kernel,
    (refuses_cleanly_iff symbolic_correct reachable_started).1.mpr ?_⟩
  have hpending : started.pending = OrderedDict.empty.set hsId
      (startPending symbolic alice (bob.staticPublic symbolic) hsId 12 0) := by
    rw [started, SessionManager.call, startHandshake_snd]
    rfl
  intro pending hget hi
  rw [hpending] at hget
  obtain rfl := Option.some.inj ((OrderedDict.get?_set_self _ hsId _).symm.trans hget)
  rw [awaitsResponse_started, awaitsResponse_started]
  refine ⟨not_refusesLate_missigned, Or.inr fun k p hk hp => ?_⟩
  -- there is no other entry
  have hk : k ≠ hsId := hk
  rw [hpending, OrderedDict.get?_set_of_ne _ _ hk] at hp
  cases hp

end SessionManager

end Chatbit
