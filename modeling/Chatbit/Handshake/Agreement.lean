import Chatbit.Handshake.Matched
import Chatbit.Handshake.Network

/-!
# Who stands behind a session

What an honest party signs has one of three shapes: a transcript of four items as responder, one of
six items as initiator, or a beacon body. A hash that a session verifies under an honest key can
only be the one of the right shape, and the transcript that it commits to then fixes the two
ephemerals and the static keys.
-/

namespace Chatbit

open Lib HandshakeState

variable {ι β X E : Type} [Alphabet β] [DecidableEq β] {P : Primitives β X E}

/-- What an honest party signs. -/
inductive SignedBy (P : Primitives β X E) (identity : Identity X E) : Signed β X → Prop
  | responder (e : X) (re : Bytes β) (hre : re.length = DHLEN) :
    SignedBy P identity (.handshake (writing2 P PROLOGUE identity.staticPrivate e re
      (encStatic2 P PROLOGUE identity.staticPrivate e re)))
  | initiator (e : X) (body : Bytes β) (m : ReceivedResponse β) (hm : m.Valid P e body) :
    SignedBy P identity (.handshake (writing3 P PROLOGUE identity.staticPrivate e m.re m.rs m.encS
      m.encPayload (encStatic3 P PROLOGUE identity.staticPrivate e m.re m.rs m.encS m.encPayload)))
  | beacon (timestamp : Bytes β) (h : timestamp.length = 8) :
    SignedBy P identity (.beacon (identity.beaconBody P timestamp))

omit [DecidableEq β] in
lemma message_writing2 (prologue : Bytes β) (s e : X) (re : Bytes β) :
    (Signed.handshake (writing2 P prologue s e re (encStatic2 P prologue s e re))).message =
      SIG_DOMAIN ++ builderHash2 P prologue s e re := rfl

omit [DecidableEq β] in
lemma message_writing3 (prologue : Bytes β) (s e : X) (re rs encS encPayload : Bytes β) :
    (Signed.handshake (writing3 P prologue s e re rs encS encPayload
      (encStatic3 P prologue s e re rs encS encPayload))).message =
      SIG_DOMAIN ++ builderHash3 P prologue s e re rs encS encPayload := rfl

/-! ## What is signed -/

section Signing

variable (hP : P.Correct)
include hP

omit [DecidableEq β] in
/-- The payload of an accepted RESP is longer than a public key. -/
lemma ReceivedResponse.Valid.length_encPayload {e : X} {body : Bytes β} {m : ReceivedResponse β}
    (hm : m.Valid P e body) : DHLEN < m.encPayload.length := by
  have hlen := (decodeIdentityPayload_ok hm.claim_eq).1
  rw [hm.opens.identity, SymmetricState.length_sealAfter hP]
  simp only [PUBKEY_LEN, SIG_LEN, DHLEN, TAGLEN, if_true] at hlen ⊢
  omega

/-- A call signs in one of the two shapes. -/
lemma SessionManager.signing_signedBy {manager : SessionManager β X E}
    (hm : SessionManager.WellFormed P manager) {c : Call β X} {st : HandshakeState β X}
    (h : manager.signing P c = some st) : SignedBy P manager.identity (.handshake st) := by
  cases c with
  | init payload e r now startedAt =>
    simp only [signing, readMessage1_new] at h
    split_ifs at h with hfull hkey hlen
    · rcases hw : writeStatic2 P e (received1 P PROLOGUE (manager.expire now).identity.staticPrivate
        (payload.drop HS_ID_LEN)) with ⟨err | ⟨epub, encS⟩, st'⟩
      · simp [leaves, hw] at h
      · obtain ⟨-, -, -, -, rfl⟩ := (writeStatic2_ok_iff hP hlen).mp hw
        simp only [leaves, hw, Option.bind_eq_bind, Option.bind_some, Option.some.injEq] at h
        exact h ▸ .responder e _ hlen
    · simp [leaves] at h
  | response payload fresh now establishedAt =>
    rcases hget : manager.pending.get? (payload.take HS_ID_LEN) with _ | pending
    · simp [signing, hget] at h
    rcases hi : pending.initiator
    · simp [signing, hget, hi] at h
    rcases ha : acceptResponse P (payload.take HS_ID_LEN) (payload.drop HS_ID_LEN) pending now
      manager with ⟨err | ⟨ref, claim, pending'⟩, manager'⟩
    · simp [signing, hget, hi, ha] at h
    simp only [signing, hget, hi, ha, Option.bind_eq_bind, Option.bind_some] at h
    -- a handshake past message 2 is not answered again
    rcases (hm _ _ hget).past_or_started hi with hpast | ⟨peerStatic, e, startedAt, rfl⟩
    · obtain ⟨err, herr⟩ := acceptResponse_past (P := P) hi hpast
      rw [herr] at ha
      cases ha
    · obtain ⟨m, trust', hvalid, -, -, rfl, -⟩ := (acceptResponse_ok_iff hP rfl).mp ha
      rcases hw : writeStatic3 P (received2 P PROLOGUE manager.identity.staticPrivate e m.re m.rs
        m.encS m.encPayload) with ⟨err | encS, st'⟩
      · simp [leaves, hw] at h
      · obtain ⟨-, rfl, rfl⟩ := (writeStatic3_ok_iff hP hvalid.length_re).mp hw
        simp only [leaves, hw, Bool.true_eq_false, if_false, Option.some.injEq] at h
        exact h ▸ .initiator e _ m hvalid
  | _ => cases h

/-! ## What a hash that was signed says -/

variable (hH : P.HashIdeal) {identity : Identity X E} {item : Signed β X}
include hH

omit [DecidableEq β] in
/-- The hash of message 2 is only signed by a responder that sent this message 2. -/
lemma SignedBy.of_message2 (h : SignedBy P identity item) {e : X} {re encS : Bytes β}
    (hre : re.length = DHLEN)
    (hmessage : item.message = SIG_DOMAIN ++
      transcript P [PROLOGUE, P.x25519PublicBytes e, re, encS]) :
    ∃ e', item = .handshake (writing2 P PROLOGUE identity.staticPrivate e' (P.x25519PublicBytes e)
        (encStatic2 P PROLOGUE identity.staticPrivate e' (P.x25519PublicBytes e))) ∧
      re = P.x25519PublicBytes e' ∧
      encS = encStatic2 P PROLOGUE identity.staticPrivate e' (P.x25519PublicBytes e) := by
  cases h with
  | responder e' re' hre' =>
    have heq : transcript P [PROLOGUE, re', P.x25519PublicBytes e', _] =
        transcript P [PROLOGUE, P.x25519PublicBytes e, re, encS] :=
      List.append_cancel_left hmessage
    have hitems := transcript_inj hP hH (by rfl) heq
    simp only [List.cons.injEq, and_true, true_and] at hitems
    obtain ⟨rfl, rfl, rfl⟩ := hitems
    exact ⟨e', rfl, rfl, rfl⟩
  | initiator e' body m hm =>
    -- its fourth item would be a public key, and it is an encrypted payload
    have hsix : transcript P
          ([PROLOGUE, P.x25519PublicBytes e', m.re, m.encS, m.encPayload] ++ [_]) =
        transcript P ([PROLOGUE, P.x25519PublicBytes e, re] ++ [encS]) :=
      List.append_cancel_left hmessage
    have hfive : transcript P ([PROLOGUE, P.x25519PublicBytes e', m.re, m.encS] ++ [m.encPayload]) =
        transcript P ([PROLOGUE, P.x25519PublicBytes e] ++ [re]) :=
      (transcript_last_inj hP hH hsix).1
    have hlen := hm.length_encPayload hP
    rw [(transcript_last_inj hP hH hfive).2, hre] at hlen
    exact absurd hlen (lt_irrefl _)
  | beacon timestamp ht =>
    have hlen := congrArg List.length (List.append_cancel_left hmessage)
    simp [Identity.beaconBody, Identity.signingPublic, Identity.staticPublic,
      hP.length_ed25519Public, hP.length_x25519Public, length_transcript hP, ht, DHLEN,
      HASHLEN] at hlen

omit [DecidableEq β] in
/-- The hash of message 3 is only signed by an initiator that sent this message 3. -/
lemma SignedBy.of_message3 (h : SignedBy P identity item) {e : X}
    {re encS encPayload encS₃ : Bytes β} (hlong : DHLEN < encPayload.length)
    (hmessage : item.message = SIG_DOMAIN ++
      transcript P [PROLOGUE, re, P.x25519PublicBytes e, encS, encPayload, encS₃]) :
    ∃ e' body m, ReceivedResponse.Valid P e' body m ∧
      item = .handshake (writing3 P PROLOGUE identity.staticPrivate e' m.re m.rs m.encS m.encPayload
        (encStatic3 P PROLOGUE identity.staticPrivate e' m.re m.rs m.encS m.encPayload)) ∧
      re = P.x25519PublicBytes e' ∧ m.re = P.x25519PublicBytes e ∧ m.encS = encS ∧
      m.encPayload = encPayload ∧
      encS₃ = encStatic3 P PROLOGUE identity.staticPrivate e' m.re m.rs m.encS m.encPayload := by
  cases h with
  | responder e' re' hre' =>
    -- the payload of message 2 would be the responder's ephemeral key, which is shorter
    have hfour : transcript P ([PROLOGUE, re', P.x25519PublicBytes e'] ++ [_]) =
        transcript P ([PROLOGUE, re, P.x25519PublicBytes e, encS, encPayload] ++ [encS₃]) :=
      List.append_cancel_left hmessage
    have hthree : transcript P ([PROLOGUE, re'] ++ [P.x25519PublicBytes e']) =
        transcript P ([PROLOGUE, re, P.x25519PublicBytes e, encS] ++ [encPayload]) :=
      (transcript_last_inj hP hH hfour).1
    rw [← (transcript_last_inj hP hH hthree).2, hP.length_x25519Public] at hlong
    exact absurd hlong (lt_irrefl _)
  | initiator e' body m hm =>
    have heq : transcript P [PROLOGUE, P.x25519PublicBytes e', m.re, m.encS, m.encPayload, _] =
        transcript P [PROLOGUE, re, P.x25519PublicBytes e, encS, encPayload, encS₃] :=
      List.append_cancel_left hmessage
    have hitems := transcript_inj hP hH (by rfl) heq
    simp only [List.cons.injEq, and_true, true_and] at hitems
    obtain ⟨hre, he, hS, hpayload, hS₃⟩ := hitems
    exact ⟨e', body, m, hm, rfl, hre.symm, he, hS, hpayload, hS₃.symm⟩
  | beacon timestamp ht =>
    -- a beacon body is longer than a transcript hash
    have hlen := congrArg List.length (List.append_cancel_left hmessage)
    simp [Identity.beaconBody, Identity.signingPublic, Identity.staticPublic,
      hP.length_ed25519Public, hP.length_x25519Public, length_transcript hP, ht, DHLEN,
      HASHLEN] at hlen

omit [DecidableEq β] in
/-- A RESP whose hash was signed comes with the signer's static key. -/
lemma ReceivedResponse.Valid.static_of_signed {e : X} {body : Bytes β} {m : ReceivedResponse β}
    (hm : m.Valid P e body) (h : SignedBy P identity item)
    (hmessage : item.message = SIG_DOMAIN ++
      transcript P [PROLOGUE, P.x25519PublicBytes e, m.re, m.encS]) :
    ∃ e', item = .handshake (writing2 P PROLOGUE identity.staticPrivate e' (P.x25519PublicBytes e)
        (encStatic2 P PROLOGUE identity.staticPrivate e' (P.x25519PublicBytes e))) ∧
      m.re = P.x25519PublicBytes e' ∧ m.rs = identity.staticPublic P := by
  obtain ⟨e', hitem, hre, hS⟩ := h.of_message2 hP hH hm.length_re hmessage
  refine ⟨e', hitem, hre, ?_⟩
  have hseal := hm.opens.static.symm.trans hS
  rw [encStatic2, hre, hP.exchange_comm e e'] at hseal
  exact hP.encrypt_inj hseal

omit hH [DecidableEq β] in
/-- The payload of a RESP that a responder sends is longer than a public key. -/
lemma length_respEncPayload (responder : Identity X E) (e r : X) (re : Bytes β) :
    DHLEN < (respEncPayload P responder e r re).length := by
  have hpub := hP.length_ed25519Public responder.signingPrivate
  simp only [respEncPayload, encPayload2, SymmetricState.length_sealAfter hP,
    encodeIdentityPayload, List.length_append, Identity.signingPublic, hpub, DHLEN, TAGLEN]
  omega

omit [DecidableEq β] in
/-- A FIN whose hash was signed comes with the signer's static key. -/
lemma ReceivedFin.Valid.static_of_signed {responder : Identity X E} {e r : X}
    {re body : Bytes β} {m : ReceivedFin β}
    (hm : m.Valid P responder.staticPrivate e re (respEncStatic P responder e re)
      (respEncPayload P responder e r re) body) (h : SignedBy P identity item)
    (hmessage : item.message = SIG_DOMAIN ++ transcript P [PROLOGUE, re, P.x25519PublicBytes e,
      respEncStatic P responder e re, respEncPayload P responder e r re, m.encS]) :
    ∃ e' rs encS encPayload encS₃, item = .handshake (writing3 P PROLOGUE identity.staticPrivate e'
        (P.x25519PublicBytes e) rs encS encPayload encS₃) ∧
      re = P.x25519PublicBytes e' ∧ m.rs = identity.staticPublic P := by
  obtain ⟨e', body', m', hm', hitem, rfl, hre, hS, hpayload, hS₃⟩ :=
    h.of_message3 hP hH (length_respEncPayload hP responder e r re) hmessage
  -- the signer read the responder's static key in the RESP
  have hrs : m'.rs = responder.staticPublic P := by
    have hseal := hm'.opens.static.symm.trans hS
    rw [respEncStatic, encStatic2, hre, hP.exchange_comm e' e] at hseal
    exact hP.encrypt_inj hseal
  refine ⟨e', m'.rs, m'.encS, m'.encPayload, _, hre ▸ hitem, rfl, ?_⟩
  have hseal := hm.opens.static.symm.trans hS₃
  rw [encStatic3, hrs, hS, hpayload, hre, Identity.staticPublic, hP.exchange_comm e' e,
    hP.exchange_comm e' responder.staticPrivate] at hseal
  exact hP.encrypt_inj hseal

end Signing

/-! ## Runs -/

namespace World

variable [DecidableEq ι]

/-- What holds in every world that runs reach. -/
structure Ok (P : Primitives β X E) (identity : ι → Identity X E) (w : World ι β X E) : Prop where
  identity_eq : ∀ a, (w.manager a).identity = identity a
  wellFormed : ∀ a, SessionManager.WellFormed P (w.manager a)
  signed : ∀ b item, (b, item) ∈ w.journal → SignedBy P (identity b) item

lemma manager_step_call (w : World ι β X E) (a a' : ι) (c : Call β X) :
    (w.step P (.call a c)).manager a' =
      if a' = a then (w.manager a).call P c else w.manager a' :=
  Function.update_apply _ _ _ _

lemma mem_journal_step_call {w : World ι β X E} {a : ι} {c : Call β X} {st : HandshakeState β X}
    (h : (w.manager a).signing P c = some st) :
    (a, .handshake st) ∈ (w.step P (.call a c)).journal := by
  rw [World.step, h]
  simp

lemma Ok.step (hP : P.Correct) {identity : ι → Identity X E} {w : World ι β X E}
    (hw : w.Ok P identity) {event : NetworkEvent ι β X} (he : w.Admissible P event) :
    (w.step P event).Ok P identity := by
  cases event with
  | beacon a timestamp =>
    refine ⟨hw.identity_eq, hw.wellFormed, fun b item hitem => ?_⟩
    rcases List.mem_cons.mp hitem with heq | hitem
    · obtain ⟨rfl, rfl⟩ := Prod.mk.inj heq
      rw [hw.identity_eq]
      exact .beacon timestamp he
    · exact hw.signed b item hitem
  | call a c =>
    refine ⟨fun a' => ?_, fun a' => ?_, fun b item hitem => ?_⟩
    · rw [manager_step_call]
      split_ifs with ha
      · rw [SessionManager.identity_call hP (hw.wellFormed a), ha, hw.identity_eq]
      · exact hw.identity_eq a'
    · rw [manager_step_call]
      split_ifs
      · exact (hw.wellFormed a).call hP c
      · exact hw.wellFormed a'
    · rcases List.mem_append.mp hitem with hnew | hitem
      · obtain ⟨st, hst, heq⟩ := List.mem_map.mp hnew
        obtain ⟨rfl, rfl⟩ := Prod.mk.inj heq
        rw [← hw.identity_eq]
        exact SessionManager.signing_signedBy hP (hw.wellFormed a) (Option.mem_toList.mp hst)
      · exact hw.signed b item hitem

lemma Reachable.ok (hP : P.Correct) {identity : ι → Identity X E} {w : World ι β X E}
    (hw : w.Reachable P identity) : w.Ok P identity := by
  obtain ⟨trust, hw⟩ := hw
  refine hw.invariant (I := Ok P identity) ⟨fun _ => rfl, fun a hsId p hp => ?_, ?_⟩
    fun u event hu he => hu.step hP he
  · rw [initial, OrderedDict.get?_empty] at hp
    cases hp
  · exact fun b item hitem => absurd hitem List.not_mem_nil

/-- `b` has signed the hash `h` in the other role of the handshake that left `st`, with the same two
ephemeral keys. -/
def PartnerSigned (P : Primitives β X E) (w : World ι β X E) (b : ι) (h : Bytes β)
    (st : HandshakeState β X) : Prop :=
  ∃ st' e e', (b, .handshake st') ∈ w.journal ∧ st'.initiator = !st.initiator ∧
    st'.symmetric.h = h ∧ st.e = some e ∧ st'.e = some e' ∧
    st.re = some (P.x25519PublicBytes e') ∧ st'.re = some (P.x25519PublicBytes e)

/-- Whatever the network does, a session whose peer has the signing key of an honest party `b` is
made from a transcript hash that `b` has signed in the other role, with the same two ephemeral
keys, and its peer has the static key of `b`. -/
theorem session_authentic (hP : P.Correct) (hH : P.HashIdeal) {identity : ι → Identity X E}
    {w : World ι β X E} (hw : w.Reachable P identity) (a b : ι) (payload : Bytes β) (fresh : X)
    (now establishedAt : ℚ) (session : Session β X) (manager' : SessionManager β X E)
    (peer : PeerIdentity β) (hpeer : manager'.peerOf session = some peer)
    (hkey : peer.signingPublic = (identity b).signingPublic P) :
    (∀ fin, w.Unforged P a (.response payload fresh now establishedAt) →
      SessionManager.handleResponse P payload fresh now establishedAt (w.manager a) =
        (.ok (some (fin, session)), manager') →
      ∃ pending rs h identityPayload st,
        (w.manager a).pending.get? (payload.take HS_ID_LEN) = some pending ∧
        readMessage2 P (payload.drop HS_ID_LEN) pending.handshake =
          (.ok (rs, h, identityPayload), st) ∧
        w.PartnerSigned P b h st ∧ peer.staticPublic = (identity b).staticPublic P) ∧
    (w.Unforged P a (.fin payload fresh now establishedAt) →
      SessionManager.handleFin P payload fresh now establishedAt (w.manager a) =
        (.ok (some session), manager') →
      ∃ pending rs h identityPayload st,
        (w.manager a).pending.get? (payload.take HS_ID_LEN) = some pending ∧
        readMessage3 P (payload.drop HS_ID_LEN) pending.handshake =
          (.ok (rs, h, identityPayload), st) ∧
        w.PartnerSigned P b h st ∧ peer.staticPublic = (identity b).staticPublic P) := by
  have hok := hw.ok hP
  constructor
  · intro fin hun hsession
    obtain ⟨_, e, m, ref, trust', keys, haccept, -, rfl, rfl⟩ :=
      (SessionManager.handleResponse_some_iff hP (hok.wellFormed a)).mp hsession
    obtain ⟨peerStatic, startedAt, rfl⟩ := haccept.pending_eq
    obtain ⟨p, hobj, hsigning, hstatic⟩ := TrustStore.observe_ok haccept.observed
    obtain rfl := Option.some.inj (hobj.symm.trans hpeer)
    -- the signature that the initiator has verified is one that `b` has made
    have hm := haccept.valid
    have hread := hm.read hP (w.manager a).identity.staticPrivate
    obtain ⟨item, hitem, hmessage⟩ := hun _ _ _ _ _ _ haccept.get_pending hread hm.claim_eq
      hm.verified b (by rw [hok.identity_eq, ← hkey, hsigning])
    obtain ⟨e', rfl, hre, hrs⟩ := hm.static_of_signed hP hH (hok.signed b item hitem) hmessage
    exact ⟨_, _, _, _, _, haccept.get_pending, hread, ⟨_, e, e', hitem, rfl,
      List.append_cancel_left hmessage, rfl, rfl, congrArg some hre, rfl⟩, hstatic.trans hrs⟩
  · -- in the same way, with the signature of the third message
    intro hun hsession
    obtain ⟨_, re, e, r, m, ref, trust', keys, haccept, rfl, rfl⟩ :=
      (SessionManager.handleFin_some_iff hP (hok.wellFormed a)).mp hsession
    obtain ⟨answeredAt, rfl⟩ := haccept.pending_eq
    obtain ⟨p, hobj, hsigning, hstatic⟩ := TrustStore.observe_ok haccept.observed
    obtain rfl := Option.some.inj (hobj.symm.trans hpeer)
    have hm := haccept.valid
    have hread := hm.read hP
    obtain ⟨item, hitem, hmessage⟩ := hun _ _ _ _ _ _ haccept.get_pending hread hm.claim_eq
      hm.verified b (by rw [hok.identity_eq, ← hkey, hsigning])
    obtain ⟨e', rs, encS, encPayload, encS₃, rfl, hre, hrs⟩ :=
      hm.static_of_signed hP hH (hok.signed b item hitem) hmessage
    exact ⟨_, _, _, _, _, haccept.get_pending, hread, ⟨_, e, e', hitem, rfl,
      List.append_cancel_left hmessage, rfl, rfl, congrArg some hre, rfl⟩, hstatic.trans hrs⟩

/-! ## Alice and Bob -/

omit [DecidableEq ι] in
/-- A payload that can be read is read in one way. -/
lemma genuine_of_read {w : World ι β X E} {a : ι} {payload : Bytes β} {expectRatchet : Bool}
    {read : Method (Exc β) (HandshakeState β X) (Bytes β × Bytes β × Bytes β)}
    {pending : PendingHandshake β X} {rs h identityPayload : Bytes β} {st : HandshakeState β X}
    {claim : IdentityPayload β}
    (hget : (w.manager a).pending.get? (payload.take HS_ID_LEN) = some pending)
    (hread : read pending.handshake = (.ok (rs, h, identityPayload), st))
    (hclaim : decodeIdentityPayload identityPayload expectRatchet = .ok claim)
    (hgenuine : w.Genuine P claim h) :
    ∀ pending rs h identityPayload st claim,
      (w.manager a).pending.get? (payload.take HS_ID_LEN) = some pending →
      read pending.handshake = (.ok (rs, h, identityPayload), st) →
      decodeIdentityPayload identityPayload expectRatchet = .ok claim → w.Genuine P claim h := by
  intro pending' rs' h' identityPayload' st' claim' hget' hread' hclaim'
  obtain rfl := Option.some.inj (hget.symm.trans hget')
  obtain ⟨hok, rfl⟩ := Prod.mk.inj (hread.symm.trans hread')
  obtain ⟨rfl, hpair⟩ := Prod.mk.inj (Except.ok.inj hok)
  obtain ⟨rfl, rfl⟩ := Prod.mk.inj hpair
  obtain rfl := Except.ok.inj (hclaim.symm.trans hclaim')
  exact hgenuine

omit [DecidableEq ι] in
/-- A RESP that can be read is unforged if its claim is genuine. -/
lemma Unforged.response {w : World ι β X E} {a : ι} {payload : Bytes β} {fresh : X}
    {now establishedAt : ℚ} {pending : PendingHandshake β X} {rs h identityPayload : Bytes β}
    {st : HandshakeState β X} {claim : IdentityPayload β}
    (hget : (w.manager a).pending.get? (payload.take HS_ID_LEN) = some pending)
    (hread : readMessage2 P (payload.drop HS_ID_LEN) pending.handshake =
      (.ok (rs, h, identityPayload), st))
    (hclaim : decodeIdentityPayload identityPayload true = .ok claim)
    (hgenuine : w.Genuine P claim h) :
    w.Unforged P a (.response payload fresh now establishedAt) :=
  genuine_of_read hget hread hclaim hgenuine

omit [DecidableEq ι] in
lemma Unforged.fin {w : World ι β X E} {a : ι} {payload : Bytes β} {fresh : X}
    {now establishedAt : ℚ} {pending : PendingHandshake β X} {rs h identityPayload : Bytes β}
    {st : HandshakeState β X} {claim : IdentityPayload β}
    (hget : (w.manager a).pending.get? (payload.take HS_ID_LEN) = some pending)
    (hread : readMessage3 P (payload.drop HS_ID_LEN) pending.handshake =
      (.ok (rs, h, identityPayload), st))
    (hclaim : decodeIdentityPayload identityPayload false = .ok claim)
    (hgenuine : w.Genuine P claim h) :
    w.Unforged P a (.fin payload fresh now establishedAt) :=
  genuine_of_read hget hread hclaim hgenuine

end World

namespace SessionManager.Meeting

/-- Alice is `false`, Bob is `true`. -/
def identities (b : Bool) : Identity ℕ ℕ := if b then bob else alice

/-- Alice has asked for Bob. -/
def asked : World Bool SymByte ℕ ℕ :=
  (World.initial identities fun _ => .empty none).step symbolic
    (.call false (.start (bob.staticPublic symbolic) hsId 12 0 0 0))

/-- Bob has answered. -/
def answered : World Bool SymByte ℕ ℕ :=
  asked.step symbolic (.call true (.init (hsId ++ SymByte.publicKey 12) 22 23 0 0))

lemma reachable_answered : answered.Reachable symbolic identities :=
  ⟨fun _ => .empty none, ((Reaches.refl _).tail trivial).tail trivial⟩

lemma asked_bob : asked.manager true = { identity := bob, trust := .empty none } := by
  rw [asked, World.manager_step_call, if_neg (by decide)]
  rfl

/-- Alice, waiting for Bob's RESP. -/
def aliceWaiting : SessionManager SymByte ℕ ℕ :=
  { identity := alice, trust := .empty none
    pending := OrderedDict.empty.set hsId
      (startPending symbolic alice (bob.staticPublic symbolic) hsId 12 0) }

lemma answered_alice : answered.manager false = aliceWaiting := by
  rw [answered, World.manager_step_call, if_neg (by decide), asked, World.manager_step_call,
    if_pos rfl, call, startHandshake_snd]
  rfl

/-- Bob, waiting for Alice's FIN. -/
def bobWaiting : SessionManager SymByte ℕ ℕ :=
  { identity := bob, trust := .empty none
    pending := OrderedDict.empty.set hsId
      (respPending symbolic bob hsId (SymByte.publicKey 12) 22 23 0) }

lemma answered_bob : answered.manager true = bobWaiting := by
  rw [answered, World.manager_step_call, if_pos rfl, asked_bob, call,
    handleInit_eq symbolic_correct, if_pos (by decide +kernel)]
  rfl

/-- What Alice reads in Bob's RESP. -/
def heard : ReceivedResponse SymByte := honestResponse symbolic bob 22 23 12

lemma signing_bob :
    ({ identity := bob, trust := .empty none } : SessionManager SymByte ℕ ℕ).signing symbolic
      (.init (hsId ++ SymByte.publicKey 12) 22 23 0 0) =
        some (writing2 symbolic PROLOGUE bob.staticPrivate 22 (SymByte.publicKey 12)
          (encStatic2 symbolic PROLOGUE bob.staticPrivate 22 (SymByte.publicKey 12))) := by
  decide +kernel

lemma signing_alice :
    aliceWaiting.signing symbolic (.response (responseOf bob) 13 0 0) =
      some (writing3 symbolic PROLOGUE alice.staticPrivate 12 heard.re heard.rs heard.encS
        heard.encPayload (encStatic3 symbolic PROLOGUE alice.staticPrivate 12 heard.re heard.rs
          heard.encS heard.encPayload)) := by
  decide +kernel

/-- Bob has signed the hash that his RESP claims. -/
lemma genuine_bob : answered.Genuine symbolic heard.claim
    (builderHash2 symbolic PROLOGUE bob.staticPrivate 22 (SymByte.publicKey 12)) := by
  intro _ b hb
  rw [(reachable_answered.ok symbolic_correct).identity_eq] at hb
  cases b with
  | false => exact absurd (SymByte.signingKey_inj hb) (by decide)
  | true =>
    have hsigning := signing_bob
    rw [← asked_bob] at hsigning
    exact ⟨_, World.mem_journal_step_call hsigning, message_writing2 ..⟩

lemma unforged_bob : answered.Unforged symbolic false (.response (responseOf bob) 13 0 0) := by
  have hm := honestResponse_valid symbolic_correct bob 22 23 12
  have hread := hm.read symbolic_correct alice.staticPrivate
  have hdrop : (responseOf bob).drop HS_ID_LEN = respMessage symbolic bob 22 23
      (SymByte.publicKey 12) := List.drop_left' rfl
  exact World.Unforged.response (by rw [answered_alice]; exact OrderedDict.get?_set_self _ _ _)
    (by rw [hdrop]; exact hread) hm.claim_eq genuine_bob

/-- Alice has Bob's RESP. -/
def introduced : World Bool SymByte ℕ ℕ :=
  answered.step symbolic (.call false (.response (responseOf bob) 13 0 0))

lemma reachable_introduced : introduced.Reachable symbolic identities := by
  obtain ⟨trust, h⟩ := reachable_answered
  exact ⟨trust, h.tail unforged_bob⟩

lemma introduced_bob : introduced.manager true = bobWaiting := by
  rw [introduced, World.manager_step_call, if_neg (by decide), answered_bob]

/-- Alice's FIN. -/
def finOf : Bytes SymByte := hsId ++ heard.fin symbolic alice 12

/-- Alice has signed the hash that her FIN claims. -/
lemma genuine_alice : introduced.Genuine symbolic (honestFin symbolic alice 12 heard).claim
    (builderHash3 symbolic PROLOGUE alice.staticPrivate 12 heard.re heard.rs heard.encS
      heard.encPayload) := by
  intro _ b hb
  rw [(reachable_introduced.ok symbolic_correct).identity_eq] at hb
  cases b with
  | true => exact absurd (SymByte.signingKey_inj hb) (by decide)
  | false =>
    have hsigning := signing_alice
    rw [← answered_alice] at hsigning
    exact ⟨_, World.mem_journal_step_call hsigning, message_writing3 ..⟩

lemma unforged_alice : introduced.Unforged symbolic true (.fin finOf 24 0 0) := by
  have hm := honestFin_valid symbolic_correct alice bob 22 23 12
  have hread := hm.read symbolic_correct
  have hdrop : finOf.drop HS_ID_LEN = heard.fin symbolic alice 12 := List.drop_left' rfl
  exact World.Unforged.fin (by rw [introduced_bob]; exact OrderedDict.get?_set_self _ _ _)
    (by rw [hdrop]; exact hread) hm.claim_eq genuine_alice

end SessionManager.Meeting

open SessionManager SessionManager.Meeting in
/-- Alice has heard from Bob, and Bob from Alice. -/
theorem World.session_authentic_meeting :
    (∃ pending rs h identityPayload st,
      (answered.manager false).pending.get? ((responseOf bob).take HS_ID_LEN) = some pending ∧
      readMessage2 symbolic ((responseOf bob).drop HS_ID_LEN) pending.handshake =
        (.ok (rs, h, identityPayload), st) ∧ answered.PartnerSigned symbolic true h st) ∧
    (∃ pending rs h identityPayload st,
      (introduced.manager true).pending.get? (finOf.take HS_ID_LEN) = some pending ∧
      readMessage3 symbolic (finOf.drop HS_ID_LEN) pending.handshake =
        (.ok (rs, h, identityPayload), st) ∧ introduced.PartnerSigned symbolic false h st) := by
  constructor
  · have hc : aliceWaiting.trust.Compatible (bob.signingPublic symbolic)
      (bob.staticPublic symbolic) := fun _ h => nomatch h
    obtain ⟨ref, trust', keys, session, hobserve, -, hs, hresponse⟩ := handleResponse_honest
      symbolic_correct (show hsId.length = HS_ID_LEN from rfl) (OrderedDict.get?_set_self _ _ _) hc
      22 23 13 0 0
    have href : session.peer = ref := by rw [hs]; rfl
    obtain ⟨-, peer, hpeer, hsigning, -⟩ := completed_session href hobserve
    obtain ⟨pending, rs, h, identityPayload, st, hget, hread, hsigned, -⟩ :=
      (World.session_authentic symbolic_correct symbolic_hashIdeal reachable_answered false true
        (responseOf bob) 13 0 0 session _ peer hpeer hsigning).1 _ unforged_bob
          (by rw [answered_alice]; exact hresponse)
    exact ⟨pending, rs, h, identityPayload, st, hget, hread, hsigned⟩
  · have hc : bobWaiting.trust.Compatible (alice.signingPublic symbolic)
      (alice.staticPublic symbolic) := fun _ h => nomatch h
    obtain ⟨ref, trust', keys, session, hobserve, -, hs, hfin⟩ := handleFin_honest symbolic_correct
      (show hsId.length = HS_ID_LEN from rfl) (OrderedDict.get?_set_self _ _ _) hc 24 0 0
    have href : session.peer = ref := by rw [hs]; rfl
    obtain ⟨-, peer, hpeer, hsigning, -⟩ := completed_session href hobserve
    obtain ⟨pending, rs, h, identityPayload, st, hget, hread, hsigned, -⟩ :=
      (World.session_authentic symbolic_correct symbolic_hashIdeal reachable_introduced true false
        finOf 24 0 0 session _ peer hpeer hsigning).2 unforged_alice
          (by rw [introduced_bob]; exact hfin)
    exact ⟨pending, rs, h, identityPayload, st, hget, hread, hsigned⟩

end Chatbit
