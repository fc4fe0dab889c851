import Chatbit.Crypto.RatchetRunTheorems
import Chatbit.Traffic.Length

/-!
# Sends that fail

`send_text` encrypts before it fragments and transmits, and nothing undoes the encryption when a
later step raises: a failed send costs a message of the sending chain (`sessionFor_sendText`). The
peer makes up for it by skipping, as long as the gap is within its limits.
-/

namespace Chatbit

open Lib

variable {β X E τ : Type} [Alphabet β] [DecidableEq β] {P : Primitives β X E}

/-- What decrypting a message of the session depends on. -/
lemma Session.decrypt_encoded {session : Session β X} {header : MessageHeader β}
    {encoded ct plaintext : Bytes β} {fresh : X} (hencode : header.encode = .ok encoded)
    (hpub : header.ratchetPub.length = 32) :
    (Session.decrypt P (encoded ++ ct) fresh session).1 = .ok plaintext ↔
      (DoubleRatchet.decrypt P header ct [] fresh session.ratchet).1 = .ok plaintext := by
  have hlen : encoded.length = RATCHET_HEADER_LEN := by
    rw [MessageHeader.length_of_encode hencode, hpub]
    rfl
  have hheader : MessageHeader.decode ((encoded ++ ct).take RATCHET_HEADER_LEN) = .ok header := by
    rw [List.take_left' hlen, MessageHeader.decode_encode hencode hpub]
  rw [Session.decrypt_eq (by rw [List.length_append]; omega) hheader, List.drop_left' hlen]
  rcases DoubleRatchet.decrypt P header ct [] fresh session.ratchet with ⟨err | pt, st⟩
  · simp
  · simp

namespace Node

variable {T : Transport β τ} {node node' : Node T X E} {peer : Bytes β} {text : String}
  {env : SendEnv β} {session : Session β X}

/-! ## One send -/

/-- The session with the peer is left as its encryption left it. -/
lemma sessionFor_sendText (hs : node.sessions.sessionFor peer = some session) :
    (sendText P peer text env node).2.sessions.sessionFor peer =
      some (Session.encrypt P (textPayload env text) session).2 := by
  rw [sessions_sendText hs]
  exact OrderedDict.get?_set_self _ _ _

/-- A send leaves the session only where the session cannot send at all. -/
lemma sessionFor_sendText_iff (hs : node.sessions.sessionFor peer = some session) :
    (sendText P peer text env node).2.sessions.sessionFor peer = some session ↔
      session.ratchet.cks = none := by
  rw [sessionFor_sendText hs, Option.some.injEq]
  rcases hcks : session.ratchet.cks with _ | cks
  · obtain ⟨err, henc⟩ := Session.encrypt_of_none (P := P) hcks (textPayload env text)
    simp [henc]
  · simp only [reduceCtorEq, iff_false]
    intro hsame
    have hratchet := Session.ratchet_encrypt (P := P) hcks (textPayload env text)
    have hns := congrArg DoubleRatchet.ns hratchet
    rw [hsame] at hns
    exact absurd hns (Nat.ne_of_lt (Nat.lt_succ_self _))

/-! ## Sends that fail one after another -/

variable (P peer) in
/-- Sends to the peer that raise, one after another. What else happens to the node between them
does not touch the session with the peer. -/
inductive FailedSends : ℕ → Node T X E → Node T X E → Prop
  | nil (node : Node T X E) : FailedSends 0 node node
  | fail {failures : ℕ} {node node' : Node T X E} {text : String} {env : SendEnv β} {err : Exc β}
      (h : FailedSends failures node node')
      (herr : (sendText P peer text env node').1 = .error err) :
      FailedSends (failures + 1) node (sendText P peer text env node').2
  | other {failures : ℕ} {node node' node'' : Node T X E} (h : FailedSends failures node node')
      (hsame : node''.sessions.sessionFor peer = node'.sessions.sessionFor peer) :
      FailedSends failures node node''

namespace FailedSends

variable {failures : ℕ}

/-- A session that cannot send is not touched. -/
lemma of_none (h : FailedSends P peer failures node node')
    (hs : node.sessions.sessionFor peer = some session) (hcks : session.ratchet.cks = none) :
    node'.sessions.sessionFor peer = some session := by
  induction h with
  | nil => exact hs
  | fail _ _ ih => exact (sessionFor_sendText_iff (ih hs)).mpr hcks
  | other _ hsame ih => rw [hsame, ih hs]

/-- Each failed send is one more message of the run that is not delivered. -/
lemma run {k : Bytes β} {a r : X} {s : RatchetRun β X} {side : Side}
    (h : FailedSends P peer failures node node') (hs : node.sessions.sessionFor peer = some session)
    (hratchet : session.ratchet = s.ratchet side) (hcks : session.ratchet.cks ≠ none)
    (hreach : s.Reachable P k a r) :
    ∃ session' s', node'.sessions.sessionFor peer = some session' ∧
      session'.ratchet = s'.ratchet side ∧ s'.ratchet side.peer = s.ratchet side.peer ∧
      RatchetRun.Reachable P k a r s' ∧ session'.ratchet.cks ≠ none ∧
      DoubleRatchet.nextHeader P session'.ratchet =
        ⟨session.ratchet.ratchetPublic P, session.ratchet.pn, session.ratchet.ns + failures⟩ := by
  induction h with
  | nil => exact ⟨session, s, hs, hratchet, rfl, hreach, hcks, rfl⟩
  | other _ hsame ih =>
    obtain ⟨session', s', hs', hrest⟩ := ih hs
    exact ⟨session', s', hsame.trans hs', hrest⟩
  | fail _ _ ih =>
    rename_i text env _ _ _
    obtain ⟨session', s', hs', hratchet', hpeer, hreach', hcks', hheader⟩ := ih hs
    obtain ⟨cks, hcks'⟩ := Option.ne_none_iff_exists'.mp hcks'
    have hstep := Session.ratchet_encrypt (P := P) hcks' (textPayload env text)
    have hsnd := DoubleRatchet.encrypt_snd_of_some (P := P) hcks' (textPayload env text) []
    refine ⟨(Session.encrypt P (textPayload env text) session').2,
      s'.afterEncrypt P side (textPayload env text) [], sessionFor_sendText hs', ?_, ?_, ?_, ?_, ?_⟩
    · rw [hstep, RatchetRun.ratchet_afterEncrypt, Function.update_self, ← hratchet', hsnd]
    · rw [RatchetRun.ratchet_afterEncrypt, Function.update_of_ne (Side.peer_ne side), hpeer]
    · obtain ⟨initiator, responder, hne, hsender, hreceiver, hreaches⟩ := hreach'
      exact ⟨initiator, responder, hne, hsender, hreceiver,
        hreaches.tail (e := RatchetEvent.encrypt side (textPayload env text) []) trivial⟩
    · rw [hstep]
      exact Option.some_ne_none _
    · rw [hstep]
      obtain ⟨hpub, hpn, hns⟩ := MessageHeader.mk.inj hheader
      exact congr (congrArg₂ MessageHeader.mk hpub hpn) (congrArg (· + 1) hns)

end FailedSends

/-- What a failed send costs. It leaves the session as it was only where the session cannot send at
all; and after any number of failed sends, the next send whose frames all arrive is decrypted by the
peer exactly when the skip over the lost messages is within the peer's limits. -/
theorem failed_sends_iff (hP : P.Correct) (hH : P.HashIdeal) (hD : P.DhIdeal) (peer : Bytes β) :
    (∀ (node : Node T X E) (session : Session β X) (text : String) (env : SendEnv β) (err : Exc β),
      node.sessions.sessionFor peer = some session →
      (sendText P peer text env node).1 = .error err →
      ((sendText P peer text env node).2.sessions.sessionFor peer = some session ↔
        session.ratchet.cks = none)) ∧
    ∀ (k : Bytes β) (a r : X) (s : RatchetRun β X) (side : Side) (session peerSession : Session β X)
      (failures : ℕ) (node node' node'' : Node T X E) (text : String) (env : SendEnv β)
      (frames : List (Bytes β)) (fresh : X),
      s.Reachable P k a r → session.ratchet = s.ratchet side →
      peerSession.ratchet = s.ratchet side.peer →
      node.sessions.sessionFor peer = some session → FailedSends P peer failures node node' →
      sendText P peer text env node' = (.ok true, node'') →
      node''.handed = node'.handed ++ frames →
      ((∃ blob, received frames = .ok blob ∧
          (Session.decrypt P blob fresh peerSession).1 = .ok (textPayload env text)) ↔
        peerSession.ratchet.SkipsWithin
          ⟨session.ratchet.ratchetPublic P, session.ratchet.pn, session.ratchet.ns + failures⟩) := by
  refine ⟨fun node session text env err hs _ => sessionFor_sendText_iff hs, ?_⟩
  intro k a r s side session peerSession failures node node' node'' text env frames fresh hreach
    hratchet hpeer hs hfailed hsend hhanded
  obtain ⟨session', session'', frames', hs', hemits, hhanded'⟩ := sendText_true hsend
  obtain rfl := List.append_cancel_left (hhanded.symm.trans hhanded')
  obtain ⟨blob, henc, hreceived⟩ := hemits.received
  -- it has a sending chain, or the last send would have failed as well
  have hcks : session.ratchet.cks ≠ none := by
    intro hnone
    obtain rfl := Option.some.inj ((hfailed.of_none hs hnone).symm.trans hs')
    obtain ⟨err, herr⟩ := Session.encrypt_of_none (P := P) hnone (textPayload env text)
    rw [herr] at henc
    cases henc
  -- each failed send has used a message number up
  obtain ⟨session₁, s', hs₁, hratchet', hpeer', hreach', -, hheader⟩ :=
    hfailed.run hs hratchet hcks hreach
  obtain rfl := Option.some.inj (hs₁.symm.trans hs')
  obtain ⟨header, encoded, ct, st, hencrypt, hencode, rfl, -⟩ := Session.encrypt_ok_iff.mp henc
  obtain ⟨-, -, -, rfl, -⟩ := (DoubleRatchet.encrypt_ok_iff hP).mp hencrypt
  have hpub : (DoubleRatchet.nextHeader P session₁.ratchet).ratchetPub.length = 32 :=
    hP.length_x25519Public _
  rw [← hheader, hreceived]
  constructor
  · rintro ⟨blob, hblob, hdecrypt⟩
    obtain rfl := Except.ok.inj hblob
    rw [Session.decrypt_encoded hencode hpub] at hdecrypt
    obtain ⟨mk, hd⟩ := DoubleRatchet.decrypt_ok_iff.mp (Prod.ext hdecrypt rfl)
    exact hd.skipsWithin
  · intro hskip
    refine ⟨_, rfl, (Session.decrypt_encoded hencode hpub).mpr ?_⟩
    obtain ⟨σ, hrun⟩ := hreach'.runOk hP hH hD
    rw [hratchet'] at hencrypt hskip
    rw [hpeer, ← hpeer'] at hskip ⊢
    rw [hratchet']
    exact hrun.opens_next hP hencrypt hskip fresh

/-! ## Alice's link is out of budget -/

open SessionManager.Meeting

/-- A link that refuses every frame while its state says so. -/
def meteredLink : Transport SymByte Bool where
  mtu := 200
  send _ := do
    let permitted ← Method.self
    if permitted then pure () else Method.raise (.dutyCycleExceeded 100)

def meteredNode : Node meteredLink ℕ ℕ where
  transport := false
  sessions := aliceSessions
  capacity := 177
  capacity_eq := rfl

/-- Alice's node after a send that was refused, when the link is free again. -/
def laterNode : Node meteredLink ℕ ℕ :=
  { (sendText symbolic (bob.signingPublic symbolic) "yes" aliceEnv meteredNode).2 with
    transport := true }

/-- The frame of the next send. -/
def laterFrame : Bytes SymByte :=
  ((sendText symbolic (bob.signingPublic symbolic) "no" aliceEnv laterNode).2.handed.drop
    laterNode.handed.length).flatten

lemma refused :
    (sendText symbolic (bob.signingPublic symbolic) "yes" aliceEnv meteredNode).1 =
      .error (.dutyCycleExceeded 100) := by decide +kernel

/-- The refused send costs Alice a message, and Bob skips it. -/
theorem failed_sends_iff_refused :
    (sendText symbolic (bob.signingPublic symbolic) "yes" aliceEnv meteredNode).2.sessions.sessionFor
        (bob.signingPublic symbolic) ≠ some aliceSession ∧
      ∃ blob, received [laterFrame] = .ok blob ∧
        (Session.decrypt symbolic blob 2 bobSession).1 = .ok (textPayload aliceEnv "no") := by
  have hresult := failed_sends_iff (T := meteredLink) symbolic_correct symbolic_hashIdeal
    symbolic_dhIdeal (bob.signingPublic symbolic)
  have hreach : greetingStart.Reachable symbolic (zeros 32) 1 0 :=
    ⟨_, _, by decide, rfl, rfl, Reaches.refl _⟩
  constructor
  · intro hsame
    have hnone := (hresult.1 meteredNode aliceSession "yes" aliceEnv _ rfl refused).mp hsame
    cases hnone
  · refine (hresult.2 _ _ _ greetingStart .initiator aliceSession bobSession 1 meteredNode laterNode
      (sendText symbolic (bob.signingPublic symbolic) "no" aliceEnv laterNode).2 "no" aliceEnv
      [laterFrame] 2 hreach rfl rfl rfl (.other (.fail (.nil _) refused) rfl)
      (Prod.ext ?_ rfl) ?_).mpr (Or.inr ?_)
    · decide +kernel
    · decide +kernel
    · decide +kernel

/-- A send that the radio refuses moves the session on. -/
theorem refused_send_changes_session :
    (sendText symbolic (bob.signingPublic symbolic) "yes" aliceEnv meteredNode).1 =
        .error (.dutyCycleExceeded 100) ∧
      meteredNode.sessions.sessionFor (bob.signingPublic symbolic) = some aliceSession ∧
      ∃ session, (sendText symbolic (bob.signingPublic symbolic) "yes" aliceEnv
          meteredNode).2.sessions.sessionFor (bob.signingPublic symbolic) = some session ∧
        session.ratchet.ns ≠ aliceSession.ratchet.ns ∧
        session.messagesSent ≠ aliceSession.messagesSent := by
  refine ⟨refused, rfl, _, sessionFor_sendText rfl, ?_, ?_⟩
  · decide +kernel
  · decide +kernel

end Node

end Chatbit
