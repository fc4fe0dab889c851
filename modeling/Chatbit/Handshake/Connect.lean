import Chatbit.Crypto.Symbolic
import Chatbit.SessionRunTheorems

/-!
# Who answers a handshake

`start_handshake` keeps the static key of the peer that it was asked for in `peer_static`, and
`handle_response` does not look at it: the responder of the session is whoever seals a static key
into the RESP first.
-/

namespace Chatbit

open Lib HandshakeState

variable {β X E : Type} [Alphabet β] [DecidableEq β] {P : Primitives β X E}

/-- The call draws this handshake id. -/
def Call.Draws (hsId : Bytes β) : Call β X → Prop
  | .start _ hsId' _ _ _ _ => hsId' = hsId
  | _ => False

namespace SessionManager

/-- The only initiator's entry that can be pending under `hsId` and is not past message 2. -/
def OnlyStarted (hsId : Bytes β) (started : PendingHandshake β X)
    (manager : SessionManager β X E) : Prop :=
  ∀ p, manager.pending.get? hsId = some p → p.initiator = true → p.Past ∨ p = started

section OnlyStarted

variable (hP : P.Correct) {manager : SessionManager β X E} {hsId : Bytes β}
  {started : PendingHandshake β X}
include hP

lemma OnlyStarted.call (hm : WellFormed P manager) (h : OnlyStarted hsId started manager)
    {c : Call β X} (hc : ¬ c.Draws hsId) : OnlyStarted hsId started (manager.call P c) := by
  intro p hp hi
  rcases get?_call hP hm hp with ⟨hp, -⟩ | hpast | hadd
  · exact h p hp hi
  · exact Or.inl hpast
  · cases hadd with
    | start peerStatic e now startedAt wallNow => exact absurd rfl hc
    | init hid e r now startedAt ha => cases hi

lemma OnlyStarted.afterCalls (hm : Reachable P manager) (h : OnlyStarted hsId started manager)
    {calls : List (Call β X)} (hcalls : ∀ c ∈ calls, ¬ c.Draws hsId) :
    OnlyStarted hsId started (manager.afterCalls P calls) ∧
      Reachable P (manager.afterCalls P calls) := by
  induction calls using List.reverseRecOn with
  | nil => exact ⟨h, hm⟩
  | append_singleton calls c ih =>
    obtain ⟨hstarted, hreach⟩ := ih fun c hc => hcalls c (List.mem_append_left _ hc)
    rw [afterCalls_append]
    exact ⟨hstarted.call hP (hreach.wellFormed hP) (hcalls c (by simp)), hreach.call c⟩

end OnlyStarted

/-- The static key that a RESP carries, sealed to the initiator with ephemeral key `e`, is
`staticPublic`. -/
def SealsStatic (P : Primitives β X E) (e : X) (payload staticPublic : Bytes β) : Prop :=
  let body := payload.drop HS_ID_LEN
  let re := body.take DHLEN
  (body.drop DHLEN).take (DHLEN + TAGLEN) =
    SymmetricState.sealAfter P [PROLOGUE, P.x25519PublicBytes e, re] [P.exchange e re] 0 staticPublic

instance (e : X) (payload staticPublic : Bytes β) :
    Decidable (SealsStatic P e payload staticPublic) :=
  inferInstanceAs (Decidable (_ = _))

omit [DecidableEq β] in
/-- A RESP that opens carries the static key that it opens to, and no other. -/
lemma sealsStatic_iff (hP : P.Correct) {e : X} {payload staticPublic : Bytes β}
    {m : ReceivedResponse β} (h : m.Valid P e (payload.drop HS_ID_LEN)) :
    SealsStatic P e payload staticPublic ↔ m.rs = staticPublic := by
  have hre : (payload.drop HS_ID_LEN).take DHLEN = m.re := by
    rw [h.body_eq, List.append_assoc]
    exact List.take_left' h.length_re
  have hS : ((payload.drop HS_ID_LEN).drop DHLEN).take (DHLEN + TAGLEN) = m.encS := by
    rw [h.body_eq, List.append_assoc, List.drop_left' h.length_re]
    exact List.take_left' h.length_encS
  simp only [SealsStatic]
  rw [hre, hS, h.opens.static]
  exact ⟨fun heq => hP.encrypt_inj heq, fun heq => by rw [heq]⟩

/-- The peer of the session that a handshake with `peerStatic` gives has that static key exactly
when the RESP that completes it carries that key. The calls in between are any that do not draw the
same id. -/
theorem started_peer_iff (hP : P.Correct) {manager manager' : SessionManager β X E}
    (hm : Reachable P manager) {peerStatic hsId : Bytes β} {e : X} {now startedAt wallNow : ℚ}
    {calls : List (Call β X)} (hcalls : ∀ c ∈ calls, ¬ c.Draws hsId) {payload : Bytes β} {fresh : X}
    {pinnedAt establishedAt : ℚ} {fin : Bytes β} {session : Session β X}
    (hid : payload.take HS_ID_LEN = hsId)
    (h : handleResponse P payload fresh pinnedAt establishedAt
      ((manager.call P (.start peerStatic hsId e now startedAt wallNow)).afterCalls P calls) =
        (.ok (some (fin, session)), manager')) :
    (∃ peer, manager'.peerOf session = some peer ∧ peer.staticPublic = peerStatic) ↔
      SealsStatic P e payload peerStatic := by
  have hstarted : OnlyStarted hsId (startPending P manager.identity peerStatic hsId e startedAt)
      (manager.call P (.start peerStatic hsId e now startedAt wallNow)) := by
    intro p hp _
    rw [SessionManager.call, startHandshake_snd, OrderedDict.get?_set_self] at hp
    exact Or.inr (Option.some.inj hp).symm
  obtain ⟨honly, hreach⟩ := hstarted.afterCalls hP (hm.call _) hcalls
  obtain ⟨pending, e', m, ref, trust', keys, haccept, -, rfl, rfl⟩ :=
    (handleResponse_some_iff hP (hreach.wellFormed hP)).mp h
  obtain ⟨peerStatic', startedAt', rfl⟩ := haccept.pending_eq
  -- the entry is the one that was started, so its ephemeral key is `e`
  obtain rfl : e' = e := by
    rcases honly _ (hid ▸ haccept.get_pending) rfl with hpast | heq
    · exact absurd rfl hpast
    · simpa [startPending, sent1] using congrArg (fun p => p.handshake.e) heq
  obtain ⟨p, hobj, -, hstatic⟩ := TrustStore.observe_ok haccept.observed
  rw [sealsStatic_iff hP haccept.valid]
  constructor
  · rintro ⟨peer, hpeer, rfl⟩
    obtain rfl := Option.some.inj (hobj.symm.trans hpeer)
    exact hstatic.symm
  · rintro rfl
    exact ⟨p, hobj, hstatic⟩

/-! ## A stranger answers -/

namespace Meeting

def alice : Identity ℕ ℕ := { signingPrivate := 10, staticPrivate := 11, nickname := "alice" }
def bob : Identity ℕ ℕ := { signingPrivate := 30, staticPrivate := 31, nickname := "bob" }
def mallory : Identity ℕ ℕ := { signingPrivate := 20, staticPrivate := 21, nickname := "mallory" }

def hsId : Bytes SymByte := [1, 2, 3, 4].map ofOctet

/-- Alice has asked for Bob. -/
def started : SessionManager SymByte ℕ ℕ :=
  ({ identity := alice, trust := .empty none } : SessionManager SymByte ℕ ℕ).call symbolic
    (.start (bob.staticPublic symbolic) hsId 12 0 0 0)

lemma reachable_started : Reachable symbolic started :=
  Reachable.call ⟨alice, .empty none, .refl _⟩ _

/-- What the others answer to the INIT. -/
def responseOf (identity : Identity ℕ ℕ) : Bytes SymByte :=
  hsId ++ respMessage symbolic identity 22 23 (SymByte.publicKey 12)

/-- The static key of the peer of the session that a RESP gives. -/
def peerStaticAfter (outcome : Except (Exc SymByte) (Option (Bytes SymByte × Session SymByte ℕ)) ×
    SessionManager SymByte ℕ ℕ) : Option (Bytes SymByte) :=
  match outcome with
  | (.ok (some (_, session)), manager) => (manager.peerOf session).map PeerIdentity.staticPublic
  | _ => none

lemma of_peerStaticAfter {outcome : Except (Exc SymByte) (Option (Bytes SymByte ×
    Session SymByte ℕ)) × SessionManager SymByte ℕ ℕ} {staticPublic : Bytes SymByte}
    (h : peerStaticAfter outcome = some staticPublic) :
    ∃ fin session manager' peer, outcome = (.ok (some (fin, session)), manager') ∧
      manager'.peerOf session = some peer ∧ peer.staticPublic = staticPublic := by
  rcases outcome with ⟨_ | _ | ⟨fin, session⟩, manager'⟩
  · cases h
  · cases h
  · obtain ⟨peer, hpeer, hstatic⟩ := Option.map_eq_some_iff.mp h
    exact ⟨fin, session, manager', peer, rfl, hpeer, hstatic⟩

lemma peerStaticAfter_mallory :
    peerStaticAfter (handleResponse symbolic (responseOf mallory) 13 0 0 started) =
      some (mallory.staticPublic symbolic) := by
  decide +kernel

end Meeting

open Meeting in
/-- Alice asks for Bob, Mallory answers, and Alice's session is with Mallory. -/
theorem stranger_is_accepted :
    ∃ fin session manager' peer,
      handleResponse symbolic (responseOf mallory) 13 0 0 started =
        (.ok (some (fin, session)), manager') ∧
      manager'.peerOf session = some peer ∧ peer.staticPublic = mallory.staticPublic symbolic ∧
      peer.staticPublic ≠ bob.staticPublic symbolic := by
  obtain ⟨fin, session, manager', peer, hok, hpeer, hstatic⟩ :=
    of_peerStaticAfter peerStaticAfter_mallory
  exact ⟨fin, session, manager', peer, hok, hpeer, hstatic, hstatic ▸ by decide⟩

open Meeting in
/-- Mallory's RESP does not carry Bob's key, and the session is not with Bob. -/
theorem started_peer_iff_stranger :
    ∃ fin session manager',
      handleResponse symbolic (responseOf mallory) 13 0 0 started =
        (.ok (some (fin, session)), manager') ∧
      ((∃ peer, manager'.peerOf session = some peer ∧
          peer.staticPublic = bob.staticPublic symbolic) ↔
        SealsStatic symbolic 12 (responseOf mallory) (bob.staticPublic symbolic)) := by
  obtain ⟨fin, session, manager', -, hok, -⟩ := of_peerStaticAfter peerStaticAfter_mallory
  have hcalls : ∀ c ∈ ([] : List (Call SymByte ℕ)), ¬ c.Draws hsId := fun _ hc => nomatch hc
  exact ⟨fin, session, manager', hok, started_peer_iff symbolic_correct
    ⟨alice, .empty none, .refl _⟩ hcalls rfl hok⟩

end SessionManager

end Chatbit
