import Chatbit.ConversationTheorems
import Chatbit.SafetyNumbers

/-!
# Whom a user has verified

A user marks a peer as verified after comparing safety numbers with somebody, whatever the network
has done before and does afterwards. The records that are marked are then those of honest nodes with
their true static keys, and so are those behind the label of a message.
-/

namespace Chatbit

open Lib Method

variable {ι β X E τ : Type} [Alphabet β] [DecidableEq β] {P : Primitives β X E}

/-! ## What makes a record verified -/

/-- The records that are verified were verified before, with the same keys, or are marked. -/
def TrustStore.MarksAs (marked : Bytes β → Bytes β → Prop) (store store' : TrustStore β) : Prop :=
  ∀ ref p', store'.object ref = some p' → p'.verified = true →
    (∃ p, store.object ref = some p ∧ p.verified = true ∧ p.signingPublic = p'.signingPublic ∧
      p.staticPublic = p'.staticPublic) ∨ marked p'.signingPublic p'.staticPublic

namespace TrustStore

variable {store : TrustStore β} {marked : Bytes β → Bytes β → Prop}

omit [Alphabet β] [DecidableEq β] in
lemma MarksAs.refl (store : TrustStore β) : MarksAs marked store store :=
  fun _ p' h hv => Or.inl ⟨p', h, hv, rfl, rfl⟩

omit [Alphabet β] in
lemma KeepsRecords.marksAs {store' : TrustStore β} (h : KeepsRecords store store') :
    MarksAs marked store store' := by
  intro ref p' hobject hv
  obtain ⟨p, hp, hpv, hstatic⟩ := h.verified ref p' hobject hv
  obtain ⟨p'', hp'', hkey⟩ := h.object ref p hp
  obtain rfl := Option.some.inj (hobject.symm.trans hp'')
  exact Or.inl ⟨p, hp, hpv, hkey.symm, hstatic⟩

lemma PinsAs.marksAs {presents : Bytes β → Bytes β → Prop} {store' : TrustStore β}
    (h : PinsAs P presents store store') : MarksAs marked store store' := by
  rcases h with rfl | ⟨k, s, nickname, now, -, rfl⟩
  · exact .refl store'
  · exact (keepsRecords_observe P store k s nickname now).marksAs

omit [Alphabet β] in
/-- A change of one record. -/
lemma marksAs_change {k : Bytes β} {unknown : String} {f : PeerIdentity β → PeerIdentity β}
    {hf : ∀ p, (f p).signingPublic = p.signingPublic}
    (hmarked : ∀ p, store.get k = some p → (f p).verified = true →
      marked k (f p).staticPublic) :
    MarksAs marked store (change k unknown f hf store : Except (Exc β) PeerRef × _).2 := by
  have hends := change_ends store k unknown f hf
  revert hends
  generalize TrustStore.change k unknown f hf store = result
  intro hends
  cases hends with
  | raises => exact .refl store
  | @changes ref₀ p₀ hget hobj =>
    intro ref p' hobject hv
    rw [object_save, object_modify] at hobject
    split_ifs at hobject with href
    · subst href
      obtain ⟨p, hp, rfl⟩ := Option.map_eq_some_iff.mp hobject
      have hpk := get_of_object hget hp
      rw [hf, signingPublic_of_get hpk]
      exact Or.inr (hmarked p hpk hv)
    · exact Or.inl ⟨p', hobject, hv, rfl, rfl⟩

end TrustStore

namespace SessionManager

/-- Of all calls, `mark_verified` alone marks, and it marks the keys of the record. -/
lemma marksAs_call (manager : SessionManager β X E) (c : Call β X) :
    TrustStore.MarksAs (fun k s => c = .markVerified k ∧
        ∃ p, manager.trust.get k = some p ∧ p.staticPublic = s)
      manager.trust (manager.call P c).trust := by
  cases c with
  | start peerStatic hsId e now startedAt wallNow =>
    have hkeeps : (startHandshake P peerStatic hsId e now startedAt wallNow manager).2.trust =
      manager.trust := keeps_startHandshake peerStatic hsId e now startedAt wallNow manager
    exact fun ref p h hv => Or.inl ⟨p, hkeeps ▸ h, hv, rfl, rfl⟩
  | init payload e r now startedAt =>
    have hkeeps : (handleInit P payload e r now startedAt manager).2.trust = manager.trust :=
      keeps_handleInit payload e r now startedAt manager
    exact fun ref p h hv => Or.inl ⟨p, hkeeps ▸ h, hv, rfl, rfl⟩
  | response payload fresh now establishedAt =>
    exact (pinsAs_handleResponse payload fresh now establishedAt).marksAs
  | fin payload fresh now establishedAt =>
    exact (pinsAs_handleFin payload fresh now establishedAt).marksAs
  | encrypt k plaintext | decrypt k blob fresh =>
    rw [SessionManager.call, onSession]
    split
    · exact .refl _
    · exact .refl _
  | drop k => exact .refl _
  | markVerified k =>
    exact TrustStore.marksAs_change fun p hp _ => ⟨rfl, p, hp, rfl⟩
  | repin k s =>
    refine TrustStore.marksAs_change fun p hp hv => ?_
    cases hv
  | forget k =>
    intro ref p (h : (manager.trust.erase k).save.object ref = some p) hv
    rw [TrustStore.object_save] at h
    exact Or.inl ⟨p, h, hv, rfl, rfl⟩

end SessionManager

/-! ## Comparing numbers -/

section Order

variable {le : Bytes β → Bytes β → Prop} [DecidableRel le]

namespace NodeWorld

variable [DecidableEq ι] {T : ι → Transport β τ} {identity : ι → Identity X E}
  {w : NodeWorld T X E}

/-- The user of `a` has compared the number for `k` with that of somebody else for some peer, and
they were the same, without a collision of the digits. -/
def Compared (P : Primitives β X E) (le : Bytes β → Bytes β → Prop) [DecidableRel le]
    (identity : ι → Identity X E) (w : NodeWorld T X E) (a : ι) (k : Bytes β) : Prop :=
  ∃ b k' p q, (identity a).signingPublic P ≠ (identity b).signingPublic P ∧
    (w.node a).sessions.trust.get k = some p ∧ (w.node b).sessions.trust.get k' = some q ∧
    (w.node a).safetyNumberWith P le k = (w.node b).safetyNumberWith P le k' ∧
    let ikm := sortedPair le ((identity a).fingerprint P) (fingerprintFromKeys P k p.staticPublic)
    let ikm' := sortedPair le ((identity b).fingerprint P)
      (fingerprintFromKeys P k' q.staticPublic)
    safetyDigits P ikm = safetyDigits P ikm' → ikm = ikm'

/-- The user marks only peers whose number has been compared. -/
structure Careful (P : Primitives β X E) (le : Bytes β → Bytes β → Prop) [DecidableRel le]
    (identity : ι → Identity X E) (w : NodeWorld T X E) (event : ι × NodeEvent β X) : Prop where
  admissible : w.Admissible P event
  compared : ∀ k p, event.2 = .markVerified k →
    (w.node event.1).sessions.trust.get k = some p → w.Compared P le identity event.1 k

/-- The keys of an honest node. -/
def Belongs (P : Primitives β X E) (identity : ι → Identity X E) (k s : Bytes β) : Prop :=
  ∃ b, (identity b).signingPublic P = k ∧ (identity b).staticPublic P = s

/-- What is verified belongs to an honest node. -/
def Vouched (P : Primitives β X E) (identity : ι → Identity X E) (w : NodeWorld T X E) : Prop :=
  ∀ a ref p, (w.node a).sessions.trust.object ref = some p → p.verified = true →
    Belongs P identity p.signingPublic p.staticPublic

/-- A number that has been compared is that of an honest node. -/
lemma Right.belongs_of_compared (hP : P.Correct) (hH : P.HashIdeal) (hw : w.Right P identity)
    {a : ι} {k : Bytes β} (h : w.Compared P le identity a k) {p : PeerIdentity β}
    (hp : (w.node a).sessions.trust.get k = some p) : Belongs P identity k p.staticPublic := by
  obtain ⟨b, k', p', q, hab, hp', hq, hnumber, hcollision⟩ := h
  obtain rfl := Option.some.inj (hp.symm.trans hp')
  rw [hw.safetyNumberWith hP hp, hw.safetyNumberWith hP hq, Option.some_inj] at hnumber
  obtain ⟨⟨rfl, hs⟩, -⟩ := hw.owners_of_sortedPair hP hH hab hp hq (hcollision hnumber)
  exact ⟨b, rfl, hs.symm⟩

lemma Vouched.step (hP : P.Correct) (hH : P.HashIdeal) (hw : w.Right P identity)
    (hv : w.Vouched P identity) {event : ι × NodeEvent β X}
    (hcareful : w.Careful P le identity event) : (w.step P event).Vouched P identity := by
  obtain ⟨a, event⟩ := event
  intro a' ref p' hobject hverified
  rw [node_step] at hobject
  by_cases ha : a' = a
  swap
  · rw [Function.update_of_ne ha] at hobject
    exact hv a' ref p' hobject hverified
  subst ha
  rw [Function.update_self, Node.sessions_step] at hobject
  rcases hcall : (w.node a').callOf P event with _ | c
  · rw [hcall] at hobject
    exact hv a' ref p' hobject hverified
  rw [hcall] at hobject
  rcases SessionManager.marksAs_call (w.node a').sessions c ref p' hobject hverified with
    ⟨p, hp, hpv, hkey, hstatic⟩ | ⟨rfl, p, hp, hstatic⟩
  · rw [← hkey, ← hstatic]
    exact hv a' ref p hp hpv
  · rw [← hstatic]
    exact hw.belongs_of_compared hP hH
      (hcareful.compared _ p (Node.eq_of_callOf hcall rfl) hp) hp

/-- Where users mark only those whose numbers they have compared, every verified record, also that
behind the label of a message, has the two keys of an honest node, whatever the network does. -/
theorem verified_of_compared (hP : P.Correct) (hH : P.HashIdeal) {node : (a : ι) → Node (T a) X E}
    (hstarts : Starts P identity node)
    (hfirst : Vouched P identity { node := node, journal := [], repinned := [] })
    (hreach : Reaches (Careful P le identity) (step P) { node := node } w) (a : ι) :
    (∀ k p, (w.node a).sessions.trust.get k = some p → p.verified = true →
      ∃ b, (identity b).signingPublic P = k ∧ (identity b).staticPublic P = p.staticPublic) ∧
    ∀ event message, (w.node a).hands P event = some message → message.verified = true →
      ∃ b, (identity b).signingPublic P = message.peer.signingPublic ∧
        (identity b).staticPublic P = message.peer.staticPublic := by
  obtain ⟨-, hvouched⟩ : w.Right P identity ∧ w.Vouched P identity :=
    hreach.invariant (I := fun u => u.Right P identity ∧ u.Vouched P identity)
      ⟨Reachable.right hP hH ⟨node, hstarts, .refl _⟩, hfirst⟩
      fun u event ⟨hright, hvouched⟩ hcareful =>
        ⟨hright.step hP hH hcareful.admissible, hvouched.step hP hH hright hcareful⟩
  constructor
  · intro k p hget hverified
    obtain ⟨ref, -, hobject⟩ := Option.bind_eq_some_iff.mp hget
    rw [← TrustStore.signingPublic_of_get hget]
    exact hvouched a ref p hobject hverified
  · intro event message hhands hverified
    obtain ⟨data, rssi, env, packet, payload, -, -, -, hincoming⟩ :=
      Node.hands_eq_some_iff.mp hhands
    obtain ⟨k, session, plaintext, timestamp, body, peer, -, -, -, hpeer, rfl⟩ :=
      Node.incoming_eq_some_iff.mp hincoming
    exact hvouched a session.peer peer hpeer hverified

end NodeWorld

end Order

/-! ## Alice verifies Bob -/

namespace NodeWorld

open LabelRun SessionManager.Meeting HandshakeState

/-- Alice has marked Bob. -/
def verifying : NodeEvent SymByte ℕ := .markVerified (bob.signingPublic symbolic)

/-- She has compared the number with him before. -/
lemma compared_acquainted :
    acquainted.Compared symbolic symbolicLe identities false (bob.signingPublic symbolic) := by
  have hright := reachable_acquainted.right symbolic_correct symbolic_hashIdeal
  have hget : ∀ a : Bool, (acquainted.node a).sessions.trust.get
      ((identities !a).signingPublic symbolic) = some (recordOf a) := by decide +kernel
  exact ⟨true, alice.signingPublic symbolic, recordOf false, recordOf true, by decide, hget false,
    hget true, hright.safetyNumberWith_comm symbolic_correct (hget false) (hget true) rfl rfl,
    fun _ => sortedPair_comm _ _⟩

lemma vouched_acquainted : acquainted.Vouched symbolic identities := by
  intro a ref p hobject hverified
  obtain rfl := object_acquainted hobject
  cases hverified

lemma careful_verifying : acquainted.Careful symbolic symbolicLe identities (false, verifying) where
  admissible := {
    call c hc := by cases hc; trivial
    beacon payload h := by cases h
    timestamp env h := by cases h }
  compared k p hk _ := by
    cases hk
    exact compared_acquainted

/-- The draws of the `n`-th event. -/
def sendsAs (n : ℕ) : SendEnv SymByte where
  timestamp := zeros 8
  wallNow := 6000
  msgId := toBytesBig 8 n
  clock _ := n

/-- The clocks and the keys when the `n`-th event is a frame. -/
def comesAs (n : ℕ) : ReceiveEnv SymByte ℕ :=
  { arrival with
    now := n, reassemblyNow := n, pendingNow := n, startedAt := n
    ephemeral := 50 + 3 * n, ratchetPrivate := 51 + 3 * n, fresh := 52 + 3 * n
    send := sendsAs n }

/-- The user `a` gets the frame that the other one has handed over after `i` others. -/
def gets (w : NodeWorld (fun _ : Bool => Node.openLink) ℕ ℕ) (a : Bool) (i n : ℕ) :
    Bool × NodeEvent SymByte ℕ :=
  (a, .inbound (.frame ((w.node !a).handed.getD i []) none (comesAs n)))


/-- What the users do, and the frames that reach them: Alice marks Bob, he connects, and when the
handshake is over he sends a text. -/
def dialled : NodeWorld (fun _ : Bool => Node.openLink) ℕ ℕ :=
  (acquainted.step symbolic (false, verifying)).step symbolic
    (true, .connect (alice.staticPublic symbolic) hsId 12 1 6000 (sendsAs 1))

def asked : NodeWorld (fun _ : Bool => Node.openLink) ℕ ℕ :=
  dialled.step symbolic (dialled.gets false 0 2)

def halfway : NodeWorld (fun _ : Bool => Node.openLink) ℕ ℕ :=
  asked.step symbolic (asked.gets true 0 3)

def replied : NodeWorld (fun _ : Bool => Node.openLink) ℕ ℕ :=
  halfway.step symbolic (halfway.gets true 1 4)

def connected : NodeWorld (fun _ : Bool => Node.openLink) ℕ ℕ :=
  replied.step symbolic (replied.gets false 1 5)

def texted : NodeWorld (fun _ : Bool => Node.openLink) ℕ ℕ :=
  connected.step symbolic (true, .sendText (alice.signingPublic symbolic) "hi" (sendsAs 6))

/-- Whatever the key of an honest node is claimed for, the node has signed. -/
def Backed (w : World Bool SymByte ℕ ℕ) (a : Bool) (payload : Bytes SymByte) (expectRatchet : Bool)
    (read : Method (Exc SymByte) (HandshakeState SymByte ℕ)
      (Bytes SymByte × Bytes SymByte × Bytes SymByte)) : Prop :=
  ∀ pending ∈ (w.manager a).pending.get? (payload.take HS_ID_LEN),
    ∀ out ∈ (read pending.handshake).1.toOption,
      ∀ claim ∈ (decodeIdentityPayload out.2.2 expectRatchet).toOption,
        ∀ b, (w.manager b).identity.signingPublic symbolic = claim.signingPub →
          ∃ entry ∈ w.journal, entry.1 = b ∧ entry.2.message = SIG_DOMAIN ++ out.2.1

instance decidableBacked (w : World Bool SymByte ℕ ℕ) (a : Bool) (payload : Bytes SymByte)
    (expectRatchet : Bool) (read : Method (Exc SymByte) (HandshakeState SymByte ℕ)
      (Bytes SymByte × Bytes SymByte × Bytes SymByte)) :
    Decidable (Backed w a payload expectRatchet read) :=
  inferInstanceAs (Decidable (∀ pending ∈ (w.manager a).pending.get? (payload.take HS_ID_LEN),
    ∀ out ∈ (read pending.handshake).1.toOption,
      ∀ claim ∈ (decodeIdentityPayload out.2.2 expectRatchet).toOption,
        ∀ b, (w.manager b).identity.signingPublic symbolic = claim.signingPub →
          ∃ entry ∈ w.journal, entry.1 = b ∧ entry.2.message = SIG_DOMAIN ++ out.2.1))

/-- The claims that a call reads are backed. -/
def CallBacked (w : World Bool SymByte ℕ ℕ) (a : Bool) : Call SymByte ℕ → Prop
  | .response payload _ _ _ =>
    Backed w a payload true (readMessage2 symbolic (payload.drop HS_ID_LEN))
  | .fin payload _ _ _ => Backed w a payload false (readMessage3 symbolic (payload.drop HS_ID_LEN))
  | _ => True

instance decidableCallBacked (w : World Bool SymByte ℕ ℕ) (a : Bool) :
    DecidablePred (CallBacked w a)
  | .response payload _ _ _ => decidableBacked w a payload true _
  | .fin payload _ _ _ => decidableBacked w a payload false _
  | .start .. | .init .. | .encrypt .. | .decrypt .. | .drop .. | .markVerified .. | .repin ..
  | .forget .. => isTrue trivial

lemma Backed.genuine {w : World Bool SymByte ℕ ℕ} {a : Bool} {payload : Bytes SymByte}
    {expectRatchet : Bool} {read : Method (Exc SymByte) (HandshakeState SymByte ℕ)
      (Bytes SymByte × Bytes SymByte × Bytes SymByte)}
    (hbacked : Backed w a payload expectRatchet read) :
    ∀ pending rs h identityPayload st claim,
      (w.manager a).pending.get? (payload.take HS_ID_LEN) = some pending →
      read pending.handshake = (.ok (rs, h, identityPayload), st) →
      decodeIdentityPayload identityPayload expectRatchet = .ok claim →
        w.Genuine symbolic claim h := by
  intro pending rs h identityPayload st claim hget hread hclaim _ b hb
  obtain ⟨entry, hentry, rfl, hmessage⟩ := hbacked pending hget (rs, h, identityPayload)
    (by rw [hread]; rfl) claim (by rw [hclaim]; rfl) b hb
  exact ⟨entry.2, hentry, hmessage⟩

lemma CallBacked.unforged {w : World Bool SymByte ℕ ℕ} {a : Bool} {c : Call SymByte ℕ}
    (h : CallBacked w a c) : w.Unforged symbolic a c := by
  cases c with
  | response => exact Backed.genuine h
  | fin => exact Backed.genuine h
  | _ => trivial

/-- An event that signs no beacon, brings none and marks nobody is careful if its claims are
backed. -/
lemma careful_of_backed {w : NodeWorld (fun _ : Bool => Node.openLink) ℕ ℕ} {a : Bool}
    {event : NodeEvent SymByte ℕ}
    (hcalls : ∀ c ∈ (w.node a).callOf symbolic event, CallBacked w.managers a c)
    (hbeacon : (w.node a).beaconOf symbolic event = none)
    (hsends : ∀ env, event ≠ .broadcastBeacon env) (hmarks : ∀ k, event ≠ .markVerified k) :
    w.Careful symbolic symbolicLe identities (a, event) where
  admissible := {
    call c hc := (hcalls c hc).unforged
    beacon payload h := by rw [hbeacon] at h; cases h
    timestamp env h := absurd h (hsends env) }
  compared k _ h _ := absurd h (hmarks k)

lemma careful_gets {w : NodeWorld (fun _ : Bool => Node.openLink) ℕ ℕ} {a : Bool} {i n : ℕ}
    (hcalls : ∀ c ∈ (w.node a).callOf symbolic (w.gets a i n).2, CallBacked w.managers a c)
    (hbeacon : (w.node a).beaconOf symbolic (w.gets a i n).2 = none) :
    w.Careful symbolic symbolicLe identities (w.gets a i n) :=
  careful_of_backed hcalls hbeacon (fun _ h => by cases h) fun _ h => by cases h

lemma reaches_texted : Reaches (Careful symbolic symbolicLe identities) (step symbolic) acquainted
    texted := by
  have hdialled : Reaches (Careful symbolic symbolicLe identities) (step symbolic) acquainted
      dialled := ((Reaches.refl _).tail careful_verifying).tail
    (careful_of_backed (by decide +kernel) (by decide +kernel) (fun _ h => by cases h)
      fun _ h => by cases h)
  have hreplied : Reaches (Careful symbolic symbolicLe identities) (step symbolic) acquainted
      replied := ((hdialled.tail (careful_gets (by decide +kernel) (by decide +kernel))).tail
    (careful_gets (by decide +kernel) (by decide +kernel))).tail
      (careful_gets (by decide +kernel) (by decide +kernel))
  exact (hreplied.tail (careful_gets (by decide +kernel) (by decide +kernel))).tail
    (careful_of_backed (by decide +kernel) (by decide +kernel) (fun _ h => by cases h)
      fun _ h => by cases h)

/-- Bob's text comes with the verified label, and with the keys of Bob. -/
theorem verified_of_compared_meeting :
    ∃ message, (texted.node false).hands symbolic (texted.gets false 2 7).2 = some message ∧
      message.verified = true ∧ message.content.2 = "hi" ∧
      ∃ b, (identities b).signingPublic symbolic = message.peer.signingPublic ∧
        (identities b).staticPublic symbolic = message.peer.staticPublic := by
  have hheard : ((texted.node false).hands symbolic (texted.gets false 2 7).2).map
      (fun message => (message.verified, message.content.2)) = some (true, "hi") := by
    decide +kernel
  obtain ⟨message, hmessage, hlabel⟩ := Option.map_eq_some_iff.mp hheard
  obtain ⟨hverified, htext⟩ := Prod.mk.inj hlabel
  exact ⟨message, hmessage, hverified, htext, (verified_of_compared symbolic_correct
    symbolic_hashIdeal starts_acquainted vouched_acquainted reaches_texted false).2 _ message
      hmessage hverified⟩

end NodeWorld

end Chatbit
