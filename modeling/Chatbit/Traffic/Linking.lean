import Chatbit.Traffic.Length
import Chatbit.Wire.TagTheorems

/-!
# Which messages of a session can be linked

The tag of a frame changes with the epoch, but the ratchet header in front of the ciphertext is in
the clear, and its public key changes only when the session accepts a message under a new ratchet
key of the peer (`ratchetPub_after`). Two messages of different epochs are unlinkable exactly when
that has happened between them and both counters of the header have moved.
-/

namespace Chatbit

open Lib

variable {β X E τ : Type} [Alphabet β] [DecidableEq β] (P : Primitives β X E)

/-! ## What a listener reads -/

def dstTag (frame : Bytes β) : Bytes β := (frame.drop 13).take 8

/-- The ratchet header at the start of the message that the frames carry. -/
def clearHeader (frames : List (Bytes β)) : Except (Exc β) (MessageHeader β) := do
  let payload ← Node.received frames
  MessageHeader.decode (payload.take RATCHET_HEADER_LEN)

/-- Two messages have nothing in common that comes from the session and is readable without keys:
no tag, and no field of the ratchet header. -/
def Unlinkable (frames₁ frames₂ : List (Bytes β)) : Prop :=
  (∀ frame₁ ∈ frames₁, ∀ frame₂ ∈ frames₂, dstTag frame₁ ≠ dstTag frame₂) ∧
    ∃ header₁ header₂, clearHeader frames₁ = .ok header₁ ∧ clearHeader frames₂ = .ok header₂ ∧
      header₁.ratchetPub ≠ header₂.ratchetPub ∧ header₁.pn ≠ header₂.pn ∧ header₁.n ≠ header₂.n

/-! ## The traffic of a session -/

/-- A session and the public keys that its `keygen` has handed out. -/
structure Traffic (β X : Type) where
  session : Session β X
  minted : List (Bytes β)

inductive TrafficEvent (β X : Type) where
  | encrypt (plaintext : Bytes β)
  | decrypt (blob : Bytes β) (fresh : X)

namespace Traffic

/-- From a session on. -/
def start (session : Session β X) : Traffic β X where
  session := session
  minted := [session.ratchet.ratchetPublic P]

/-- What an event leaves, whether the call returns or raises. -/
def step (traffic : Traffic β X) : TrafficEvent β X → Traffic β X
  | .encrypt plaintext =>
    { traffic with session := (Session.encrypt P plaintext traffic.session).2 }
  | .decrypt blob fresh =>
    { session := (Session.decrypt P blob fresh traffic.session).2
      minted := P.x25519PublicBytes fresh :: traffic.minted }

def after (traffic : Traffic β X) (events : List (TrafficEvent β X)) : Traffic β X :=
  events.foldl (step P) traffic

/-- `keygen` never hands out a key twice. -/
def Fresh : Traffic β X → List (TrafficEvent β X) → Prop
  | _, [] => True
  | traffic, .encrypt plaintext :: events => Fresh (traffic.step P (.encrypt plaintext)) events
  | traffic, .decrypt blob fresh :: events =>
    P.x25519PublicBytes fresh ∉ traffic.minted ∧
      Fresh (traffic.step P (.decrypt blob fresh)) events

/-- The event is a message that is accepted, and that comes under a ratchet key of the peer that
the session does not know yet. -/
def TurnsKey (traffic : Traffic β X) : TrafficEvent β X → Prop
  | .encrypt _ => False
  | .decrypt blob fresh =>
    ∃ header plaintext session,
      MessageHeader.decode (blob.take RATCHET_HEADER_LEN) = .ok header ∧
      traffic.session.ratchet.skipped.get? (header.ratchetPub, header.n) = none ∧
      traffic.session.ratchet.dhrPub ≠ some header.ratchetPub ∧
      Session.decrypt P blob fresh traffic.session = (.ok plaintext, session)

/-- One of the events turns the key. -/
def Turns : Traffic β X → List (TrafficEvent β X) → Prop
  | _, [] => False
  | traffic, event :: events => traffic.TurnsKey P event ∨ Turns (traffic.step P event) events

end Traffic

variable {P}

/-! ## The key over a run -/

namespace Traffic

/-- The public key in the header of the session's next message. -/
def ratchetPub (P : Primitives β X E) (traffic : Traffic β X) : Bytes β :=
  traffic.session.ratchet.ratchetPublic P

variable {traffic : Traffic β X} {pub : Bytes β}

/-- Sending keeps the key. -/
lemma ratchetPub_encrypt (plaintext : Bytes β) :
    (traffic.step P (.encrypt plaintext)).ratchetPub P = traffic.ratchetPub P := by
  rcases hcks : traffic.session.ratchet.cks with _ | cks
  · obtain ⟨err, henc⟩ := Session.encrypt_of_none (P := P) hcks plaintext
    simp only [ratchetPub, step, henc]
  · simp only [ratchetPub, step, Session.ratchet_encrypt hcks]
    rfl

/-- An accepted message under a new key of the peer brings a key that `keygen` handed out. -/
lemma ratchetPub_of_turnsKey {blob : Bytes β} {fresh : X}
    (h : traffic.TurnsKey P (.decrypt blob fresh)) :
    (traffic.step P (.decrypt blob fresh)).ratchetPub P = P.x25519PublicBytes fresh := by
  obtain ⟨header, plaintext, session, hheader, hget, hpub, hdecrypt⟩ := h
  obtain ⟨header', st, -, hheader', hratchet, rfl⟩ := Session.decrypt_ok_iff.mp hdecrypt
  obtain rfl := Except.ok.inj (hheader.symm.trans hheader')
  obtain ⟨mk, hd⟩ := DoubleRatchet.decrypt_ok_iff.mp hratchet
  have hkey := hd.dhsPriv
  rw [if_pos ⟨hget, hpub⟩] at hkey
  simp only [ratchetPub, step, hdecrypt, DoubleRatchet.ratchetPublic, hkey]

/-- Every other message leaves the key. -/
lemma ratchetPub_of_not_turnsKey {blob : Bytes β} {fresh : X}
    (h : ¬ traffic.TurnsKey P (.decrypt blob fresh)) :
    (traffic.step P (.decrypt blob fresh)).ratchetPub P = traffic.ratchetPub P := by
  rcases hdecrypt : Session.decrypt P blob fresh traffic.session with ⟨err | plaintext, session⟩
  · simp only [ratchetPub, step, hdecrypt, Session.decrypt_error hdecrypt]
  · obtain ⟨header, st, -, hheader, hratchet, rfl⟩ := Session.decrypt_ok_iff.mp hdecrypt
    obtain ⟨mk, hd⟩ := DoubleRatchet.decrypt_ok_iff.mp hratchet
    have hkey := hd.dhsPriv
    rw [if_neg fun hnew => h ⟨header, plaintext, _, hheader, hnew.1, hnew.2, hdecrypt⟩] at hkey
    simp only [ratchetPub, step, hdecrypt, DoubleRatchet.ratchetPublic, hkey]

/-- Over a run the key changes exactly when an event turns it: the new key is none of the keys that
were handed out before. -/
lemma ratchetPub_after {events : List (TrafficEvent β X)} (hpub : pub ∈ traffic.minted)
    (hfresh : traffic.Fresh P events) :
    (traffic.Turns P events → (traffic.after P events).ratchetPub P ≠ pub) ∧
      (¬ traffic.Turns P events →
        (traffic.after P events).ratchetPub P = traffic.ratchetPub P) := by
  induction events generalizing traffic with
  | nil => exact ⟨fun h => h.elim, fun _ => rfl⟩
  | cons event events ih =>
    cases event with
    | encrypt plaintext =>
      obtain ⟨hturns, hkeeps⟩ := ih (show pub ∈ (traffic.step P (.encrypt plaintext)).minted from
        hpub) hfresh
      refine ⟨fun h => hturns (h.resolve_left id), fun h => ?_⟩
      exact (hkeeps fun hlater => h (Or.inr hlater)).trans (ratchetPub_encrypt plaintext)
    | decrypt blob fresh =>
      obtain ⟨hnew, hfresh⟩ := hfresh
      obtain ⟨hturns, hkeeps⟩ := ih (show pub ∈ (traffic.step P (.decrypt blob fresh)).minted from
        List.mem_cons_of_mem _ hpub) hfresh
      by_cases hlater : (traffic.step P (.decrypt blob fresh)).Turns P events
      · exact ⟨fun _ => hturns hlater, fun h => absurd (Or.inr hlater) h⟩
      · -- only the first event may turn the key
        constructor
        · intro h
          change ((traffic.step P (.decrypt blob fresh)).after P events).ratchetPub P ≠ pub
          rw [hkeeps hlater, ratchetPub_of_turnsKey (h.resolve_right hlater)]
          exact fun heq => hnew (heq ▸ hpub)
        · intro h
          exact (hkeeps hlater).trans
            (ratchetPub_of_not_turnsKey fun hfirst => h (Or.inl hfirst))

/-- The tag key never changes. -/
lemma sendTagKey_after (events : List (TrafficEvent β X)) :
    (traffic.after P events).session.sendTagKey = traffic.session.sendTagKey := by
  induction events generalizing traffic with
  | nil => rfl
  | cons event events ih =>
    have hstep : (traffic.step P event).session.sendTagKey = traffic.session.sendTagKey := by
      cases event with
      | encrypt plaintext => exact Session.sendTagKey_encrypt plaintext traffic.session
      | decrypt blob fresh => exact Session.sendTagKey_decrypt blob fresh traffic.session
    exact ih.trans hstep

end Traffic

/-! ## Tags and headers of a message -/

omit [DecidableEq β] in
lemma Packet.dstTag_header (packet : Packet β) (rest : Bytes β) :
    Chatbit.dstTag (packet.header ++ rest) = packet.dstTag := by
  rw [Chatbit.dstTag, drop_dstTag, List.take_left' packet.length_dstTag]

namespace Session.Emits

variable {session session' : Session β X} {mtu : ℕ} {plaintext : Bytes β} {now : ℚ}
  {frames : List (Bytes β)}

omit [DecidableEq β] in
/-- All frames of a message carry the tag of its epoch. -/
lemma dstTag (h : session.Emits P mtu plaintext now frames session') :
    ∃ tag, session.currentSendTag P now = .ok tag ∧
      ∀ frame ∈ frames, Chatbit.dstTag frame = tag := by
  obtain ⟨blob, tag, _, _, _, padding, packets, htagged, hfragment, hframes⟩ := h.packets
  obtain ⟨henc, htag⟩ := Session.encryptTagged_ok_iff.mp htagged
  rw [Session.currentSendTag_encrypt henc] at htag
  obtain ⟨-, -, hpackets⟩ := fragment_ok hfragment
  refine ⟨tag, htag, ?_⟩
  clear hfragment h
  induction hframes with
  | nil => exact fun _ hframe => (nomatch hframe)
  | cons hframe _ ih =>
    obtain ⟨⟨hfirst, -⟩, hrest⟩ := List.forall_mem_cons.mp hpackets
    obtain ⟨size, -, rfl⟩ := Node.frameOf_ok_iff.mp hframe
    refine List.forall_mem_cons.mpr ⟨?_, ih hrest⟩
    rw [List.append_assoc, Packet.dstTag_header, hfirst]

omit [DecidableEq β] in
/-- A message starts with the header of the ratchet's next message. -/
lemma clearHeader (hP : P.Correct) (h : session.Emits P mtu plaintext now frames session') :
    Chatbit.clearHeader frames = .ok (DoubleRatchet.nextHeader P session.ratchet) := by
  obtain ⟨blob, henc, hreceived⟩ := h.received
  obtain ⟨header, encoded, ct, st, hratchet, hencode, rfl, -⟩ := Session.encrypt_ok_iff.mp henc
  obtain ⟨-, -, -, rfl, -⟩ := (DoubleRatchet.encrypt_ok_iff hP).mp hratchet
  have hpub : (DoubleRatchet.nextHeader P session.ratchet).ratchetPub.length = 32 :=
    hP.length_x25519Public _
  have hlen : encoded.length = RATCHET_HEADER_LEN := by
    rw [MessageHeader.length_of_encode hencode, hpub]
    rfl
  rw [Chatbit.clearHeader, hreceived]
  simp only [bind, Except.bind]
  rw [List.take_left' hlen, MessageHeader.decode_encode hencode hpub]

end Session.Emits

/-! ## Unlinkability -/

/-- Two messages of a session that are sent in different epochs are unlinkable exactly when the
session's key has turned between them and neither counter of the header has come back to its
value. -/
theorem Session.unlinkable_iff (hP : P.Correct) (hT : P.TagIdeal)
    {session session₁ session₂ : Session β X} {events : List (TrafficEvent β X)} {mtu : ℕ}
    {plaintext₁ plaintext₂ : Bytes β} {now₁ now₂ : ℚ} {frames₁ frames₂ : List (Bytes β)}
    (h₁ : session.Emits P mtu plaintext₁ now₁ frames₁ session₁)
    (hfresh : (Traffic.start P session₁).Fresh P events)
    (h₂ : ((Traffic.start P session₁).after P events).session.Emits P mtu plaintext₂ now₂ frames₂
      session₂)
    (hepoch : Tags.currentEpoch now₁ ≠ Tags.currentEpoch now₂) :
    Unlinkable frames₁ frames₂ ↔
      (Traffic.start P session₁).Turns P events ∧
      session.ratchet.pn ≠ ((Traffic.start P session₁).after P events).session.ratchet.pn ∧
      session.ratchet.ns ≠ ((Traffic.start P session₁).after P events).session.ratchet.ns := by
  -- the first message leaves the ratchet key and the tag key as they were
  have hstart : session₁.ratchet.ratchetPublic P = session.ratchet.ratchetPublic P ∧
      session₁.sendTagKey = session.sendTagKey := by
    obtain ⟨blob, henc, -⟩ := h₁.received
    have hkey : ((Traffic.start P session).step P (.encrypt plaintext₁)).ratchetPub P =
        (Traffic.start P session).ratchetPub P := Traffic.ratchetPub_encrypt plaintext₁
    have htagKey := sendTagKey_encrypt (P := P) plaintext₁ session
    simp only [Traffic.ratchetPub, Traffic.step, Traffic.start, henc] at hkey
    rw [henc] at htagKey
    exact ⟨hkey, htagKey⟩
  -- the epochs differ, so the tags do in any case
  have htags : ∀ frame₁ ∈ frames₁, ∀ frame₂ ∈ frames₂, dstTag frame₁ ≠ dstTag frame₂ := by
    obtain ⟨tag₁, htag₁, hall₁⟩ := h₁.dstTag
    obtain ⟨tag₂, htag₂, hall₂⟩ := h₂.dstTag
    rw [currentSendTag, Traffic.sendTagKey_after] at htag₂
    rw [currentSendTag, ← hstart.2] at htag₁
    intro frame₁ hframe₁ frame₂ hframe₂
    rw [hall₁ frame₁ hframe₁, hall₂ frame₂ hframe₂]
    exact Tags.computeTag_ne hT htag₁ htag₂ hepoch
  -- the keys differ exactly when the key has turned
  have hpub : session.ratchet.ratchetPublic P ≠
      ((Traffic.start P session₁).after P events).session.ratchet.ratchetPublic P ↔
        (Traffic.start P session₁).Turns P events := by
    obtain ⟨hturns, hkeeps⟩ := Traffic.ratchetPub_after (List.mem_singleton_self _) hfresh
    rw [← hstart.1, ne_comm]
    exact ⟨fun hne => by_contra fun hno => hne (hkeeps hno), hturns⟩
  rw [← hpub, Unlinkable, h₁.clearHeader hP, h₂.clearHeader hP]
  constructor
  · rintro ⟨-, header₁, header₂, heq₁, heq₂, hne⟩
    obtain rfl := Except.ok.inj heq₁
    obtain rfl := Except.ok.inj heq₂
    exact hne
  · intro hne
    exact ⟨htags, _, _, rfl, rfl, hne⟩

/-! ## Alice and Bob talk -/

namespace Session

open Node

/-- Alice's message at this time, and the session after it. -/
def sentAt (now : ℚ) (session : Session SymByte ℕ) :
    Except (Exc SymByte) (List (Bytes SymByte)) × Session SymByte ℕ :=
  framesOf symbolic 200 (ascii "hi") now (zeros 8) 177 7 .strict session

/-- The frames of that message. -/
def framesAt (now : ℚ) (session : Session SymByte ℕ) : List (Bytes SymByte) :=
  ((sentAt now session).1.toOption).getD []

lemma emits_framesAt {now : ℚ} {session : Session SymByte ℕ}
    (h : (sentAt now session).1 = .ok (framesAt now session)) :
    session.Emits symbolic 200 (ascii "hi") now (framesAt now session) (sentAt now session).2 :=
  ⟨zeros 8, 177, 7, .strict, Prod.ext h rfl⟩

lemma emits_first : aliceSession.Emits symbolic 200 (ascii "hi") 0 (framesAt 0 aliceSession)
    (sentAt 0 aliceSession).2 := emits_framesAt (by decide +kernel)

/-- Bob's answer to Alice's first message. -/
def bobAnswer : Bytes SymByte :=
  let blob := (encrypt symbolic (ascii "hi") aliceSession).1.toOption.getD []
  (encrypt symbolic (ascii "hey") (decrypt symbolic blob 2 bobSession).2).1.toOption.getD []

/-- Bob answers and Alice writes again. -/
def answered : List (TrafficEvent SymByte ℕ) :=
  [.decrypt bobAnswer 3, .encrypt (ascii "well")]

/-- After an answer and another message, the next one cannot be linked with the first. -/
theorem unlinkable_iff_answered :
    Unlinkable (framesAt 0 aliceSession) (framesAt 600
      ((Traffic.start symbolic (sentAt 0 aliceSession).2).after symbolic answered).session) := by
  have hturns :
      (Traffic.start symbolic (sentAt 0 aliceSession).2).Turns symbolic answered := by
    refine Or.inl ⟨⟨symbolic.x25519PublicBytes 2, 0, 0⟩, ascii "hey", _, ?_, ?_, ?_,
      Prod.ext ?_ rfl⟩
    · decide +kernel
    · decide +kernel
    · decide +kernel
    · decide +kernel
  refine (unlinkable_iff symbolic_correct symbolic_tagIdeal emits_first
    (show (Traffic.start symbolic (sentAt 0 aliceSession).2).Fresh symbolic answered from
      ⟨by decide +kernel, trivial⟩)
    (emits_framesAt (by decide +kernel)) (by decide +kernel)).mpr ⟨hturns, ?_, ?_⟩
  · decide +kernel
  · decide +kernel

/-- Two messages without an answer, in neighbouring epochs, carry one public key. -/
theorem one_sided_linkable :
    let session := (sentAt 0 aliceSession).2
    aliceSession.Emits symbolic 200 (ascii "hi") 0 (framesAt 0 aliceSession) session ∧
    session.Emits symbolic 200 (ascii "hi") 600 (framesAt 600 session) (sentAt 600 session).2 ∧
    Tags.currentEpoch 0 ≠ Tags.currentEpoch 600 ∧
    (clearHeader (framesAt 0 aliceSession)).map MessageHeader.ratchetPub =
      (clearHeader (framesAt 600 session)).map MessageHeader.ratchetPub ∧
    ¬ Unlinkable (framesAt 0 aliceSession) (framesAt 600 session) := by
  have hsame : (clearHeader (framesAt 0 aliceSession)).map MessageHeader.ratchetPub =
      (clearHeader (framesAt 600 (sentAt 0 aliceSession).2)).map MessageHeader.ratchetPub := by
    decide +kernel
  refine ⟨emits_first, emits_framesAt (by decide +kernel), by decide +kernel, hsame, ?_⟩
  rintro ⟨-, header₁, header₂, h₁, h₂, hpub, -⟩
  rw [h₁, h₂] at hsame
  exact hpub (Except.ok.inj hsame)

end Session

end Chatbit
