import Chatbit.Crypto.RatchetErrors
import Chatbit.Traffic.Linking

/-!
# Refused messages leave no trace

Whatever a session is given to decrypt, it returns a plaintext or raises `SessionError` with nothing
changed (`decrypt_outcome`). So messages that are refused can be inserted anywhere into a run: every
other call of the run returns or raises as it would have without them.
-/

namespace Chatbit

open Lib DoubleRatchet

variable {β X E : Type} [Alphabet β] [DecidableEq β] {P : Primitives β X E}

/-- The call that an event is. -/
def TrafficEvent.call (P : Primitives β X E) :
    TrafficEvent β X → Method (Exc β) (Session β X) (Bytes β)
  | .encrypt plaintext => Session.encrypt P plaintext
  | .decrypt blob fresh => Session.decrypt P blob fresh

namespace Session

variable (P) in
/-- The session after these calls, whether they return or raise. -/
def after (session : Session β X) (events : List (TrafficEvent β X)) : Session β X :=
  events.foldl (fun session event => (event.call P session).2) session

variable (P) in
/-- What each of the calls returns or raises. -/
def results : Session β X → List (TrafficEvent β X) → List (Except (Exc β) (Bytes β))
  | _, [] => []
  | session, event :: events =>
    (event.call P session).1 :: results (event.call P session).2 events

variable (P) in
/-- The ratchet of a new session. -/
def Starts (session : Session β X) : Prop :=
  (∃ sharedKey peerRatchetPub dhs,
    initSender P sharedKey peerRatchetPub dhs = .ok session.ratchet) ∨
  ∃ sharedKey ratchetPrivate, initReceiver sharedKey ratchetPrivate = .ok session.ratchet

variable (P) in
/-- The marked events are messages that are refused. -/
def RefusesMarked : Session β X → List (TrafficEvent β X × Bool) → Prop
  | _, [] => True
  | session, (event, marked) :: run =>
    (marked = true → ∃ blob fresh err,
      event = .decrypt blob fresh ∧ (event.call P session).1 = .error err) ∧
    RefusesMarked (event.call P session).2 run

variable {session : Session β X}

/-! ## One message -/

/-- The side that sends first knows the ratchet key of the other. -/
lemma dhrPub_initSender {sharedKey pub : Bytes β} {dhs : X} {st : DoubleRatchet β X}
    (h : initSender P sharedKey pub dhs = .ok st) : st.dhrPub = some pub := by
  unfold initSender at h
  by_cases hk : sharedKey.length = 32
  · rcases hload : loadX25519Public pub with err | raw
    · simp [hk, hload, bind, Except.bind] at h
    · rcases hdh : P.dh dhs pub with err | shared
      · simp [hk, hload, hdh, bind, Except.bind] at h
      · simp only [hk, hload, hdh, bind, Except.bind, pure, Except.pure, ne_eq, not_true_eq_false,
          if_false, Except.ok.injEq] at h
        rw [← h]
  · simp [hk, bind, Except.bind, throw, throwThe, MonadExceptOf.throw] at h

lemma peerKnown_of_starts (h : session.Starts P) : PeerKnown session.ratchet := by
  rcases h with ⟨sharedKey, peerRatchetPub, dhs, h⟩ | ⟨sharedKey, ratchetPrivate, h⟩
  · have hpub : session.ratchet.dhrPub = some peerRatchetPub := dhrPub_initSender h
    intro _
    simp [hpub]
  · unfold initReceiver at h
    split_ifs at h
    rw [← Except.ok.inj h]
    intro hne
    exact absurd rfl hne

lemma PeerKnown.call (h : PeerKnown session.ratchet) (event : TrafficEvent β X) :
    PeerKnown (event.call P session).2.ratchet := by
  cases event with
  | encrypt plaintext =>
    show PeerKnown (encrypt P plaintext session).2.ratchet
    rcases hcks : session.ratchet.cks with _ | cks
    · obtain ⟨err, henc⟩ := Session.encrypt_of_none (P := P) hcks plaintext
      rw [henc]
      exact h
    · rw [Session.ratchet_encrypt hcks]
      exact h
  | decrypt blob fresh =>
    show PeerKnown (decrypt P blob fresh session).2.ratchet
    rcases hdecrypt : decrypt P blob fresh session with ⟨err | plaintext, session'⟩
    · rw [decrypt_error hdecrypt]
      exact h
    · obtain ⟨header, st, -, -, hratchet, rfl⟩ := decrypt_ok_iff.mp hdecrypt
      exact DoubleRatchet.PeerKnown.decrypt h hratchet

lemma peerKnown_after (h : PeerKnown session.ratchet) (events : List (TrafficEvent β X)) :
    PeerKnown (session.after P events).ratchet := by
  induction events generalizing session with
  | nil => exact h
  | cons event events ih => exact ih (PeerKnown.call h event)

omit [DecidableEq β] in
/-- A header that comes off the wire has counters of four octets. -/
lemma decoded_of_decode {raw : Bytes β} {header : MessageHeader β}
    (h : MessageHeader.decode raw = .ok header) : Decoded header := by
  unfold MessageHeader.decode at h
  split_ifs at h with hlen
  rw [← Except.ok.inj h]
  have hfour : ∀ n, ((raw.drop n).take 4).length ≤ 4 := fun n => List.length_take_le _ _
  constructor
  · exact (fromBytesBig_lt _).trans_le (Nat.pow_le_pow_right (by decide) (hfour 32))
  · exact (fromBytesBig_lt _).trans_le (Nat.pow_le_pow_right (by decide) (hfour 36))

/-- A message is decrypted, or refused with nothing changed. -/
lemma decrypt_outcome (hhmac : ∀ key data, (P.hmacSha256 key data).length = HASHLEN)
    (hknown : PeerKnown session.ratchet) (blob : Bytes β) (fresh : X) :
    (∃ plaintext session', decrypt P blob fresh session = (.ok plaintext, session')) ∨
      ∃ msg, decrypt P blob fresh session = (.error (.sessionError msg), session) := by
  by_cases hlen : RATCHET_HEADER_LEN ≤ blob.length
  · obtain ⟨header, hheader⟩ := exists_header hlen
    rw [decrypt_eq hlen hheader]
    rcases hd : DoubleRatchet.decrypt P header (blob.drop RATCHET_HEADER_LEN) [] fresh
      session.ratchet with ⟨err | plaintext, st⟩
    · obtain ⟨⟨msg, rfl⟩, rfl⟩ := decrypt_refused hhmac (decoded_of_decode hheader) hknown hd
      exact Or.inr ⟨_, rfl⟩
    · exact Or.inl ⟨_, _, rfl⟩
  · rw [decrypt_of_short hlen]
    exact Or.inr ⟨_, rfl⟩

/-! ## Runs -/

/-- The events of a run that are not marked. -/
def unmarked (run : List (TrafficEvent β X × Bool)) : List (TrafficEvent β X) :=
  (run.filter fun event => ! event.2).map Prod.fst

/-- Without the marked events, every call has the result that it has with them. -/
lemma results_unmarked {run : List (TrafficEvent β X × Bool)}
    (h : session.RefusesMarked P run) :
    (((session.results P (run.map Prod.fst)).zip run).filter fun result => ! result.2.2).map
        Prod.fst = session.results P (unmarked run) ∧
      session.after P (run.map Prod.fst) = session.after P (unmarked run) := by
  induction run generalizing session with
  | nil => exact ⟨rfl, rfl⟩
  | cons event run ih =>
    obtain ⟨event, marked⟩ := event
    obtain ⟨hmarked, hrest⟩ := h
    obtain ⟨hresults, hafter⟩ := ih hrest
    cases marked with
    | false => exact ⟨congrArg _ hresults, hafter⟩
    | true =>
      -- the session is the same after the refused message
      obtain ⟨blob, fresh, err, rfl, herr⟩ := hmarked rfl
      have hsame : (TrafficEvent.call P (.decrypt blob fresh) session).2 = session :=
        decrypt_error (Prod.ext herr rfl)
      rw [hsame] at hresults hafter
      constructor
      · show List.map _ (List.filter _ (List.zip (_ :: _) (_ :: _))) = _
        rw [List.zip_cons_cons, List.filter_cons_of_neg (by simp), hsame]
        exact hresults
      · show (TrafficEvent.call P (.decrypt blob fresh) session).2.after P (run.map Prod.fst) = _
        rw [hsame]
        exact hafter

/-- From every state of a run a message is decrypted or refused with nothing changed, and refused
messages that are inserted into a run change the result of no other call. -/
theorem refused_leaves_no_trace (hhmac : ∀ key data, (P.hmacSha256 key data).length = HASHLEN) :
    (∀ session : Session β X, session.Starts P → ∀ events blob fresh,
      (∃ plaintext session',
        decrypt P blob fresh (session.after P events) = (.ok plaintext, session')) ∨
      ∃ msg, decrypt P blob fresh (session.after P events) =
        (.error (.sessionError msg), session.after P events)) ∧
    ∀ (session : Session β X) (run : List (TrafficEvent β X × Bool)), session.RefusesMarked P run →
      (((session.results P (run.map Prod.fst)).zip run).filter fun result => ! result.2.2).map
          Prod.fst = session.results P (unmarked run) ∧
        session.after P (run.map Prod.fst) = session.after P (unmarked run) := by
  constructor
  · intro session hstarts events blob fresh
    exact decrypt_outcome hhmac (peerKnown_after (peerKnown_of_starts hstarts) events) blob fresh
  · intro session run h
    exact results_unmarked h

/-- Bob's session before any message, to which a forged frame comes before he tries to send. -/
theorem refused_leaves_no_trace_forged :
    let session : Session SymByte ℕ := { Node.bobSession with
      ratchet := { dhsPriv := 1, dhrPub := none, rk := zeros 32 } }
    let forged : TrafficEvent SymByte ℕ := .decrypt (zeros 60) 5
    let sending : TrafficEvent SymByte ℕ := .encrypt (ascii "hi")
    (∃ msg, decrypt symbolic (zeros 60) 5 (session.after symbolic [forged, sending]) =
      (.error (.sessionError msg), session.after symbolic [forged, sending])) ∧
    session.after symbolic [forged, sending] = session.after symbolic [sending] := by
  intro session forged sending
  have hhmac := symbolic_correct.length_hmac
  have hstarts : session.Starts symbolic := Or.inr ⟨zeros 32, 1, rfl⟩
  have hrefused : session.RefusesMarked symbolic [(forged, true), (sending, false)] :=
    ⟨fun _ => ⟨zeros 60, 5, .sessionError
        "decryption failed: message failed to authenticate: AEAD authentication failed",
      rfl, by decide +kernel⟩, fun h => absurd h (by decide), trivial⟩
  obtain ⟨houtcome, hruns⟩ := refused_leaves_no_trace (β := SymByte) hhmac
  constructor
  · have hends := houtcome session hstarts [forged, sending] (zeros 60) 5
    refine hends.resolve_left fun haccepted => ?_
    obtain ⟨plaintext, session', h⟩ := haccepted
    have hraises : (decrypt symbolic (zeros 60) 5
        (session.after symbolic [forged, sending])).1.isOk = false := by decide +kernel
    rw [h] at hraises
    cases hraises
  · exact (hruns session [(forged, true), (sending, false)] hrefused).2

end Session

end Chatbit
