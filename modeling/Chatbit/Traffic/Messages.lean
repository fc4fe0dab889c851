import Chatbit.Crypto.RatchetTheorems
import Chatbit.Session

/-!
# The messages of a session

What `encrypt` and `decrypt` of an established session do to it. A message that is refused leaves
the session as it was; a call of `encrypt` that raises does not (`ratchet_encrypt`).
-/

namespace Chatbit

open Lib

variable {β X E : Type} [Alphabet β] [DecidableEq β] {P : Primitives β X E}

omit [DecidableEq β] in
lemma MessageHeader.decode_encode {header : MessageHeader β} {encoded : Bytes β}
    (h : header.encode = .ok encoded) (hlen : header.ratchetPub.length = 32) :
    MessageHeader.decode encoded = .ok header := by
  obtain ⟨hpn, hn, rfl⟩ := encode_ok_iff.mp h
  have hpub : (header.ratchetPub ++ toBytesBig 4 header.pn).length = 36 := by
    rw [List.length_append, hlen, length_toBytesBig]
  have h32 : (header.ratchetPub ++ toBytesBig 4 header.pn ++ toBytesBig 4 header.n).drop 32 =
      toBytesBig 4 header.pn ++ toBytesBig 4 header.n := by
    rw [List.append_assoc, List.drop_left' hlen]
  rw [decode, if_neg (by simp [hlen, RATCHET_HEADER_LEN]), h32, List.drop_left' hpub,
    List.append_assoc, List.take_left' hlen, List.take_left' (length_toBytesBig 4 _),
    List.take_of_length_le (Nat.le_of_eq (length_toBytesBig 4 _)), fromBytesBig_toBytesBig hpn,
    fromBytesBig_toBytesBig hn]

namespace Session

/-! ## Sending -/

omit [DecidableEq β] in
/-- Without a sending chain `encrypt` raises and changes nothing. -/
lemma encrypt_of_none {session : Session β X} (h : session.ratchet.cks = none)
    (plaintext : Bytes β) : ∃ err, encrypt P plaintext session = (.error err, session) := by
  simp [encrypt, Method.bind_apply, onRatchet, Method.onField_apply,
    DoubleRatchet.encrypt_of_none h]

omit [DecidableEq β] in
/-- With one the ratchet advances, whether `encrypt` returns or raises. -/
lemma ratchet_encrypt {session : Session β X} {cks : Bytes β} (h : session.ratchet.cks = some cks)
    (plaintext : Bytes β) :
    (encrypt P plaintext session).2.ratchet =
      DoubleRatchet.advanceSending P cks session.ratchet := by
  have hsnd := DoubleRatchet.encrypt_snd_of_some (P := P) h plaintext []
  rw [encrypt, Method.bind_apply, onRatchet, Method.onField_apply]
  rcases henc : DoubleRatchet.encrypt P plaintext [] session.ratchet with ⟨err | ⟨header, ct⟩, st⟩
  · rw [henc] at hsnd
    exact hsnd
  · rw [henc] at hsnd
    simp only [Method.update_bind]
    rcases hencode : header.encode with err | encoded <;>
      simpa [Method.bind_apply] using hsnd

omit [DecidableEq β] in
/-- What `encrypt` returns: the header of the ratchet's next message and the ciphertext. -/
lemma encrypt_ok_iff {session session' : Session β X} {plaintext blob : Bytes β} :
    encrypt P plaintext session = (.ok blob, session') ↔
      ∃ header encoded ct st,
        DoubleRatchet.encrypt P plaintext [] session.ratchet = (.ok (header, ct), st) ∧
        header.encode = .ok encoded ∧ blob = encoded ++ ct ∧
        session' = { session with ratchet := st, messagesSent := session.messagesSent + 1 } := by
  rw [encrypt, Method.bind_ok]
  constructor
  · rintro ⟨⟨header, ct⟩, session₁, hr, h⟩
    obtain ⟨st, henc, rfl⟩ := Method.onField_ok.mp hr
    simp only [Method.update_bind] at h
    obtain ⟨encoded, session₂, heval, h⟩ := Method.bind_ok.mp h
    obtain ⟨hencode, rfl⟩ := Method.eval_ok.mp heval
    obtain ⟨heq, rfl⟩ := Prod.mk.inj h
    exact ⟨header, encoded, ct, st, henc, hencode, (Except.ok.inj heq).symm, rfl⟩
  · rintro ⟨header, encoded, ct, st, henc, hencode, rfl, rfl⟩
    refine ⟨(header, ct), _, Method.onField_ok.mpr ⟨st, henc, rfl⟩, ?_⟩
    simp only [Method.update_bind]
    exact Method.bind_ok.mpr ⟨encoded, _, Method.eval_ok.mpr ⟨hencode, rfl⟩, rfl⟩

omit [DecidableEq β] in
/-- Encrypting does not change the tags that the session sends under. -/
lemma currentSendTag_encrypt {session session' : Session β X} {plaintext blob : Bytes β} {now : ℚ}
    (h : encrypt P plaintext session = (.ok blob, session')) :
    session'.currentSendTag P now = session.currentSendTag P now := by
  obtain ⟨_, _, _, _, _, _, _, rfl⟩ := encrypt_ok_iff.mp h
  rfl

omit [DecidableEq β] in
lemma sendTagKey_encrypt (plaintext : Bytes β) (session : Session β X) :
    (encrypt P plaintext session).2.sendTagKey = session.sendTagKey := by
  have hkeeps : Method.Keeps Session.sendTagKey
      (encrypt P plaintext : Method (Exc β) (Session β X) (Bytes β)) :=
    .bind (fun _ => rfl) fun _ => .bind (.update fun _ => rfl) fun _ =>
      .bind (.eval _ _) fun _ => .pure _ _
  exact hkeeps session

/-! ## Receiving -/

omit [DecidableEq β] in
/-- A blob that is long enough starts with a header. -/
lemma exists_header {blob : Bytes β} (h : RATCHET_HEADER_LEN ≤ blob.length) :
    ∃ header, MessageHeader.decode (blob.take RATCHET_HEADER_LEN) = .ok header := by
  rw [MessageHeader.decode, if_neg (by rw [List.length_take]; omega)]
  exact ⟨_, rfl⟩

/-- What `decrypt` does with a blob that starts with a header. -/
lemma decrypt_eq {session : Session β X} {blob : Bytes β} {header : MessageHeader β}
    (hlen : RATCHET_HEADER_LEN ≤ blob.length)
    (hheader : MessageHeader.decode (blob.take RATCHET_HEADER_LEN) = .ok header) (fresh : X) :
    decrypt P blob fresh session =
      match DoubleRatchet.decrypt P header (blob.drop RATCHET_HEADER_LEN) [] fresh
        session.ratchet with
      | (.error e, st) => (.error (decryptError e), { session with ratchet := st })
      | (.ok plaintext, st) => (.ok plaintext, { session with
          ratchet := st, messagesReceived := session.messagesReceived + 1 }) := by
  rw [decrypt, Method.self_bind, if_neg (by omega), hheader,
    Method.bind_of_ok (Method.eval_apply _ _)]
  rcases DoubleRatchet.decrypt P header (blob.drop RATCHET_HEADER_LEN) [] fresh session.ratchet with
    ⟨e | plaintext, st⟩
  · rfl
  · rfl

lemma decrypt_of_short {session : Session β X} {blob : Bytes β}
    (h : ¬ RATCHET_HEADER_LEN ≤ blob.length) (fresh : X) :
    decrypt P blob fresh session =
      (.error (.sessionError "data frame is too short to contain a ratchet header"), session) := by
  rw [decrypt, Method.self_bind, if_pos (by omega), Method.raise_apply]

lemma decrypt_ok_iff {session session' : Session β X} {blob plaintext : Bytes β} {fresh : X} :
    decrypt P blob fresh session = (.ok plaintext, session') ↔
      ∃ header st, RATCHET_HEADER_LEN ≤ blob.length ∧
        MessageHeader.decode (blob.take RATCHET_HEADER_LEN) = .ok header ∧
        DoubleRatchet.decrypt P header (blob.drop RATCHET_HEADER_LEN) [] fresh session.ratchet =
          (.ok plaintext, st) ∧
        session' = { session with
          ratchet := st, messagesReceived := session.messagesReceived + 1 } := by
  by_cases hlen : RATCHET_HEADER_LEN ≤ blob.length
  · obtain ⟨header, hheader⟩ := exists_header hlen
    rw [decrypt_eq hlen hheader]
    constructor
    · intro h
      rcases hd : DoubleRatchet.decrypt P header (blob.drop RATCHET_HEADER_LEN) [] fresh
        session.ratchet with ⟨e | plaintext', st⟩
      · rw [hd] at h
        cases h
      · rw [hd] at h
        obtain ⟨hpt, rfl⟩ := Prod.mk.inj h
        exact ⟨header, st, hlen, hheader, by rw [hd, Except.ok.inj hpt], rfl⟩
    · rintro ⟨header', st, -, hheader', hd, rfl⟩
      obtain rfl := Except.ok.inj (hheader.symm.trans hheader')
      rw [hd]
  · rw [decrypt_of_short hlen]
    simp [hlen]

/-- A message that is refused changes nothing. -/
lemma decrypt_error {session session' : Session β X} {blob : Bytes β} {fresh : X} {err : Exc β}
    (h : decrypt P blob fresh session = (.error err, session')) : session' = session := by
  by_cases hlen : RATCHET_HEADER_LEN ≤ blob.length
  · obtain ⟨header, hheader⟩ := exists_header hlen
    rw [decrypt_eq hlen hheader] at h
    rcases hd : DoubleRatchet.decrypt P header (blob.drop RATCHET_HEADER_LEN) [] fresh
      session.ratchet with ⟨e | plaintext, st⟩
    · rw [hd] at h
      obtain rfl := DoubleRatchet.decrypt_error hd
      exact (Prod.mk.inj h).2.symm
    · rw [hd] at h
      cases h
  · rw [decrypt_of_short hlen] at h
    exact (Prod.mk.inj h).2.symm

lemma sendTagKey_decrypt (blob : Bytes β) (fresh : X) (session : Session β X) :
    (decrypt P blob fresh session).2.sendTagKey = session.sendTagKey := by
  rcases h : decrypt P blob fresh session with ⟨err | plaintext, session'⟩
  · rw [decrypt_error h]
  · obtain ⟨_, _, _, _, _, rfl⟩ := decrypt_ok_iff.mp h
    rfl

end Session

end Chatbit
