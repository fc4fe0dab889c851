import Mathlib.Data.List.Induction
import Chatbit.Crypto.Noise
import Chatbit.Crypto.Assumptions

/-!
# What the handshake methods do

Every state that the XX pattern passes through is determined by three things: the data mixed into
the transcript hash, the secrets mixed into the chaining key, and how often the current cipher has
been used (`SymmetricState.after`). Each method has one lemma that says when it returns and which
such state it leaves.
-/

namespace Chatbit

open Lib

variable {β X E : Type} [Alphabet β] [DecidableEq β] {P : Primitives β X E}

/-! ## States in closed form -/

/-- The transcript hash after the given data have been mixed in. -/
def transcript (P : Primitives β X E) (data : List (Bytes β)) : Bytes β :=
  data.foldl (fun h d => P.sha256 (h ++ d)) PROTOCOL_NAME

/-- The chaining key and the cipher key after the given secrets have been mixed in. -/
def noiseKeys (P : Primitives β X E) (secrets : List (Bytes β)) : Bytes β × Bytes β :=
  secrets.foldl (fun k s => P.noiseHkdf k.1 s) (PROTOCOL_NAME, [])

omit [DecidableEq β] in
lemma transcript_append (data : List (Bytes β)) (d : Bytes β) :
    transcript P (data ++ [d]) = P.sha256 (transcript P data ++ d) := by
  rw [transcript, List.foldl_append]; rfl

omit [DecidableEq β] in
lemma noiseKeys_append (secrets : List (Bytes β)) (s : Bytes β) :
    noiseKeys P (secrets ++ [s]) = P.noiseHkdf (noiseKeys P secrets).1 s := by
  rw [noiseKeys, List.foldl_append]; rfl

omit [DecidableEq β] in
lemma length_PROTOCOL_NAME : (PROTOCOL_NAME : Bytes β).length = HASHLEN := by
  rw [PROTOCOL_NAME, length_ascii]; decide

omit [DecidableEq β] in
lemma length_transcript (hP : P.Correct) (data : List (Bytes β)) :
    (transcript P data).length = HASHLEN := by
  induction data using List.reverseRecOn with
  | nil => exact length_PROTOCOL_NAME
  | append_singleton data d _ => rw [transcript_append]; exact hP.length_sha256 _

omit [DecidableEq β] in
lemma length_noiseKeys (hP : P.Correct) {secrets : List (Bytes β)} (hs : secrets ≠ []) :
    (noiseKeys P secrets).2.length = HASHLEN := by
  induction secrets using List.reverseRecOn with
  | nil => exact absurd rfl hs
  | append_singleton secrets s _ => rw [noiseKeys_append]; exact hP.length_hmac _ _

omit [DecidableEq β] in
/-- Transcripts of the same number of items commit to each item. -/
lemma transcript_inj (hP : P.Correct) (hH : P.HashIdeal) {data data' : List (Bytes β)}
    (hlen : data.length = data'.length) (h : transcript P data = transcript P data') :
    data = data' := by
  induction data using List.reverseRecOn generalizing data' with
  | nil => exact (List.length_eq_zero_iff.mp hlen.symm).symm
  | append_singleton data d ih =>
    induction data' using List.reverseRecOn with
    | nil => simp at hlen
    | append_singleton data' d' _ =>
      rw [transcript_append, transcript_append] at h
      have hl := (length_transcript hP data).trans (length_transcript hP data').symm
      obtain ⟨hinit, rfl⟩ := List.append_inj (hH.sha256_inj _ _ h) hl
      rw [ih (by simpa using hlen) hinit]

omit [DecidableEq β] in
/-- The last item of a transcript that is not empty is committed to whatever the lengths. -/
lemma transcript_last_inj (hP : P.Correct) (hH : P.HashIdeal) {data data' : List (Bytes β)}
    {d d' : Bytes β} (h : transcript P (data ++ [d]) = transcript P (data' ++ [d'])) :
    transcript P data = transcript P data' ∧ d = d' := by
  rw [transcript_append, transcript_append] at h
  exact List.append_inj (hH.sha256_inj _ _ h)
    ((length_transcript hP data).trans (length_transcript hP data').symm)

namespace SymmetricState

/-- The state after the given data and secrets, `n` uses of the cipher after the last secret. -/
def after (P : Primitives β X E) (data secrets : List (Bytes β)) (n : ℕ) : SymmetricState β where
  ck := (noiseKeys P secrets).1
  h := transcript P data
  cipher := if secrets = [] then {} else { k := some (noiseKeys P secrets).2, n := n }

omit [DecidableEq β] in
lemma initial_eq : SymmetricState.initial P PROTOCOL_NAME = after P [] [] 0 := by
  have hlen := length_PROTOCOL_NAME (β := β)
  simp [SymmetricState.initial, hlen, after, transcript, noiseKeys, zeros]

omit [DecidableEq β] in
lemma mixHash_after (data secrets : List (Bytes β)) (n : ℕ) (d : Bytes β) :
    mixHash P d (after P data secrets n) = after P (data ++ [d]) secrets n := by
  rw [mixHash, after, after, transcript_append]

omit [DecidableEq β] in
lemma mixKey_after (hP : P.Correct) (data secrets : List (Bytes β)) (n : ℕ) (s : Bytes β) :
    mixKey P s (after P data secrets n) = after P data (secrets ++ [s]) 0 := by
  have htake : (P.noiseHkdf (noiseKeys P secrets).1 s).2.take KEYLEN =
      (P.noiseHkdf (noiseKeys P secrets).1 s).2 :=
    List.take_of_length_le (Nat.le_of_eq (hP.length_hmac _ _))
  simp only [mixKey, after, noiseKeys_append, htake]
  simp

omit [DecidableEq β] in
@[simp] lemma after_h (data secrets : List (Bytes β)) (n : ℕ) :
    (after P data secrets n).h = transcript P data := rfl

/-- What `encrypt_and_hash` writes. -/
def sealAfter (P : Primitives β X E) (data secrets : List (Bytes β)) (n : ℕ)
    (plaintext : Bytes β) : Bytes β :=
  P.chachaEncrypt (noiseKeys P secrets).2 (nonceBytes n) plaintext (transcript P data)

omit [DecidableEq β] in
lemma length_sealAfter (hP : P.Correct) (data secrets : List (Bytes β)) (n : ℕ)
    (plaintext : Bytes β) :
    (sealAfter P data secrets n plaintext).length = plaintext.length + TAGLEN :=
  hP.length_encrypt _ _ _ _

omit [DecidableEq β] in
lemma length_nonceBytes (n : ℕ) : (nonceBytes n : Bytes β).length = 12 := by
  simp [nonceBytes, toBytesLittle]

section Cipher

variable (hP : P.Correct) {data secrets : List (Bytes β)} {n : ℕ}
include hP

omit [DecidableEq β] in
lemma encryptAndHash_after (hs : secrets ≠ []) (hn : n ≤ MAX_NONCE) (plaintext : Bytes β) :
    encryptAndHash P plaintext (after P data secrets n) =
      (.ok (sealAfter P data secrets n plaintext),
        after P (data ++ [sealAfter P data secrets n plaintext]) secrets (n + 1)) := by
  have henc := Primitives.aeadEncrypt_eq (P := P) (length_noiseKeys hP hs)
    (length_nonceBytes n) plaintext (transcript P data)
  have hcipher : (after P data secrets n).cipher = { k := some (noiseKeys P secrets).2, n := n } :=
    if_neg hs
  have hh : (after P data secrets n).h = transcript P data := rfl
  simp only [encryptAndHash, Method.bind_apply, Method.self_apply, onCipher, Method.onField_apply,
    CipherState.encryptWithAd, hcipher, hh, Nat.not_lt.mpr hn, if_false, Method.eval_apply, henc,
    Method.update_apply, Method.pure_apply]
  rw [← sealAfter]
  simp [mixHash, after, transcript_append, hs]

omit [DecidableEq β] in
/-- `decrypt_and_hash` returns exactly on what was sealed in this state, and changes nothing when
it raises. -/
lemma decryptAndHash_after (hs : secrets ≠ []) (hn : n ≤ MAX_NONCE) (c : Bytes β) :
    decryptAndHash P c (after P data secrets n) =
      match P.chachaDecrypt (noiseKeys P secrets).2 (nonceBytes n) c (transcript P data) with
      | some pt => (.ok pt, after P (data ++ [c]) secrets (n + 1))
      | none => (.error (.noiseError "handshake/transport decryption failed"),
          after P data secrets n) := by
  have hcipher : (after P data secrets n).cipher = { k := some (noiseKeys P secrets).2, n := n } :=
    if_neg hs
  have hh : (after P data secrets n).h = transcript P data := rfl
  have hk : (noiseKeys P secrets).2.length = KEYLEN := length_noiseKeys hP hs
  simp only [decryptAndHash, Method.bind_apply, Method.self_apply, onCipher, Method.onField_apply,
    CipherState.decryptWithAd, hcipher, hh, Nat.not_lt.mpr hn, if_false, Primitives.aeadDecrypt,
    hk, length_nonceBytes, ne_eq, not_true_eq_false]
  cases hdec : P.chachaDecrypt (noiseKeys P secrets).2 (nonceBytes n) c (transcript P data) with
  | none =>
    simp only [CipherState.decryptError, Method.raise_apply, ← hcipher]
    rfl
  | some pt => simp [mixHash, after, transcript_append, hs]

omit [DecidableEq β] in
lemma decrypt_eq_some_iff {c pt : Bytes β} :
    P.chachaDecrypt (noiseKeys P secrets).2 (nonceBytes n) c (transcript P data) = some pt ↔
      c = sealAfter P data secrets n pt :=
  hP.decrypt_eq_some_iff _ _ _ _ _

end Cipher

end SymmetricState

/-! ## The states of the pattern -/

namespace HandshakeState

variable (P)

/-- The initiator after message 1. -/
def sent1 (prologue : Bytes β) (s e : X) : HandshakeState β X where
  initiator := true
  staticPrivate := s
  symmetric := .after P [prologue, P.x25519PublicBytes e] [] 0
  e := some e
  msgIndex := 1

/-- The responder after message 1. -/
def received1 (prologue : Bytes β) (s : X) (re : Bytes β) : HandshakeState β X where
  initiator := false
  staticPrivate := s
  symmetric := .after P [prologue, re] [] 0
  re := some re
  msgIndex := 1

/-- The responder when it calls the payload builder of message 2. -/
def writing2 (prologue : Bytes β) (s e : X) (re encS : Bytes β) : HandshakeState β X where
  initiator := false
  staticPrivate := s
  symmetric := .after P [prologue, re, P.x25519PublicBytes e, encS]
    [P.exchange e re, P.exchange s re] 0
  e := some e
  re := some re
  msgIndex := 1

/-- The responder after message 2. -/
def sent2 (prologue : Bytes β) (s e : X) (re encS encPayload : Bytes β) : HandshakeState β X where
  initiator := false
  staticPrivate := s
  symmetric := .after P [prologue, re, P.x25519PublicBytes e, encS, encPayload]
    [P.exchange e re, P.exchange s re] 1
  e := some e
  re := some re
  msgIndex := 2

/-- The initiator after message 2. -/
def received2 (prologue : Bytes β) (s e : X) (re rs encS encPayload : Bytes β) :
    HandshakeState β X where
  initiator := true
  staticPrivate := s
  symmetric := .after P [prologue, P.x25519PublicBytes e, re, encS, encPayload]
    [P.exchange e re, P.exchange e rs] 1
  e := some e
  re := some re
  rs := some rs
  msgIndex := 2

/-- The initiator when it calls the payload builder of message 3. -/
def writing3 (prologue : Bytes β) (s e : X) (re rs encS encPayload encS3 : Bytes β) :
    HandshakeState β X where
  initiator := true
  staticPrivate := s
  symmetric := .after P [prologue, P.x25519PublicBytes e, re, encS, encPayload, encS3]
    [P.exchange e re, P.exchange e rs, P.exchange s re] 0
  e := some e
  re := some re
  rs := some rs
  msgIndex := 2

/-- The initiator after message 3. -/
def sent3 (prologue : Bytes β) (s e : X) (re rs encS encPayload encS3 encPayload3 : Bytes β) :
    HandshakeState β X :=
  let symmetric := SymmetricState.after P
    [prologue, P.x25519PublicBytes e, re, encS, encPayload, encS3, encPayload3]
    [P.exchange e re, P.exchange e rs, P.exchange s re] 1
  { initiator := true, staticPrivate := s, symmetric := symmetric, e := some e, re := some re
    rs := some rs, msgIndex := 3, splitPair := some (symmetric.split P) }

/-- The responder after message 3. -/
def received3 (prologue : Bytes β) (s e : X) (re rs encS encPayload encS3 encPayload3 : Bytes β) :
    HandshakeState β X :=
  let symmetric := SymmetricState.after P
    [prologue, re, P.x25519PublicBytes e, encS, encPayload, encS3, encPayload3]
    [P.exchange e re, P.exchange s re, P.exchange e rs] 1
  { initiator := false, staticPrivate := s, symmetric := symmetric, e := some e, re := some re
    rs := some rs, msgIndex := 3, splitPair := some (symmetric.split P) }

/-! ## What the writers write -/

/-- The encrypted static key of message 2. -/
def encStatic2 (prologue : Bytes β) (s e : X) (re : Bytes β) : Bytes β :=
  SymmetricState.sealAfter P [prologue, re, P.x25519PublicBytes e] [P.exchange e re] 0
    (P.x25519PublicBytes s)

/-- The hash that the writer of message 2 hands to the payload builder. -/
def builderHash2 (prologue : Bytes β) (s e : X) (re : Bytes β) : Bytes β :=
  transcript P [prologue, re, P.x25519PublicBytes e, encStatic2 P prologue s e re]

/-- The encrypted payload of message 2. -/
def encPayload2 (prologue : Bytes β) (s e : X) (re payload : Bytes β) : Bytes β :=
  SymmetricState.sealAfter P
    [prologue, re, P.x25519PublicBytes e, encStatic2 P prologue s e re]
    [P.exchange e re, P.exchange s re] 0 payload

/-- The encrypted static key of message 3. -/
def encStatic3 (prologue : Bytes β) (s e : X) (re rs encS encPayload : Bytes β) : Bytes β :=
  SymmetricState.sealAfter P [prologue, P.x25519PublicBytes e, re, encS, encPayload]
    [P.exchange e re, P.exchange e rs] 1 (P.x25519PublicBytes s)

/-- The hash that the writer of message 3 hands to the payload builder. -/
def builderHash3 (prologue : Bytes β) (s e : X) (re rs encS encPayload : Bytes β) : Bytes β :=
  transcript P [prologue, P.x25519PublicBytes e, re, encS, encPayload,
    encStatic3 P prologue s e re rs encS encPayload]

/-- The encrypted payload of message 3. -/
def encPayload3 (prologue : Bytes β) (s e : X) (re rs encS encPayload payload : Bytes β) :
    Bytes β :=
  SymmetricState.sealAfter P [prologue, P.x25519PublicBytes e, re, encS, encPayload,
      encStatic3 P prologue s e re rs encS encPayload]
    [P.exchange e re, P.exchange e rs, P.exchange s re] 0 payload

variable {P}

/-! ## Single steps -/

omit [Alphabet β] [DecidableEq β] in
lemma onSymmetric_apply {α : Type} (m : Method (Exc β) (SymmetricState β) α)
    (st : HandshakeState β X) :
    onSymmetric m st = ((m st.symmetric).1, { st with symmetric := (m st.symmetric).2 }) := rfl

omit [Alphabet β] [DecidableEq β] in
lemma mixHash_apply (d : Bytes β) (st : HandshakeState β X) :
    HandshakeState.mixHash P d st =
      (.ok (), { st with symmetric := st.symmetric.mixHash P d }) := rfl

/-- `mix_key(dh(…))` on a key of the right size. -/
lemma mixDh_apply {pub : Bytes β} (hlen : pub.length = DHLEN) (priv : X)
    (st : HandshakeState β X) :
    mixDh P (some priv) (some pub) st =
      if P.exchange priv pub = zeros DHLEN then
        (.error (.valueError "X25519 produced an all-zero shared secret (low-order point)"), st)
      else (.ok (), { st with symmetric := st.symmetric.mixKey P (P.exchange priv pub) }) := by
  by_cases hz : P.exchange priv pub = zeros DHLEN
  · simp [mixDh, Method.bind_apply, Primitives.dh, loadX25519Public, hlen, hz]
  · simp [mixDh, Method.bind_apply, Primitives.dh_eq_ok hlen hz, onSymmetric_apply, hz]

omit [DecidableEq β] in
lemma new_eq (initiator : Bool) (prologue : Bytes β) (s : X) :
    HandshakeState.new P initiator s prologue =
      { initiator := initiator, staticPrivate := s, symmetric := .after P [prologue] [] 0 } := by
  rw [HandshakeState.new, SymmetricState.initial_eq, SymmetricState.mixHash_after]; rfl

/-! ## Message 1 -/

omit [DecidableEq β] in
/-- Message 1 is the ephemeral public key. -/
lemma writeMessage1_new (prologue : Bytes β) (s e : X) :
    writeMessage1 P e (HandshakeState.new P true s prologue) =
      (.ok (P.x25519PublicBytes e), sent1 P prologue s e) := by
  simp [new_eq, writeMessage1, Method.bind_apply, mixHash_apply, SymmetricState.mixHash_after,
    sent1]

omit [DecidableEq β] in
/-- The responder takes every message 1 of the right length. -/
lemma readMessage1_new (prologue message : Bytes β) (s : X) :
    readMessage1 P message (HandshakeState.new P false s prologue) =
      if message.length = DHLEN then (.ok (), received1 P prologue s message)
      else (.error (.noiseError "malformed handshake message 1"),
        HandshakeState.new P false s prologue) := by
  by_cases hlen : message.length = DHLEN
  · simp [new_eq, readMessage1, Method.bind_apply, mixHash_apply, hlen, loadX25519Public,
      SymmetricState.mixHash_after, received1]
  · simp [new_eq, readMessage1, Method.bind_apply, hlen]

/-! ## Message 2 -/

section Messages

variable (hP : P.Correct) {prologue : Bytes β} {s e : X}
include hP

/-- Everything about `write_message_2` up to the payload builder. -/
lemma writeStatic2_ok_iff {re epub encS : Bytes β} {st' : HandshakeState β X}
    (hlen : re.length = DHLEN) :
    writeStatic2 P e (received1 P prologue s re) = (.ok (epub, encS), st') ↔
      P.exchange e re ≠ zeros DHLEN ∧ P.exchange s re ≠ zeros DHLEN ∧
        epub = P.x25519PublicBytes e ∧ encS = encStatic2 P prologue s e re ∧
        st' = writing2 P prologue s e re (encStatic2 P prologue s e re) := by
  have h0 : 0 ≤ MAX_NONCE := Nat.zero_le _
  by_cases hz : P.exchange e re = zeros DHLEN
  · simp [writeStatic2, received1, Method.bind_apply, mixHash_apply, mixDh_apply hlen, hz]
  by_cases hz' : P.exchange s re = zeros DHLEN
  · simp [writeStatic2, received1, Method.bind_apply, mixHash_apply, mixDh_apply hlen, hz, hz',
      SymmetricState.mixHash_after, SymmetricState.mixKey_after hP, onSymmetric_apply,
      SymmetricState.encryptAndHash_after hP, h0]
  · simp [writeStatic2, received1, Method.bind_apply, mixHash_apply, mixDh_apply hlen, hz, hz',
      SymmetricState.mixHash_after, SymmetricState.mixKey_after hP, onSymmetric_apply,
      SymmetricState.encryptAndHash_after hP, h0, writing2, encStatic2]
    constructor
    · rintro ⟨⟨rfl, rfl⟩, rfl⟩
      exact ⟨rfl, rfl, rfl⟩
    · rintro ⟨rfl, rfl, rfl⟩
      exact ⟨⟨rfl, rfl⟩, rfl⟩

/-- Everything about a `write_message_2` call that returns. -/
lemma writeMessage2_ok_iff {re message : Bytes β} {builder : Bytes β → Bytes β}
    {st' : HandshakeState β X} (hlen : re.length = DHLEN) :
    writeMessage2 P builder e (received1 P prologue s re) = (.ok message, st') ↔
      P.exchange e re ≠ zeros DHLEN ∧ P.exchange s re ≠ zeros DHLEN ∧
        message = P.x25519PublicBytes e ++ encStatic2 P prologue s e re ++
          encPayload2 P prologue s e re (builder (builderHash2 P prologue s e re)) ∧
        st' = sent2 P prologue s e re (encStatic2 P prologue s e re)
          (encPayload2 P prologue s e re (builder (builderHash2 P prologue s e re))) := by
  have h0 : 0 ≤ MAX_NONCE := Nat.zero_le _
  -- after the static key, the identity payload is built on the hash so far and sealed
  have hrest : ∀ encS, encS = encStatic2 P prologue s e re → ∀ epub,
      epub = P.x25519PublicBytes e → (do
        let st ← Method.self
        let encPayload ← onSymmetric
          (SymmetricState.encryptAndHash P (builder st.symmetric.h))
        Method.update fun st => { st with msgIndex := 2 }
        return epub ++ encS ++ encPayload : Method (Exc β) (HandshakeState β X) (Bytes β))
        (writing2 P prologue s e re encS) =
      (.ok (P.x25519PublicBytes e ++ encStatic2 P prologue s e re ++
        encPayload2 P prologue s e re (builder (builderHash2 P prologue s e re))),
        sent2 P prologue s e re (encStatic2 P prologue s e re)
          (encPayload2 P prologue s e re (builder (builderHash2 P prologue s e re)))) := by
    rintro encS rfl epub rfl
    simp [writing2, Method.bind_apply, onSymmetric_apply, SymmetricState.encryptAndHash_after hP,
      h0, sent2, encPayload2, builderHash2]
  rw [writeMessage2, Method.bind_ok]
  constructor
  · rintro ⟨⟨epub, encS⟩, st₁, hwrite, h⟩
    obtain ⟨hz, hz', hepub, hS, rfl⟩ := (writeStatic2_ok_iff hP hlen).mp hwrite
    rw [← hS] at h
    have heq := (hrest encS hS epub hepub).symm.trans h
    obtain ⟨hm, hst⟩ := Prod.mk.inj heq
    exact ⟨hz, hz', (Except.ok.inj hm).symm, hst.symm⟩
  · rintro ⟨hz, hz', rfl, rfl⟩
    exact ⟨(_, _), _, (writeStatic2_ok_iff hP hlen).mpr ⟨hz, hz', rfl, rfl, rfl⟩,
      hrest _ rfl _ rfl⟩

/-- A `write_message_2` call that raises, raises what its caller catches. -/
lemma writeMessage2_error {re : Bytes β} {builder : Bytes β → Bytes β} {err : Exc β}
    {st' : HandshakeState β X} (hlen : re.length = DHLEN)
    (h : writeMessage2 P builder e (received1 P prologue s re) = (.error err, st')) :
    err.isNoiseOrValueError = true := by
  by_cases hz : P.exchange e re = zeros DHLEN
  · simp [writeMessage2, writeStatic2, received1, Method.bind_apply, mixHash_apply,
      mixDh_apply hlen, hz] at h
    rw [← h.1]; rfl
  by_cases hz' : P.exchange s re = zeros DHLEN
  · simp [writeMessage2, writeStatic2, received1, Method.bind_apply, mixHash_apply,
      mixDh_apply hlen, hz, hz', SymmetricState.mixHash_after, SymmetricState.mixKey_after hP,
      onSymmetric_apply, SymmetricState.encryptAndHash_after hP] at h
    rw [← h.1]; rfl
  · rw [(writeMessage2_ok_iff hP hlen).mpr ⟨hz, hz', rfl, rfl⟩] at h
    cases h

omit hP in
/-- What the initiator with ephemeral key `e` finds in a message 2 that it accepts. -/
structure Opens2 (P : Primitives β X E) (prologue : Bytes β) (e : X)
    (re encS encPayload rs payload : Bytes β) : Prop where
  ee : P.exchange e re ≠ zeros DHLEN
  length_rs : rs.length = DHLEN
  es : P.exchange e rs ≠ zeros DHLEN
  static : encS = SymmetricState.sealAfter P [prologue, P.x25519PublicBytes e, re]
    [P.exchange e re] 0 rs
  identity : encPayload = SymmetricState.sealAfter P
    [prologue, P.x25519PublicBytes e, re, encS] [P.exchange e re, P.exchange e rs] 0 payload

/-- `read_message_2` on a message of sufficient length returns what `Opens2` describes, or raises
an error that its callers catch. -/
lemma readMessage2_append {re encS encPayload : Bytes β} (hre : re.length = DHLEN)
    (hS : encS.length = DHLEN + TAGLEN) :
    (∃ rs payload, Opens2 P prologue e re encS encPayload rs payload ∧
      readMessage2 P (re ++ encS ++ encPayload) (sent1 P prologue s e) =
        (.ok (rs, transcript P [prologue, P.x25519PublicBytes e, re, encS], payload),
          received2 P prologue s e re rs encS encPayload)) ∨
    (∀ rs payload, ¬ Opens2 P prologue e re encS encPayload rs payload) ∧
      ∃ err st', readMessage2 P (re ++ encS ++ encPayload) (sent1 P prologue s e) =
        (.error err, st') ∧ err.isNoiseOrValueError = true := by
  have h0 : 0 ≤ MAX_NONCE := Nat.zero_le _
  have hlen : ¬ (re ++ encS ++ encPayload).length < DHLEN + DHLEN + TAGLEN := by
    simp only [List.length_append, hre, hS]; omega
  have htake : (re ++ encS ++ encPayload).take DHLEN = re := by
    rw [List.append_assoc]; exact List.take_left' hre
  have hmid : ((re ++ encS ++ encPayload).drop DHLEN).take (DHLEN + TAGLEN) = encS := by
    rw [List.append_assoc, List.drop_left' hre]; exact List.take_left' hS
  have hdrop : (re ++ encS ++ encPayload).drop (DHLEN + DHLEN + TAGLEN) = encPayload :=
    List.drop_left' (by simp only [List.length_append, hre, hS]; omega)
  generalize re ++ encS ++ encPayload = message at *
  -- what is left to run once the lengths are checked
  have hrun : readMessage2 P message (sent1 P prologue s e) =
      (do
        mixDh P (some e) (some re)
        let rs ← onSymmetric (SymmetricState.decryptAndHash P encS)
        Method.update fun st => { st with rs := some rs }
        let _ ← Method.eval (loadX25519Public rs)
        mixDh P (some e) (some rs)
        let st ← Method.self
        let payload ← onSymmetric (SymmetricState.decryptAndHash P encPayload)
        Method.update fun st => { st with msgIndex := 2 }
        return (rs, st.symmetric.h, payload) :
        Method (Exc β) (HandshakeState β X) (Bytes β × Bytes β × Bytes β))
        { sent1 P prologue s e with
          re := some re, symmetric := .after P [prologue, P.x25519PublicBytes e, re] [] 0 } := by
    rw [readMessage2, Method.self_bind, if_neg (by simp [sent1]), if_neg hlen, htake, hmid, hdrop]
    simp [Method.bind_apply, loadX25519Public, hre, mixHash_apply, SymmetricState.mixHash_after,
      sent1]
  rw [hrun]
  by_cases hee : P.exchange e re = zeros DHLEN
  · refine Or.inr ⟨fun rs payload h => h.ee hee, ?_⟩
    simp [Method.bind_apply, mixDh_apply, hre, hee, Exc.isNoiseOrValueError]
  rcases hdec : P.chachaDecrypt (noiseKeys P [P.exchange e re]).2 (nonceBytes 0) encS
      (transcript P [prologue, P.x25519PublicBytes e, re]) with _ | rs
  · refine Or.inr ⟨fun rs payload h => ?_, ?_⟩
    · rw [(SymmetricState.decrypt_eq_some_iff hP).mpr h.static] at hdec
      cases hdec
    · simp [Method.bind_apply, mixDh_apply, hre, hee, onSymmetric_apply,
        SymmetricState.mixKey_after hP, SymmetricState.decryptAndHash_after hP, h0, hdec,
        Exc.isNoiseOrValueError]
  have hstatic := (SymmetricState.decrypt_eq_some_iff hP).mp hdec
  have hunique : ∀ rs' payload, Opens2 P prologue e re encS encPayload rs' payload → rs' = rs :=
    fun rs' payload h => hP.encrypt_inj (h.static.symm.trans hstatic)
  by_cases hrs : rs.length = DHLEN
  swap
  · refine Or.inr ⟨fun rs' payload h => hrs (hunique _ _ h ▸ h.length_rs), ?_⟩
    simp [Method.bind_apply, mixDh_apply, hre, hee, onSymmetric_apply,
      SymmetricState.mixKey_after hP, SymmetricState.decryptAndHash_after hP, h0, hdec,
      loadX25519Public, hrs, Exc.isNoiseOrValueError]
  by_cases hes : P.exchange e rs = zeros DHLEN
  · refine Or.inr ⟨fun rs' payload h => h.es (hunique _ _ h ▸ hes), ?_⟩
    simp [Method.bind_apply, mixDh_apply, hre, hee, onSymmetric_apply,
      SymmetricState.mixKey_after hP, SymmetricState.decryptAndHash_after hP, h0, hdec,
      loadX25519Public, hrs, hes, Exc.isNoiseOrValueError]
  rcases hdec' : P.chachaDecrypt (noiseKeys P [P.exchange e re, P.exchange e rs]).2 (nonceBytes 0)
      encPayload (transcript P [prologue, P.x25519PublicBytes e, re, encS]) with _ | payload
  · refine Or.inr ⟨fun rs' payload h => ?_, ?_⟩
    · obtain rfl := hunique _ _ h
      rw [(SymmetricState.decrypt_eq_some_iff hP).mpr h.identity] at hdec'
      cases hdec'
    · simp [Method.bind_apply, mixDh_apply, hre, hee, onSymmetric_apply,
        SymmetricState.mixKey_after hP, SymmetricState.decryptAndHash_after hP, h0, hdec,
        loadX25519Public, hrs, hes, hdec', Exc.isNoiseOrValueError]
  · refine Or.inl ⟨rs, payload, ⟨hee, hrs, hes, hstatic,
      (SymmetricState.decrypt_eq_some_iff hP).mp hdec'⟩, ?_⟩
    simp [Method.bind_apply, mixDh_apply, hre, hee, onSymmetric_apply,
      SymmetricState.mixKey_after hP, SymmetricState.decryptAndHash_after hP, h0, hdec,
      loadX25519Public, hrs, hes, hdec', received2, sent1]

omit hP [Alphabet β] [DecidableEq β] in
/-- A message that is not shorter than its fixed part splits at the fields. -/
lemma exists_fields {message : Bytes β} {a b : ℕ} (h : a + b ≤ message.length) :
    ∃ m₁ m₂ m₃ : Bytes β, message = m₁ ++ m₂ ++ m₃ ∧ m₁.length = a ∧ m₂.length = b := by
  refine ⟨message.take a, (message.drop a).take b, (message.drop a).drop b, ?_, ?_, ?_⟩
  · rw [List.append_assoc, List.take_append_drop, List.take_append_drop]
  · rw [List.length_take]; omega
  · rw [List.length_take, List.length_drop]; omega

omit hP in
/-- The length check of `read_message_2`. -/
lemma readMessage2_of_short {message : Bytes β}
    (h : message.length < DHLEN + DHLEN + TAGLEN) (st : HandshakeState β X) :
    ∃ m, readMessage2 P message st = (.error (.noiseError m), st) := by
  rw [readMessage2, Method.self_bind]
  by_cases hst : st.initiator = false ∨ st.msgIndex ≠ 1
  · rw [if_pos hst]; exact ⟨_, rfl⟩
  · rw [if_neg hst, if_pos h]; exact ⟨_, rfl⟩

/-- Everything about a `read_message_2` call that returns. -/
lemma readMessage2_ok_iff {message rs h payload : Bytes β} {st' : HandshakeState β X} :
    readMessage2 P message (sent1 P prologue s e) = (.ok (rs, h, payload), st') ↔
      ∃ re encS encPayload, message = re ++ encS ++ encPayload ∧ re.length = DHLEN ∧
        encS.length = DHLEN + TAGLEN ∧ Opens2 P prologue e re encS encPayload rs payload ∧
        h = transcript P [prologue, P.x25519PublicBytes e, re, encS] ∧
        st' = received2 P prologue s e re rs encS encPayload := by
  constructor
  · intro hread
    rcases Nat.lt_or_ge message.length (DHLEN + DHLEN + TAGLEN) with hlt | hge
    · obtain ⟨m, herr⟩ := readMessage2_of_short (P := P) hlt (sent1 P prologue s e)
      rw [herr] at hread
      cases hread
    · obtain ⟨re, encS, encPayload, rfl, hre, hS⟩ := exists_fields (Nat.add_assoc .. ▸ hge)
      rcases readMessage2_append hP hre hS (s := s) with ⟨rs', payload', hopens, hok⟩ | ⟨-, herr⟩
      · rw [hok] at hread
        simp only [Prod.mk.injEq, Except.ok.injEq] at hread
        obtain ⟨⟨rfl, rfl, rfl⟩, rfl⟩ := hread
        exact ⟨re, encS, encPayload, rfl, hre, hS, hopens, rfl, rfl⟩
      · obtain ⟨err, st₁, herr, -⟩ := herr
        rw [herr] at hread
        cases hread
  · rintro ⟨re, encS, encPayload, rfl, hre, hS, hopens, rfl, rfl⟩
    rcases readMessage2_append hP hre hS (s := s) with ⟨rs', payload', hopens', hok⟩ | ⟨hno, -⟩
    · obtain rfl := hP.encrypt_inj (hopens.static.symm.trans hopens'.static)
      obtain rfl := hP.encrypt_inj (hopens.identity.symm.trans hopens'.identity)
      exact hok
    · exact absurd hopens (hno _ _)

/-- A `read_message_2` call that raises, raises what its caller catches. -/
lemma readMessage2_error {message : Bytes β} {err : Exc β} {st' : HandshakeState β X}
    (h : readMessage2 P message (sent1 P prologue s e) = (.error err, st')) :
    err.isNoiseOrValueError = true := by
  rcases Nat.lt_or_ge message.length (DHLEN + DHLEN + TAGLEN) with hlt | hge
  · obtain ⟨m, herr⟩ := readMessage2_of_short (P := P) hlt (sent1 P prologue s e)
    rw [herr] at h
    cases h
    rfl
  · obtain ⟨re, encS, encPayload, rfl, hre, hS⟩ := exists_fields (Nat.add_assoc .. ▸ hge)
    rcases readMessage2_append hP hre hS (s := s) with ⟨_, _, -, hok⟩ | ⟨-, err', _, herr, hc⟩
    · rw [hok] at h
      cases h
    · rw [herr] at h
      cases h
      exact hc

/-! ## Message 3 -/

/-- Everything about `write_message_3` up to the payload builder. -/
lemma writeStatic3_ok_iff {re rs encS encPayload encS3 : Bytes β} {st' : HandshakeState β X}
    (hlen : re.length = DHLEN) :
    writeStatic3 P (received2 P prologue s e re rs encS encPayload) = (.ok encS3, st') ↔
      P.exchange s re ≠ zeros DHLEN ∧
        encS3 = encStatic3 P prologue s e re rs encS encPayload ∧
        st' = writing3 P prologue s e re rs encS encPayload encS3 := by
  have h1 : 1 ≤ MAX_NONCE := by decide
  by_cases hz : P.exchange s re = zeros DHLEN
  · simp [writeStatic3, received2, Method.bind_apply, mixDh_apply hlen, hz, onSymmetric_apply,
      SymmetricState.encryptAndHash_after hP, h1]
  · simp [writeStatic3, received2, Method.bind_apply, mixDh_apply hlen, hz, onSymmetric_apply,
      SymmetricState.encryptAndHash_after hP, SymmetricState.mixKey_after hP, h1, writing3,
      encStatic3]
    constructor <;> (rintro ⟨rfl, rfl⟩; exact ⟨rfl, rfl⟩)

/-- Everything about a `write_message_3` call that returns. -/
lemma writeMessage3_ok_iff {re rs encS encPayload message : Bytes β}
    {builder : Bytes β → Bytes β} {st' : HandshakeState β X} (hlen : re.length = DHLEN) :
    writeMessage3 P builder (received2 P prologue s e re rs encS encPayload) =
        (.ok message, st') ↔
      P.exchange s re ≠ zeros DHLEN ∧
        message = encStatic3 P prologue s e re rs encS encPayload ++
          encPayload3 P prologue s e re rs encS encPayload
            (builder (builderHash3 P prologue s e re rs encS encPayload)) ∧
        st' = sent3 P prologue s e re rs encS encPayload
          (encStatic3 P prologue s e re rs encS encPayload)
          (encPayload3 P prologue s e re rs encS encPayload
            (builder (builderHash3 P prologue s e re rs encS encPayload))) := by
  have h0 : 0 ≤ MAX_NONCE := Nat.zero_le _
  rw [writeMessage3, Method.bind_ok]
  constructor
  · rintro ⟨encS3, st₁, hwrite, h⟩
    obtain ⟨hz, rfl, rfl⟩ := (writeStatic3_ok_iff hP hlen).mp hwrite
    simp [writing3, Method.bind_apply, onSymmetric_apply, SymmetricState.encryptAndHash_after hP,
      h0] at h
    exact ⟨hz, h.1.symm, h.2.symm⟩
  · rintro ⟨hz, rfl, rfl⟩
    refine ⟨_, _, (writeStatic3_ok_iff hP hlen).mpr ⟨hz, rfl, rfl⟩, ?_⟩
    simp [writing3, Method.bind_apply, onSymmetric_apply, SymmetricState.encryptAndHash_after hP,
      h0, sent3, encPayload3, builderHash3]

/-- A `write_message_3` call that raises leaves the index where it was. -/
lemma writeMessage3_error {re rs encS encPayload : Bytes β} {builder : Bytes β → Bytes β}
    {err : Exc β} {st' : HandshakeState β X} (hlen : re.length = DHLEN)
    (h : writeMessage3 P builder (received2 P prologue s e re rs encS encPayload) =
      (.error err, st')) : st'.msgIndex = 2 := by
  have h1 : 1 ≤ MAX_NONCE := by decide
  by_cases hz : P.exchange s re = zeros DHLEN
  · simp [writeMessage3, writeStatic3, received2, Method.bind_apply, mixDh_apply hlen, hz,
      onSymmetric_apply, SymmetricState.encryptAndHash_after hP, h1] at h
    rw [← h.2]
  · rw [(writeMessage3_ok_iff hP hlen).mpr ⟨hz, rfl, rfl⟩] at h
    cases h

omit hP in
/-- What the responder with static key `s` and ephemeral key `e` finds in a message 3 that it
accepts. -/
structure Opens3 (P : Primitives β X E) (prologue : Bytes β) (s e : X)
    (re encS encPayload encS3 encPayload3 rs payload : Bytes β) : Prop where
  length_rs : rs.length = DHLEN
  se : P.exchange e rs ≠ zeros DHLEN
  static : encS3 = SymmetricState.sealAfter P
    [prologue, re, P.x25519PublicBytes e, encS, encPayload]
    [P.exchange e re, P.exchange s re] 1 rs
  identity : encPayload3 = SymmetricState.sealAfter P
    [prologue, re, P.x25519PublicBytes e, encS, encPayload, encS3]
    [P.exchange e re, P.exchange s re, P.exchange e rs] 0 payload

/-- `read_message_3` on a message of sufficient length returns what `Opens3` describes, or raises
an error that its callers catch. -/
lemma readMessage3_append {re encS encPayload encS3 encPayload3 : Bytes β}
    (hS : encS3.length = DHLEN + TAGLEN) :
    (∃ rs payload, Opens3 P prologue s e re encS encPayload encS3 encPayload3 rs payload ∧
      readMessage3 P (encS3 ++ encPayload3) (sent2 P prologue s e re encS encPayload) =
        (.ok (rs, transcript P [prologue, re, P.x25519PublicBytes e, encS, encPayload, encS3],
          payload), received3 P prologue s e re rs encS encPayload encS3 encPayload3)) ∨
    (∀ rs payload, ¬ Opens3 P prologue s e re encS encPayload encS3 encPayload3 rs payload) ∧
      ∃ err st', readMessage3 P (encS3 ++ encPayload3) (sent2 P prologue s e re encS encPayload) =
        (.error err, st') ∧ err.isNoiseOrValueError = true := by
  have h0 : 0 ≤ MAX_NONCE := Nat.zero_le _
  have h1 : 1 ≤ MAX_NONCE := by decide
  have hlen : ¬ (encS3 ++ encPayload3).length < DHLEN + TAGLEN := by
    simp only [List.length_append, hS]; omega
  have htake : (encS3 ++ encPayload3).take (DHLEN + TAGLEN) = encS3 := List.take_left' hS
  have hdrop : (encS3 ++ encPayload3).drop (DHLEN + TAGLEN) = encPayload3 := List.drop_left' hS
  generalize encS3 ++ encPayload3 = message at *
  rcases hdec : P.chachaDecrypt (noiseKeys P [P.exchange e re, P.exchange s re]).2 (nonceBytes 1)
      encS3 (transcript P [prologue, re, P.x25519PublicBytes e, encS, encPayload]) with _ | rs
  · refine Or.inr ⟨fun rs payload h => ?_, ?_⟩
    · rw [(SymmetricState.decrypt_eq_some_iff hP).mpr h.static] at hdec
      cases hdec
    · simp [readMessage3, sent2, hlen, htake, Method.bind_apply, onSymmetric_apply,
        SymmetricState.decryptAndHash_after hP, h1, hdec, Exc.isNoiseOrValueError]
  have hstatic := (SymmetricState.decrypt_eq_some_iff hP).mp hdec
  -- whatever opens has the static key that was read
  have hunique : ∀ rs' payload,
      Opens3 P prologue s e re encS encPayload encS3 encPayload3 rs' payload → rs' = rs :=
    fun rs' payload h => hP.encrypt_inj (h.static.symm.trans hstatic)
  by_cases hrs : rs.length = DHLEN
  swap
  · refine Or.inr ⟨fun rs' payload h => hrs (hunique _ _ h ▸ h.length_rs), ?_⟩
    simp [readMessage3, sent2, hlen, htake, Method.bind_apply, onSymmetric_apply,
      SymmetricState.decryptAndHash_after hP, h1, hdec, loadX25519Public, hrs,
      Exc.isNoiseOrValueError]
  -- the static key loads, but its exchange may be all zeros
  by_cases hse : P.exchange e rs = zeros DHLEN
  · refine Or.inr ⟨fun rs' payload h => h.se (hunique _ _ h ▸ hse), ?_⟩
    simp [readMessage3, sent2, hlen, htake, Method.bind_apply, onSymmetric_apply,
      SymmetricState.decryptAndHash_after hP, h1, hdec, loadX25519Public, hrs, mixDh_apply, hse,
      Exc.isNoiseOrValueError]
  rcases hdec' : P.chachaDecrypt
      (noiseKeys P [P.exchange e re, P.exchange s re, P.exchange e rs]).2 (nonceBytes 0) encPayload3
      (transcript P [prologue, re, P.x25519PublicBytes e, encS, encPayload, encS3]) with _ | payload
  · refine Or.inr ⟨fun rs' payload h => ?_, ?_⟩
    · obtain rfl := hunique _ _ h
      rw [(SymmetricState.decrypt_eq_some_iff hP).mpr h.identity] at hdec'
      cases hdec'
    · simp [readMessage3, sent2, hlen, htake, hdrop, Method.bind_apply, onSymmetric_apply,
        SymmetricState.decryptAndHash_after hP, h1, h0, hdec, loadX25519Public, hrs, mixDh_apply,
        hse, SymmetricState.mixKey_after hP, hdec', Exc.isNoiseOrValueError]
  · refine Or.inl ⟨rs, payload, ⟨hrs, hse, hstatic,
      (SymmetricState.decrypt_eq_some_iff hP).mp hdec'⟩, ?_⟩
    simp [readMessage3, sent2, hlen, htake, hdrop, Method.bind_apply, onSymmetric_apply,
      SymmetricState.decryptAndHash_after hP, h1, h0, hdec, loadX25519Public, hrs, mixDh_apply,
      hse, SymmetricState.mixKey_after hP, hdec', received3]

omit hP in
/-- The length check of `read_message_3`. -/
lemma readMessage3_of_short {message : Bytes β} (h : message.length < DHLEN + TAGLEN)
    (st : HandshakeState β X) : ∃ m, readMessage3 P message st = (.error (.noiseError m), st) := by
  rw [readMessage3, Method.self_bind]
  by_cases hst : st.initiator = true ∨ st.msgIndex ≠ 2
  · rw [if_pos hst]; exact ⟨_, rfl⟩
  · rw [if_neg hst, if_pos h]; exact ⟨_, rfl⟩

omit hP [Alphabet β] [DecidableEq β] in
lemma exists_fields3 {message : Bytes β} (h : DHLEN + TAGLEN ≤ message.length) :
    ∃ encS3 encPayload3 : Bytes β, message = encS3 ++ encPayload3 ∧
      encS3.length = DHLEN + TAGLEN :=
  ⟨message.take (DHLEN + TAGLEN), message.drop (DHLEN + TAGLEN), (List.take_append_drop _ _).symm,
    by rw [List.length_take]; omega⟩

/-- Everything about a `read_message_3` call that returns. -/
lemma readMessage3_ok_iff {re encS encPayload message rs h payload : Bytes β}
    {st' : HandshakeState β X} :
    readMessage3 P message (sent2 P prologue s e re encS encPayload) =
        (.ok (rs, h, payload), st') ↔
      ∃ encS3 encPayload3, message = encS3 ++ encPayload3 ∧ encS3.length = DHLEN + TAGLEN ∧
        Opens3 P prologue s e re encS encPayload encS3 encPayload3 rs payload ∧
        h = transcript P [prologue, re, P.x25519PublicBytes e, encS, encPayload, encS3] ∧
        st' = received3 P prologue s e re rs encS encPayload encS3 encPayload3 := by
  constructor
  · intro hread
    rcases Nat.lt_or_ge message.length (DHLEN + TAGLEN) with hlt | hge
    · obtain ⟨m, herr⟩ := readMessage3_of_short (P := P) hlt
        (sent2 P prologue s e re encS encPayload)
      rw [herr] at hread
      cases hread
    · obtain ⟨encS3, encPayload3, rfl, hS⟩ := exists_fields3 hge
      rcases readMessage3_append hP hS with ⟨rs', payload', hopens, hok⟩ | ⟨-, _, _, herr, -⟩
      · rw [hok] at hread
        simp only [Prod.mk.injEq, Except.ok.injEq] at hread
        obtain ⟨⟨rfl, rfl, rfl⟩, rfl⟩ := hread
        exact ⟨encS3, encPayload3, rfl, hS, hopens, rfl, rfl⟩
      · rw [herr] at hread
        cases hread
  · rintro ⟨encS3, encPayload3, rfl, hS, hopens, rfl, rfl⟩
    rcases readMessage3_append hP hS with ⟨rs', payload', hopens', hok⟩ | ⟨hno, -⟩
    · obtain rfl := hP.encrypt_inj (hopens.static.symm.trans hopens'.static)
      obtain rfl := hP.encrypt_inj (hopens.identity.symm.trans hopens'.identity)
      exact hok
    · exact absurd hopens (hno _ _)

/-- A `read_message_3` call that raises, raises what its caller catches. -/
lemma readMessage3_error {re encS encPayload message : Bytes β} {err : Exc β}
    {st' : HandshakeState β X}
    (h : readMessage3 P message (sent2 P prologue s e re encS encPayload) = (.error err, st')) :
    err.isNoiseOrValueError = true := by
  rcases Nat.lt_or_ge message.length (DHLEN + TAGLEN) with hlt | hge
  · obtain ⟨m, herr⟩ := readMessage3_of_short (P := P) hlt
      (sent2 P prologue s e re encS encPayload)
    rw [herr] at h
    cases h
    rfl
  · obtain ⟨encS3, encPayload3, rfl, hS⟩ := exists_fields3 hge
    rcases readMessage3_append hP hS with ⟨_, _, -, hok⟩ | ⟨-, _, _, herr, hc⟩
    · rw [hok] at h
      cases h
    · rw [herr] at h
      cases h
      exact hc

omit hP in
/-- A handshake that is past message 2 rejects another one. -/
lemma readMessage2_of_index {st : HandshakeState β X} (h : st.msgIndex ≠ 1) (message : Bytes β) :
    readMessage2 P message st = (.error (.noiseError "read_message_2 out of order"), st) := by
  rw [readMessage2, Method.self_bind, if_pos (Or.inr h)]; rfl

omit hP in
/-- A handshake that is past message 3 rejects another one. -/
lemma readMessage3_of_index {st : HandshakeState β X} (h : st.msgIndex ≠ 2) (message : Bytes β) :
    readMessage3 P message st = (.error (.noiseError "read_message_3 out of order"), st) := by
  rw [readMessage3, Method.self_bind, if_pos (Or.inr h)]; rfl

end Messages

end HandshakeState

end Chatbit
