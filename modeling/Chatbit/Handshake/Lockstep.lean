import Chatbit.Crypto.NoiseTheorems

/-!
# The two sides of the XX pattern

The writer and the reader of each message mix the same data and the same secrets, so after each
message they are in the same symmetric state.
-/

namespace Chatbit

open Lib

variable {β X E : Type} [Alphabet β] [DecidableEq β] {P : Primitives β X E}

namespace HandshakeState

/-- Equal transcript hashes and chaining keys. -/
def Agree (st st' : HandshakeState β X) : Prop :=
  st.symmetric.h = st'.symmetric.h ∧ st.symmetric.ck = st'.symmetric.ck

omit [Alphabet β] [DecidableEq β] in
lemma Agree.of_symmetric {st st' : HandshakeState β X} (h : st.symmetric = st'.symmetric) :
    Agree st st' := ⟨congrArg _ h, congrArg _ h⟩

omit [DecidableEq β] in
lemma split_sent3 (prologue : Bytes β) (s e : X)
    (re rs encS encPayload encS3 encPayload3 : Bytes β) :
    (sent3 P prologue s e re rs encS encPayload encS3 encPayload3).split =
      .ok ((sent3 P prologue s e re rs encS encPayload encS3 encPayload3).symmetric.split P) := rfl

omit [DecidableEq β] in
lemma split_received3 (prologue : Bytes β) (s e : X)
    (re rs encS encPayload encS3 encPayload3 : Bytes β) :
    (received3 P prologue s e re rs encS encPayload encS3 encPayload3).split =
      .ok ((received3 P prologue s e re rs encS encPayload encS3 encPayload3).symmetric.split
        P).swap := rfl

section Symmetric

variable (hP : P.Correct) (prologue : Bytes β) (sI sR eI eR : X)
include hP

omit [DecidableEq β] in
lemma received2_symmetric (encS encPayload : Bytes β) :
    (received2 P prologue sI eI (P.x25519PublicBytes eR) (P.x25519PublicBytes sR) encS
        encPayload).symmetric =
      (sent2 P prologue sR eR (P.x25519PublicBytes eI) encS encPayload).symmetric := by
  simp only [received2, sent2, hP.exchange_comm eI eR, hP.exchange_comm eI sR]

omit [DecidableEq β] in
lemma received3_symmetric (encS encPayload encS3 encPayload3 : Bytes β) :
    (received3 P prologue sR eR (P.x25519PublicBytes eI) (P.x25519PublicBytes sI) encS encPayload
        encS3 encPayload3).symmetric =
      (sent3 P prologue sI eI (P.x25519PublicBytes eR) (P.x25519PublicBytes sR) encS encPayload
        encS3 encPayload3).symmetric := by
  simp only [received3, sent3, hP.exchange_comm eR eI, hP.exchange_comm sR eI,
    hP.exchange_comm eR sI]

omit [DecidableEq β] in
/-- Message 2 opens for the initiator whose key it answers. -/
lemma opens2_of_sent (payload : Bytes β) :
    Opens2 P prologue eI (P.x25519PublicBytes eR)
      (encStatic2 P prologue sR eR (P.x25519PublicBytes eI))
      (encPayload2 P prologue sR eR (P.x25519PublicBytes eI) payload)
      (P.x25519PublicBytes sR) payload where
  ee := hP.exchange_ne_zero eI eR
  length_rs := hP.length_x25519Public sR
  es := hP.exchange_ne_zero eI sR
  static := by rw [encStatic2, hP.exchange_comm eI eR]
  identity := by rw [encPayload2, hP.exchange_comm eI eR, hP.exchange_comm eI sR]

omit [DecidableEq β] in
/-- Message 3 opens for the responder whose message 2 it answers. -/
lemma opens3_of_sent (encS encPayload payload : Bytes β) :
    Opens3 P prologue sR eR (P.x25519PublicBytes eI) encS encPayload
      (encStatic3 P prologue sI eI (P.x25519PublicBytes eR) (P.x25519PublicBytes sR) encS
        encPayload)
      (encPayload3 P prologue sI eI (P.x25519PublicBytes eR) (P.x25519PublicBytes sR) encS
        encPayload payload)
      (P.x25519PublicBytes sI) payload where
  length_rs := hP.length_x25519Public sI
  se := hP.exchange_ne_zero eR sI
  static := by rw [encStatic3, hP.exchange_comm eR eI, hP.exchange_comm sR eI]
  identity := by
    rw [encPayload3, hP.exchange_comm eR eI, hP.exchange_comm sR eI, hP.exchange_comm eR sI]

end Symmetric

end HandshakeState

open HandshakeState

/-- The handshake objects of the two sides after each message, the messages, and the hashes that
the payload builders of messages 2 and 3 get. -/
structure PatternRun (β X : Type) where
  initiator₁ : HandshakeState β X
  initiator₂ : HandshakeState β X
  initiator₃ : HandshakeState β X
  responder₁ : HandshakeState β X
  responder₂ : HandshakeState β X
  responder₃ : HandshakeState β X
  message₁ : Bytes β
  message₂ : Bytes β
  message₃ : Bytes β
  hash₂ : Bytes β
  hash₃ : Bytes β

namespace PatternRun

/-- The run is that of the two sides with these keys, each reader gets the static key of the writer
and the hash that the writer's payload was built from, the sides agree after each message, and
their transport keys are mirrored. -/
structure Lockstep (P : Primitives β X E) (prologue : Bytes β) (sI sR eI eR : X)
    (builder₂ builder₃ : Bytes β → Bytes β) (run : PatternRun β X) : Prop where
  write₁ : writeMessage1 P eI (new P true sI prologue) = (.ok run.message₁, run.initiator₁)
  read₁ : readMessage1 P run.message₁ (new P false sR prologue) = (.ok (), run.responder₁)
  agree₁ : Agree run.initiator₁ run.responder₁
  write₂ : writeMessage2 P builder₂ eR run.responder₁ = (.ok run.message₂, run.responder₂)
  built₂ : (writeStatic2 P eR run.responder₁).2.symmetric.h = run.hash₂
  read₂ : readMessage2 P run.message₂ run.initiator₁ =
    (.ok (P.x25519PublicBytes sR, run.hash₂, builder₂ run.hash₂), run.initiator₂)
  agree₂ : Agree run.initiator₂ run.responder₂
  write₃ : writeMessage3 P builder₃ run.initiator₂ = (.ok run.message₃, run.initiator₃)
  built₃ : (writeStatic3 P run.initiator₂).2.symmetric.h = run.hash₃
  read₃ : readMessage3 P run.message₃ run.responder₂ =
    (.ok (P.x25519PublicBytes sI, run.hash₃, builder₃ run.hash₃), run.responder₃)
  agree₃ : Agree run.initiator₃ run.responder₃
  mirrored : ∃ k₁ k₂, run.initiator₃.split = .ok (k₁, k₂) ∧ run.responder₃.split = .ok (k₂, k₁)

section Between

variable (P : Primitives β X E) (prologue : Bytes β) (sI sR eI eR : X)
  (builder₂ builder₃ : Bytes β → Bytes β)

/-- The run between two sides. -/
def between : PatternRun β X :=
  let re := P.x25519PublicBytes eI
  let encS := encStatic2 P prologue sR eR re
  let hash₂ := builderHash2 P prologue sR eR re
  let encPayload := encPayload2 P prologue sR eR re (builder₂ hash₂)
  let epub := P.x25519PublicBytes eR
  let spub := P.x25519PublicBytes sR
  let encS₃ := encStatic3 P prologue sI eI epub spub encS encPayload
  let hash₃ := builderHash3 P prologue sI eI epub spub encS encPayload
  let encPayload₃ := encPayload3 P prologue sI eI epub spub encS encPayload (builder₃ hash₃)
  { initiator₁ := sent1 P prologue sI eI
    initiator₂ := received2 P prologue sI eI epub spub encS encPayload
    initiator₃ := sent3 P prologue sI eI epub spub encS encPayload encS₃ encPayload₃
    responder₁ := received1 P prologue sR re
    responder₂ := sent2 P prologue sR eR re encS encPayload
    responder₃ := received3 P prologue sR eR re (P.x25519PublicBytes sI) encS encPayload encS₃
      encPayload₃
    message₁ := re
    message₂ := epub ++ encS ++ encPayload
    message₃ := encS₃ ++ encPayload₃
    hash₂ := hash₂
    hash₃ := hash₃ }

variable {P}

lemma between_lockstep (hP : P.Correct) :
    (between P prologue sI sR eI eR builder₂ builder₃).Lockstep P prologue sI sR eI eR builder₂
      builder₃ := by
  have hI := hP.length_x25519Public eI
  have hR := hP.length_x25519Public eR
  -- honest keys have no zero secret, which is all that the handshake could fail on
  have hee := hP.exchange_ne_zero eR eI
  have hse := hP.exchange_ne_zero sR eI
  have hS : (encStatic2 P prologue sR eR (P.x25519PublicBytes eI)).length = DHLEN + TAGLEN := by
    rw [encStatic2, SymmetricState.length_sealAfter hP, hP.length_x25519Public]
  constructor
  case write₁ => exact writeMessage1_new prologue sI eI
  case read₁ => exact (readMessage1_new prologue _ sR).trans (if_pos hI)
  case agree₁ => exact .of_symmetric rfl
  case write₂ => exact (writeMessage2_ok_iff hP hI).mpr ⟨hee, hse, rfl, rfl⟩
  case built₂ =>
    have hw : writeStatic2 P eR (received1 P prologue sR (P.x25519PublicBytes eI)) =
        (.ok (_, _), writing2 P prologue sR eR (P.x25519PublicBytes eI) _) :=
      (writeStatic2_ok_iff hP hI).mpr ⟨hee, hse, rfl, rfl, rfl⟩
    exact congrArg (fun r => r.2.symmetric.h) hw
  case read₂ =>
    exact (readMessage2_ok_iff hP).mpr ⟨_, _, _, rfl, hR, hS, opens2_of_sent hP .., rfl, rfl⟩
  case agree₂ => exact .of_symmetric (received2_symmetric hP ..)
  case write₃ =>
    exact (writeMessage3_ok_iff hP hR).mpr ⟨hP.exchange_ne_zero sI eR, rfl, rfl⟩
  case built₃ =>
    have hw : writeStatic3 P (between P prologue sI sR eI eR builder₂ builder₃).initiator₂ =
        (.ok _,
          writing3 P prologue sI eI (P.x25519PublicBytes eR) (P.x25519PublicBytes sR) _ _ _) :=
      (writeStatic3_ok_iff hP hR).mpr ⟨hP.exchange_ne_zero sI eR, rfl, rfl⟩
    exact congrArg (fun r => r.2.symmetric.h) hw
  case read₃ =>
    refine (readMessage3_ok_iff hP).mpr ⟨_, _, rfl, ?_, opens3_of_sent hP .., rfl, rfl⟩
    rw [encStatic3, SymmetricState.length_sealAfter hP, hP.length_x25519Public]
  case agree₃ => exact .of_symmetric (received3_symmetric hP ..).symm
  case mirrored =>
    refine ⟨_, _, split_sent3 .., ?_⟩
    rw [show (between P prologue sI sR eI eR builder₂ builder₃).responder₃ =
      received3 P prologue sR eR (P.x25519PublicBytes eI) (P.x25519PublicBytes sI) _ _ _ _ from rfl,
      split_received3, received3_symmetric hP]
    rfl

end Between

end PatternRun

end Chatbit
