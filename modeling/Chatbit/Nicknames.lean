import Chatbit.Crypto.Symbolic
import Chatbit.NodeFlood
import Chatbit.Utf8

/-!
# Nicknames

Handshakes and beacons carry the first 64 octets of a nickname. Everything else in an identity
payload is read back as it was written, and of the nickname as many characters as fit, unless the
octets end inside a character.
-/

namespace Chatbit

open Node

variable {β X E : Type} [Alphabet β] [DecidableEq β] {P : Primitives β X E}

/-! ## Identity payloads -/

/-- What has been read are the keys and the signature that were written, and of the nickname as
many characters as fit into 64 octets. -/
def ReadsBack (P : Primitives β X E) (identity : Identity X E) (ratchetPub : Option (Bytes β))
    (handshakeHash : Bytes β) (claim : IdentityPayload β) : Prop :=
  claim.signingPub = identity.signingPublic P ∧
    claim.signature = identity.signTranscript P handshakeHash ∧ claim.ratchetPub = ratchetPub ∧
    IsLongestFitting 64 identity.nickname.toList claim.nickname.toList

omit [DecidableEq β] in
/-- An identity payload is read back exactly if the nickname is not cut inside a character. -/
theorem readsBack_iff (hP : P.Correct) (identity : Identity X E) (handshakeHash : Bytes β)
    {ratchetPub : Option (Bytes β)} (hr : ∀ r ∈ ratchetPub, r.length = PUBKEY_LEN) :
    (∃ claim, decodeIdentityPayload (encodeIdentityPayload P identity ratchetPub handshakeHash)
      ratchetPub.isSome = .ok claim ∧ ReadsBack P identity ratchetPub handshakeHash claim) ↔
      CutsBetween 64 identity.nickname.toList := by
  rw [decodeIdentityPayload_encode hP identity handshakeHash hr]
  rw [← isLongestFitting_decode_iff (β := β)]
  constructor
  · rintro ⟨claim, hclaim, -, -, -, hnickname⟩
    rw [← Except.ok.inj hclaim] at hnickname
    exact hnickname
  · exact fun hnickname => ⟨_, rfl, rfl, rfl, rfl, hnickname⟩

/-- A short nickname. -/
theorem readsBack_short :
    ∃ claim, decodeIdentityPayload (encodeIdentityPayload symbolic
      { signingPrivate := 10, staticPrivate := 11, nickname := "Zoë" }
      (some (symbolic.x25519PublicBytes 12)) []) true = .ok claim ∧
      ReadsBack symbolic { signingPrivate := 10, staticPrivate := 11, nickname := "Zoë" }
        (some (symbolic.x25519PublicBytes 12)) [] claim := by
  refine (readsBack_iff symbolic_correct _ _ ?_).mpr (Or.inl (by decide))
  rintro r ⟨⟩
  exact symbolic_correct.length_x25519Public 12

/-- 63 letters, and a character of two octets after them. -/
theorem readsBack_cut :
    ¬ ∀ (identity : Identity ℕ ℕ) (ratchetPub : Option (Bytes SymByte))
      (handshakeHash : Bytes SymByte), (∀ r ∈ ratchetPub, r.length = PUBKEY_LEN) →
      ∃ claim, decodeIdentityPayload
        (encodeIdentityPayload symbolic identity ratchetPub handshakeHash) ratchetPub.isSome =
          .ok claim ∧ ReadsBack symbolic identity ratchetPub handshakeHash claim := by
  intro h
  have hnone : ∀ r ∈ (none : Option (Bytes SymByte)), r.length = PUBKEY_LEN := by
    rintro r ⟨⟩
  obtain ⟨claim, hclaim, -, -, -, hnickname⟩ := h
    { signingPrivate := 10, staticPrivate := 11,
      nickname := String.ofList (List.replicate 63 'n' ++ ['é']) } none [] hnone
  rw [decodeIdentityPayload_encode symbolic_correct _ _ hnone] at hclaim
  rw [← Except.ok.inj hclaim] at hnickname
  have hcut := (isLongestFitting_decode_iff 64 _).mp hnickname
  rw [String.toList_ofList] at hcut
  exact absurd hcut (by decide)

/-! ## Beacons -/

omit [DecidableEq β] in
/-- The nickname of a beacon is read as that of an identity payload. -/
lemma beaconCandidate_nickname (hP : P.Correct) (identity : Identity X E) {timestamp : Bytes β}
    (htimestamp : timestamp.length = 8) :
    (beaconCandidate (identity.beacon P timestamp)).nickname =
      decodeReplace (sentNickname identity : Bytes β) := by
  have hsigning : (identity.signingPublic P).length = 32 := hP.length_ed25519Public _
  have hstatic : (identity.staticPublic P).length = 32 := hP.length_x25519Public _
  have hsignature : ∀ m, (identity.signTranscript P m).length = 64 := fun m => hP.length_sign _ _
  have hnick := length_sentNickname (β := β) identity
  have hlen : (UInt8.ofNat (sentNickname identity : Bytes β).length).toNat =
      (sentNickname identity : Bytes β).length := toNat_octet (by omega)
  obtain ⟨front, hfront, hbeacon⟩ : ∃ front : Bytes β, front.length = 136 ∧
      identity.beacon P timestamp = front ++
        (ofOctet (UInt8.ofNat (sentNickname identity : Bytes β).length) ::
          sentNickname identity) := by
    refine ⟨_, ?_, List.append_assoc _ _ _⟩
    simp only [List.length_append, hsigning, hstatic, hsignature, htimestamp]
  simp only [beaconCandidate, hbeacon]
  rw [List.drop_left' hfront, ← List.drop_drop (i := 1), List.drop_left' hfront]
  simp [hlen]

omit [DecidableEq β] in
/-- So it is cut in the same way. -/
theorem beaconNickname_iff (hP : P.Correct) (identity : Identity X E) {timestamp : Bytes β}
    (htimestamp : timestamp.length = 8) :
    IsLongestFitting 64 identity.nickname.toList
      (beaconCandidate (identity.beacon P timestamp)).nickname.toList ↔
      CutsBetween 64 identity.nickname.toList := by
  rw [beaconCandidate_nickname hP identity htimestamp]
  exact isLongestFitting_decode_iff 64 identity.nickname

end Chatbit
