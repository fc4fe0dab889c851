import Chatbit.Crypto.Assumptions

/-!
# Primitives on octets

Functions with the lengths and the equations that the package documents and with none of its
secrecy. On octets a hash of 32 bytes has collisions, so what rests on the idealisations is shown of
other alphabets; what rests on the documentation alone holds of these functions, which can be
computed.
-/

namespace Chatbit

/-- A private key in its raw form. -/
abbrev RawKey := { raw : Bytes UInt8 // raw.length = DHLEN }

namespace Octets

/-- The first `n` bytes, with zeros where there are none. -/
def pad (n : ℕ) (l : Bytes UInt8) : Bytes UInt8 := (l ++ zeros n).take n

@[simp] lemma length_pad (n : ℕ) (l : Bytes UInt8) : (pad n l).length = n := by
  simp [pad]

/-- What is added to each byte of a plaintext. -/
def mask (key nonce : Bytes UInt8) : UInt8 := (key ++ nonce).foldl (· + ·) 0

def sealed (key nonce plaintext ad : Bytes UInt8) : Bytes UInt8 :=
  plaintext.map (· + mask key nonce) ++ pad TAGLEN (ad ++ plaintext)

def opened (key nonce ciphertext : Bytes UInt8) : Bytes UInt8 :=
  (ciphertext.take (ciphertext.length - TAGLEN)).map (· - mask key nonce)

lemma opened_sealed (key nonce plaintext ad : Bytes UInt8) :
    opened key nonce (sealed key nonce plaintext ad) = plaintext := by
  have hlength : (sealed key nonce plaintext ad).length - TAGLEN =
      (plaintext.map (· + mask key nonce)).length := by
    simp [sealed]
  unfold opened
  rw [hlength, sealed, List.take_left, List.map_map]
  refine (List.map_congr_left fun b _ => ?_).trans plaintext.map_id
  exact UInt8.add_sub_cancel b (mask key nonce)

def publicBytes (x : RawKey) : Bytes UInt8 := x.val.map (· + 1)

/-- The secret is nobody's zero. -/
def exchange (x : RawKey) (raw : Bytes UInt8) : Bytes UInt8 :=
  1 :: (List.zipWith (· + ·) (publicBytes x) (pad DHLEN raw)).tail

lemma pad_publicBytes (x : RawKey) : pad DHLEN (publicBytes x) = publicBytes x := by
  have hlength : (publicBytes x).length = DHLEN := (List.length_map _).trans x.property
  rw [pad, ← hlength, List.take_left]

end Octets

open Octets in
/-- The primitives of a package that does not keep a secret. -/
def octets : Primitives UInt8 RawKey RawKey where
  sha256 := pad HASHLEN
  hmacSha256 key data := List.zipWith (fun k d => k + d + 1) (pad HASHLEN key) (pad HASHLEN data)
  chachaEncrypt := sealed
  chachaDecrypt key nonce ciphertext ad :=
    if ciphertext = sealed key nonce (opened key nonce ciphertext) ad then
      some (opened key nonce ciphertext)
    else none
  x25519PublicBytes := publicBytes
  exchange := exchange
  ed25519PublicBytes e := e.val
  sign e message := e.val ++ pad 32 message
  ed25519Verify raw signature message := decide (signature = raw ++ pad 32 message)

/-- A private key is its public key. -/
lemma octets_signingPublic (e : RawKey) : octets.ed25519PublicBytes e = e.val := rfl

open Octets in
theorem octets_correct : octets.Correct where
  length_sha256 d := length_pad _ d
  length_hmac k d := by simp [octets]
  length_x25519Public x := (List.length_map _).trans x.property
  length_ed25519Public e := e.property
  length_sign e m := by
    show (e.val ++ pad 32 m).length = 64
    rw [List.length_append, e.property, length_pad]
    rfl
  length_encrypt k n p ad := by simp [octets, sealed]
  decrypt_eq_some_iff k n c p ad := by
    show (if _ then _ else _) = _ ↔ c = sealed k n p ad
    constructor
    · intro h
      split_ifs at h with hc
      rw [← Option.some.inj h]
      exact hc
    · rintro rfl
      rw [opened_sealed, if_pos rfl]
  exchange_comm a b := by
    show exchange a (publicBytes b) = exchange b (publicBytes a)
    unfold exchange
    rw [pad_publicBytes, pad_publicBytes, List.zipWith_comm_of_comm fun x y => UInt8.add_comm x y]
  exchange_ne_zero a b h := by
    have hhead := congrArg List.head? h
    simp [octets, exchange, zeros, DHLEN, List.replicate, ofOctet] at hhead
  verify_sign e m := decide_eq_true rfl

end Chatbit
