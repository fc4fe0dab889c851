import Chatbit.Crypto.Assumptions

/-!
# A symbolic instance

An alphabet with a mark for every term that a primitive can build, and primitives that write such
marks: a 32-byte output is a mark that names the operation and its arguments, padded with zero
octets. Equal outputs then have equal arguments, so the instance has every property that
`Crypto.Assumptions` asks for, and none of the hypotheses of the results is vacuous.
-/

namespace Chatbit

/-- The operation that a mark stands for. -/
inductive SymOp where
  | sha256 | hmac | x25519 | dh | dhUnowned | ed25519 | signature | tag
deriving DecidableEq

/-- Octets, and marks with a list of arguments. -/
inductive SymByte where
  | octet (b : UInt8)
  | num (n : ℕ)
  | nil
  | cons (head tail : SymByte)
  | mark (op : SymOp) (args : SymByte)
deriving DecidableEq

namespace SymByte

instance : Alphabet SymByte where
  ofOctet := octet
  toOctet
    | octet b => b
    | _ => 0
  toOctet_ofOctet _ := rfl

/-- A byte string as one argument of a mark. -/
def pack (l : Bytes SymByte) : SymByte := l.foldr cons nil

def packs (l : List (Bytes SymByte)) : SymByte := l.foldr (fun a t => cons (pack a) t) nil

/-- The output of `len + 1` bytes of an operation. -/
def output (op : SymOp) (args : List (Bytes SymByte)) (len : ℕ) : Bytes SymByte :=
  mark op (packs args) :: zeros len

/-- A byte string that is packed into one symbol can be read back. -/
lemma pack_inj {l l' : Bytes SymByte} (h : pack l = pack l') : l = l' := by
  induction l generalizing l' with
  | nil => cases l' with
    | nil => rfl
    | cons b l' => cases h
  | cons a l ih => cases l' with
    | nil => cases h
    | cons b l' =>
      obtain ⟨rfl, htail⟩ := cons.inj h
      rw [ih htail]

/-- So can a list of them. -/
lemma packs_inj {l l' : List (Bytes SymByte)} (h : packs l = packs l') : l = l' := by
  induction l generalizing l' with
  | nil => cases l' with
    | nil => rfl
    | cons b l' => cases h
  | cons a l ih => cases l' with
    | nil => cases h
    | cons b l' =>
      obtain ⟨ha, htail⟩ := cons.inj h
      rw [pack_inj ha, ih htail]

/-- The output of an operation names the operation and its arguments. -/
lemma output_inj {op op' : SymOp} {args args' : List (Bytes SymByte)} {len len' : ℕ}
    (h : output op args len = output op' args' len') : op = op' ∧ args = args' := by
  obtain ⟨hop, hargs⟩ := mark.inj (List.cons.inj h).1
  exact ⟨hop, packs_inj hargs⟩

/-- An output is a mark, and behind it as many bytes as are asked for. -/
@[simp] lemma length_output (op : SymOp) (args : List (Bytes SymByte)) (len : ℕ) :
    (output op args len).length = len + 1 := by
  simp [output]

/-! ## The primitives -/

def publicKey (x : ℕ) : Bytes SymByte := output .x25519 [[num x]] 31

def signingKey (e : ℕ) : Bytes SymByte := output .ed25519 [[num e]] 31

def signature (e : ℕ) (message : Bytes SymByte) : Bytes SymByte :=
  output .signature [[num e], message] 63

/-- The private key that a key mark names. -/
def ownerOf : Bytes SymByte → Option ℕ
  | mark _ (cons (cons (num x) nil) nil) :: _ => some x
  | _ => none

/-- The secret of a key and the owner of a public key; symmetric in the two. -/
def secret (x : ℕ) (raw : Bytes SymByte) : Bytes SymByte :=
  match ownerOf raw with
  | some y =>
    if raw = publicKey y then output .dh [[num (min x y)], [num (max x y)]] 31
    else output .dhUnowned [[num x], raw] 31
  | none => output .dhUnowned [[num x], raw] 31

def sealed (key nonce plaintext ad : Bytes SymByte) : Bytes SymByte :=
  plaintext ++ output .tag [key, nonce, plaintext, ad] 15

/-- Opening is sealing again and comparing. -/
def opened (key nonce ciphertext ad : Bytes SymByte) : Option (Bytes SymByte) :=
  let plaintext := ciphertext.take (ciphertext.length - 16)
  if ciphertext = sealed key nonce plaintext ad then some plaintext else none

def verifies (raw sig message : Bytes SymByte) : Bool :=
  match ownerOf raw with
  | some e => raw = signingKey e && sig = signature e message
  | none => false

end SymByte

open SymByte

/-- Private keys of both kinds are numbers. -/
def symbolic : Primitives SymByte ℕ ℕ where
  sha256 d := output .sha256 [d] 31
  hmacSha256 k d := output .hmac [k, d] 31
  chachaEncrypt := sealed
  chachaDecrypt := opened
  x25519PublicBytes := publicKey
  exchange := secret
  ed25519PublicBytes := signingKey
  sign := signature
  ed25519Verify := verifies

namespace SymByte

/-- The secret of two key pairs does not depend on which side computes it. -/
lemma secret_publicKey (x y : ℕ) :
    secret x (publicKey y) = output .dh [[num (min x y)], [num (max x y)]] 31 := by
  have : ownerOf (publicKey y) = some y := rfl
  simp only [secret, this, if_true]

/-- A ciphertext opens exactly under what it was sealed with. -/
lemma opened_eq_some_iff {key nonce ciphertext ad plaintext : Bytes SymByte} :
    opened key nonce ciphertext ad = some plaintext ↔
      ciphertext = sealed key nonce plaintext ad := by
  have htake : ∀ p : Bytes SymByte,
      (sealed key nonce p ad).take ((sealed key nonce p ad).length - 16) = p := by
    intro p; simp [sealed]
  simp only [opened]
  constructor
  · intro h
    split_ifs at h with hc
    obtain rfl := Option.some.inj h
    exact hc
  · rintro rfl
    rw [htake, if_pos rfl]

/-- A ciphertext names its key, its nonce, its plaintext and its associated data. -/
lemma sealed_inj {k k' n n' p p' ad ad' : Bytes SymByte}
    (h : sealed k n p ad = sealed k' n' p' ad') : k = k' ∧ n = n' ∧ p = p' ∧ ad = ad' := by
  have htag := (List.append_inj' h (by simp)).2
  simpa using (output_inj htag).2

/-- Signing keys are numbers. -/
lemma signingKey_inj {x y : ℕ} (h : signingKey x = signingKey y) : x = y := by
  simpa using (output_inj h).2

/-- Only the owner's signature on the message verifies. -/
lemma verifies_iff {e : ℕ} {sig message : Bytes SymByte} :
    verifies (signingKey e) sig message = true ↔ sig = signature e message := by
  have : ownerOf (signingKey e) = some e := rfl
  simp [verifies, this]

end SymByte

/-- Outputs have the lengths of the real ones, and what was sealed opens. -/
theorem symbolic_correct : symbolic.Correct where
  length_sha256 _ := length_output ..
  length_hmac _ _ := length_output ..
  length_x25519Public _ := length_output ..
  length_ed25519Public _ := length_output ..
  length_sign _ _ := length_output ..
  length_encrypt k n p ad := by
    change (sealed k n p ad).length = _
    simp [sealed, TAGLEN]
  decrypt_eq_some_iff _ _ _ _ _ := opened_eq_some_iff
  exchange_comm a b := by
    change secret a (publicKey b) = secret b (publicKey a)
    rw [secret_publicKey, secret_publicKey, Nat.min_comm, Nat.max_comm]
  exchange_ne_zero a b := by
    change secret a (publicKey b) ≠ _
    rw [secret_publicKey]
    simp [output, zeros, DHLEN, List.replicate, ofOctet]
  verify_sign e m := verifies_iff.mpr rfl

/-- The hashes of symbols do not collide. -/
theorem symbolic_hashIdeal : symbolic.HashIdeal where
  sha256_inj d d' h := by simpa using (output_inj h).2
  hmac_inj k k' d d' _ _ h := by simpa using (output_inj h).2

/-- The first byte of a tag shows all that it was computed from. -/
theorem symbolic_tagIdeal : symbolic.TagIdeal where
  tag_inj k d d' h := by
    obtain ⟨-, hargs⟩ := SymByte.mark.inj (List.cons.inj h).1
    simpa using packs_inj hargs

/-- A ciphertext shows its associated data. -/
theorem symbolic_aeadIdeal : symbolic.AeadIdeal where
  ad_inj _ _ _ _ _ _ _ _ h := (sealed_inj h).2.2.2

/-- A secret names the two owners of its keys. -/
theorem symbolic_dhIdeal : symbolic.DhIdeal where
  exchange_inj a b c d h := by
    change secret a (publicKey b) = secret c (publicKey d) at h
    rw [secret_publicKey, secret_publicKey] at h
    have hpair := (output_inj h).2
    simp only [List.cons.injEq, SymByte.num.injEq, and_true] at hpair
    obtain ⟨hmin, hmax⟩ := hpair
    have : a = c ∧ b = d ∨ a = d ∧ b = c := by omega
    rcases this with ⟨rfl, rfl⟩ | ⟨rfl, rfl⟩
    · exact Or.inl ⟨rfl, rfl⟩
    · exact Or.inr ⟨rfl, rfl⟩

/-- A secret either names both owners, or the private key and a string that nobody owns. -/
lemma SymByte.secret_cases (x : ℕ) (raw : Bytes SymByte) :
    (∃ y, raw = publicKey y ∧ secret x raw = output .dh [[num (min x y)], [num (max x y)]] 31) ∨
      secret x raw = output .dhUnowned [[num x], raw] 31 := by
  unfold secret
  split
  · split_ifs with hraw
    · exact Or.inl ⟨_, hraw, rfl⟩
    · exact Or.inr rfl
  · exact Or.inr rfl

/-- The outputs of different operations differ. -/
lemma SymByte.output_ne {op op' : SymOp} (h : op ≠ op') (args args' : List (Bytes SymByte))
    (len len' : ℕ) : output op args len ≠ output op' args' len' :=
  fun heq => h (output_inj heq).1

/-- Also where nobody owns the peer key, a secret names the private key. -/
theorem symbolic_rawDhIdeal : symbolic.RawDhIdeal where
  exchange_half x raw y raw' _ h := by
    change secret x raw = secret y raw' at h
    rcases secret_cases x raw with ⟨z, rfl, hx⟩ | hx <;>
      rcases secret_cases y raw' with ⟨z', rfl, hy⟩ | hy
    · -- two secrets of owned keys name the same two owners
      have hpair := (output_inj (hx.symm.trans (h.trans hy))).2
      simp only [List.cons.injEq, SymByte.num.injEq, and_true] at hpair
      obtain ⟨hmin, hmax⟩ := hpair
      have : x = y ∨ x = z' := by omega
      exact this.imp (congrArg publicKey) (congrArg publicKey)
    · exact absurd (hx.symm.trans (h.trans hy)) (output_ne (by decide) _ _ _ _)
    · exact absurd (hx.symm.trans (h.trans hy)) (output_ne (by decide) _ _ _ _)
    · have hargs := (output_inj (hx.symm.trans (h.trans hy))).2
      simp only [List.cons.injEq, SymByte.num.injEq, and_true] at hargs
      exact Or.inl (congrArg publicKey hargs.1)

/-- The outputs of different operations are different terms. -/
theorem symbolic_termsIdeal : symbolic.TermsIdeal where
  length_exchange x raw := by
    change (secret x raw).length = 32
    rcases secret_cases x raw with ⟨y, -, h⟩ | h <;> rw [h, length_output]
  public_ne_hmac x k d := output_ne (by decide) _ _ _ _
  exchange_ne_hmac x raw k d := by
    change secret x raw ≠ _
    rcases secret_cases x raw with ⟨y, -, h⟩ | h
    · rw [h]
      exact output_ne (by decide) _ _ _ _
    · rw [h]
      exact output_ne (by decide) _ _ _ _
  public_ne_exchange y x z := by
    change publicKey y ≠ secret x (publicKey z)
    rw [secret_publicKey]
    exact output_ne (by decide) _ _ _ _
  exchange_half x raw a b h := by
    -- the mark of a secret names the smaller and the larger of the two keys
    change secret x raw = secret a (publicKey b) at h
    rw [secret_publicKey] at h
    rcases secret_cases x raw with ⟨y, -, hx⟩ | hx
    · rw [hx] at h
      have hpair := (output_inj h).2
      simp only [List.cons.injEq, SymByte.num.injEq, and_true] at hpair
      obtain ⟨hmin, hmax⟩ := hpair
      have : x = a ∨ x = b := by omega
      exact this.imp (congrArg publicKey) (congrArg publicKey)
    · rw [hx] at h
      exact absurd (output_inj h).1 (by decide)

end Chatbit
