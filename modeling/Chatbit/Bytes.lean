import Mathlib.Algebra.GroupWithZero.Nat
import Mathlib.Data.List.Basic
import Mathlib.Data.List.Induction
import Mathlib.Tactic.Common

/-!
# Byte strings

Byte strings are lists over an *alphabet*: a type that contains the 256 octets and may contain
more. Over `UInt8` itself they are the strings the program handles. The larger alphabets are what
a symbolic reading of the cryptography needs: a hash with a 32-byte output cannot be injective on
strings of octets, so an idealised hash writes bytes that are not octets. The code never looks at
such a byte other than to copy it, to compare it or to read it as a number (`toOctet`).
-/

namespace Chatbit

/-- A type of bytes that contains the octets. -/
class Alphabet (β : Type) where
  ofOctet : UInt8 → β
  toOctet : β → UInt8
  toOctet_ofOctet : ∀ b, toOctet (ofOctet b) = b

export Alphabet (ofOctet toOctet)

attribute [simp] Alphabet.toOctet_ofOctet

/-- The bytes the program handles. -/
instance : Alphabet UInt8 where
  ofOctet := id
  toOctet := id
  toOctet_ofOctet _ := rfl

abbrev Bytes (β : Type) := List β

/-- Byte strings are compared byte by byte. -/
instance {β : Type} [DecidableEq β] : LawfulBEq (Bytes β) := inferInstanceAs (LawfulBEq (List β))

variable {β : Type} [Alphabet β]

/-- Different octets are different bytes. -/
lemma ofOctet_injective : Function.Injective (ofOctet : UInt8 → β) :=
  Function.LeftInverse.injective Alphabet.toOctet_ofOctet

/-- A `bytes` literal, all of whose characters are ASCII. -/
def ascii (s : String) : Bytes β := s.toList.map fun c => ofOctet c.toNat.toUInt8

/-- `b"\x00" * n` -/
def zeros (n : ℕ) : Bytes β := List.replicate n (ofOctet 0)

/-- `s.encode()` -/
def encodeUtf8 (s : String) : Bytes β := s.toUTF8.data.toList.map ofOctet

@[simp] lemma length_ascii (s : String) : (ascii s : Bytes β).length = s.toList.length := by
  simp [ascii]

@[simp] lemma length_zeros (n : ℕ) : (zeros n : Bytes β).length = n := by simp [zeros]

/-! ## Integers -/

/-- The `len` low octets of `n`, most significant first. -/
def beOctets : ℕ → ℕ → List UInt8
  | 0, _ => []
  | len + 1, n => beOctets len (n / 256) ++ [UInt8.ofNat (n % 256)]

/-- The number that a big-endian octet string denotes. -/
def ofBeOctets (l : List UInt8) : ℕ := l.foldl (fun acc b => acc * 256 + b.toNat) 0

/-- `n.to_bytes(len, "big")` of an integer in range. -/
def toBytesBig (len n : ℕ) : Bytes β := (beOctets len n).map ofOctet

/-- `n.to_bytes(len, "little")` of an integer in range. -/
def toBytesLittle (len n : ℕ) : Bytes β := ((beOctets len n).map ofOctet).reverse

/-- `int.from_bytes(raw, "big")` -/
def fromBytesBig (raw : Bytes β) : ℕ := ofBeOctets (raw.map toOctet)

@[simp] lemma length_beOctets (len n : ℕ) : (beOctets len n).length = len := by
  induction len generalizing n with
  | zero => rfl
  | succ len ih => simp [beOctets, ih]

/-- The last octet counts once. -/
lemma ofBeOctets_append_singleton (l : List UInt8) (b : UInt8) :
    ofBeOctets (l ++ [b]) = ofBeOctets l * 256 + b.toNat := by
  simp [ofBeOctets]

/-- A number that fits is read back. -/
lemma ofBeOctets_beOctets {len n : ℕ} (h : n < 256 ^ len) : ofBeOctets (beOctets len n) = n := by
  induction len generalizing n with
  | zero => simp only [Nat.pow_zero, Nat.lt_one_iff] at h; subst h; rfl
  | succ len ih =>
    have hdiv : n / 256 < 256 ^ len := by
      rw [Nat.div_lt_iff_lt_mul (by decide), ← Nat.pow_succ]; exact h
    have hmod : (UInt8.ofNat (n % 256)).toNat = n % 256 := by
      simp [UInt8.toNat_ofNat']
    rw [beOctets, ofBeOctets_append_singleton, ih hdiv, hmod]
    omega

@[simp] lemma length_toBytesBig (len n : ℕ) : (toBytesBig len n : Bytes β).length = len := by
  simp [toBytesBig]

/-- Reading back a big-endian integer. -/
lemma fromBytesBig_toBytesBig {len n : ℕ} (h : n < 256 ^ len) :
    fromBytesBig (toBytesBig len n : Bytes β) = n := by
  have hmap : ((beOctets len n).map (ofOctet : UInt8 → β)).map toOctet = beOctets len n := by
    simp [List.map_map, Function.comp_def]
  rw [fromBytesBig, toBytesBig, hmap, ofBeOctets_beOctets h]

/-- Numbers that fit have different bytes. -/
lemma toBytesBig_inj {len n m : ℕ} (hn : n < 256 ^ len) (hm : m < 256 ^ len)
    (h : (toBytesBig len n : Bytes β) = toBytesBig len m) : n = m := by
  rw [← fromBytesBig_toBytesBig (β := β) hn, h, fromBytesBig_toBytesBig hm]

/-- A fixed number of octets denotes a number below a fixed bound. -/
lemma fromBytesBig_lt (raw : Bytes β) : fromBytesBig raw < 256 ^ raw.length := by
  have hlt : ∀ l : List UInt8, ofBeOctets l < 256 ^ l.length := by
    intro l
    induction l using List.reverseRecOn with
    | nil => decide
    | append_singleton l b ih =>
      have hb : b.toNat < 256 := UInt8.toNat_lt b
      rw [ofBeOctets_append_singleton, List.length_append, List.length_singleton, Nat.pow_succ]
      omega
  have := hlt (raw.map toOctet)
  rwa [List.length_map] at this

/-! ## UTF-8 with replacement -/

/-- A continuation octet in the given range. -/
def inRange (lo hi b : UInt8) : Bool := lo ≤ b && b ≤ hi

/-- The character with the given code point bits. -/
def charOf (lead : ℕ) (tail : List UInt8) : Char :=
  Char.ofNat (tail.foldl (fun acc b => acc * 64 + (b.toNat - 0x80)) lead)

/-- U+FFFD, what `errors="replace"` writes for a malformed sequence. -/
def replacementChar : Char := Char.ofNat 0xFFFD

/-- `raw.decode("utf-8", errors="replace")`: every maximal prefix of a sequence that is not
well formed becomes one replacement character. -/
def decodeUtf8 : List UInt8 → List Char
  | [] => []
  | b0 :: t =>
    if b0 < 0x80 then Char.ofNat b0.toNat :: decodeUtf8 t
    else if inRange 0xC2 0xDF b0 then
      match t with
      | [] => [replacementChar]
      | b1 :: t1 =>
        if inRange 0x80 0xBF b1 then charOf (b0.toNat - 0xC0) [b1] :: decodeUtf8 t1
        else replacementChar :: decodeUtf8 (b1 :: t1)
    else if inRange 0xE0 0xEF b0 then
      let lo : UInt8 := if b0 = 0xE0 then 0xA0 else 0x80
      let hi : UInt8 := if b0 = 0xED then 0x9F else 0xBF
      match t with
      | [] => [replacementChar]
      | b1 :: t1 =>
        if inRange lo hi b1 then
          match t1 with
          | [] => [replacementChar]
          | b2 :: t2 =>
            if inRange 0x80 0xBF b2 then charOf (b0.toNat - 0xE0) [b1, b2] :: decodeUtf8 t2
            else replacementChar :: decodeUtf8 (b2 :: t2)
        else replacementChar :: decodeUtf8 (b1 :: t1)
    else if inRange 0xF0 0xF4 b0 then
      let lo : UInt8 := if b0 = 0xF0 then 0x90 else 0x80
      let hi : UInt8 := if b0 = 0xF4 then 0x8F else 0xBF
      match t with
      | [] => [replacementChar]
      | b1 :: t1 =>
        if inRange lo hi b1 then
          match t1 with
          | [] => [replacementChar]
          | b2 :: t2 =>
            if inRange 0x80 0xBF b2 then
              match t2 with
              | [] => [replacementChar]
              | b3 :: t3 =>
                if inRange 0x80 0xBF b3 then
                  charOf (b0.toNat - 0xF0) [b1, b2, b3] :: decodeUtf8 t3
                else replacementChar :: decodeUtf8 (b3 :: t3)
            else replacementChar :: decodeUtf8 (b2 :: t2)
        else replacementChar :: decodeUtf8 (b1 :: t1)
    else replacementChar :: decodeUtf8 t

/-- A lone continuation octet, a truncated sequence and an encoded surrogate. -/
example : decodeUtf8 [0x41, 0x80, 0xC3, 0xA9, 0xE2, 0x82, 0x28, 0xED, 0xA0, 0x80, 0xF0, 0x9F] =
    ['A', replacementChar, 'é', replacementChar, '(', replacementChar, replacementChar,
      replacementChar, replacementChar] := by
  decide

/-- `raw.decode("utf-8", errors="replace")` -/
def decodeReplace (raw : Bytes β) : String := String.ofList (decodeUtf8 (raw.map toOctet))

end Chatbit
