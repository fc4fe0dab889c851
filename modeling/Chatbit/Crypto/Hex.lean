import Chatbit.Crypto.Identity

/-!
# Reading hex

`bytes.fromhex`, and that it inverts `hex`.
-/

namespace Chatbit

/-- The characters that `bytes.fromhex` skips between two octets. -/
def isAsciiSpace (c : Char) : Bool := c ∈ [' ', '\t', '\n', '\r', '\x0b', '\x0c']

/-- The value of a hexadecimal digit. -/
def hexValue (c : Char) : Option ℕ :=
  if '0' ≤ c ∧ c ≤ '9' then some (c.toNat - 48)
  else if 'a' ≤ c ∧ c ≤ 'f' then some (c.toNat - 87)
  else if 'A' ≤ c ∧ c ≤ 'F' then some (c.toNat - 55)
  else none

/-- `bytes.fromhex`; `none` is `ValueError`. -/
def fromHex : List Char → Option (Bytes UInt8)
  | [] => some []
  | high :: rest =>
    if isAsciiSpace high then fromHex rest
    else match rest with
      | [] => none
      | low :: rest => do
        let octet := UInt8.ofNat (16 * (← hexValue high) + (← hexValue low))
        return octet :: (← fromHex rest)

lemma hexValue_digitChar {n : ℕ} (h : n < 16) :
    hexValue (Nat.digitChar n) = some n ∧ isAsciiSpace (Nat.digitChar n) = false := by
  have hall : ∀ n < 16, hexValue (Nat.digitChar n) = some n ∧
      isAsciiSpace (Nat.digitChar n) = false := by decide
  exact hall n h

/-- The hex form of a byte string reads as the byte string. -/
lemma fromHex_hex (raw : Bytes UInt8) : fromHex (hex raw).toList = some raw := by
  rw [hex, String.toList_ofList]
  induction raw with
  | nil => rfl
  | cons byte raw ih =>
    obtain ⟨hhigh, hspace⟩ := hexValue_digitChar (n := byte.toNat / 16)
      (by have := byte.toNat_lt; omega)
    obtain ⟨hlow, -⟩ := hexValue_digitChar (n := byte.toNat % 16) (Nat.mod_lt _ (by decide))
    have hoctet : UInt8.ofNat (16 * (byte.toNat / 16) + byte.toNat % 16) = byte := by
      rw [Nat.div_add_mod, UInt8.ofNat_toNat]
    have hdigits : ∀ rest, fromHex (Nat.digitChar (byte.toNat / 16) ::
        Nat.digitChar (byte.toNat % 16) :: rest) = (fromHex rest).map (byte :: ·) := by
      intro rest
      rw [fromHex, hspace, if_neg Bool.false_ne_true, hhigh, hlow]
      simp only [Option.bind_eq_bind, Option.bind_some, hoctet]
      cases fromHex rest <;> rfl
    exact (hdigits _).trans (congrArg (Option.map (byte :: ·)) ih)

end Chatbit
