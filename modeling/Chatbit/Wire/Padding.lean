import Chatbit.Crypto.Primitives

/-!
# Length padding

`chatbit/wire/padding.py`.
-/

namespace Chatbit

variable {β : Type}

inductive PaddingPolicy where
  | strict | bucket | none
deriving DecidableEq

/-- The ladder that `BUCKET` uses, in bytes of total frame size. -/
def buckets : List ℕ := [32, 64, 96, 128, 192, 256, 384, 512, 768, 1024]

/-- The on-air size that a frame of `frameLen` bytes is padded to. -/
def paddedSize (frameLen mtu : ℕ) (policy : PaddingPolicy) : Except (Exc β) ℕ :=
  if frameLen > mtu then .error (.valueError s!"frame of {frameLen} bytes exceeds MTU {mtu}")
  else match policy with
    | .none => .ok frameLen
    | .strict => .ok mtu
    | .bucket =>
      match buckets.find? fun bucket => frameLen ≤ bucket with
      | some bucket => .ok (min bucket mtu)
      | none => .ok mtu

/-- Payload bytes available per frame. -/
def capacityFor (mtu headerLen : ℕ) : Except (Exc β) ℕ :=
  if mtu ≤ headerLen then
    .error (.valueError s!"MTU {mtu} is too small for a {headerLen}-byte header")
  else .ok (mtu - headerLen)

lemma capacityFor_ok {mtu headerLen capacity : ℕ}
    (h : capacityFor (β := β) mtu headerLen = .ok capacity) :
    headerLen + capacity = mtu ∧ 0 < capacity := by
  unfold capacityFor at h
  split_ifs at h with hle
  obtain rfl := Except.ok.inj h
  omega

/-- A frame is padded to a size that is at least its own. -/
lemma le_paddedSize {frameLen mtu size : ℕ} {policy : PaddingPolicy}
    (h : paddedSize (β := β) frameLen mtu policy = .ok size) : frameLen ≤ size ∧ size ≤ mtu := by
  unfold paddedSize at h
  split_ifs at h with hlen
  cases policy with
  | strict =>
    obtain rfl := Except.ok.inj h
    exact ⟨by omega, Nat.le_refl _⟩
  | none =>
    obtain rfl := Except.ok.inj h
    exact ⟨Nat.le_refl _, by omega⟩
  | bucket =>
    rcases hfind : buckets.find? (fun bucket => frameLen ≤ bucket) with _ | bucket
    · simp only [hfind] at h
      obtain rfl := Except.ok.inj h
      exact ⟨by omega, Nat.le_refl _⟩
    · have hle : frameLen ≤ bucket := by simpa using List.find?_some hfind
      simp only [hfind] at h
      obtain rfl := Except.ok.inj h
      omega

end Chatbit
