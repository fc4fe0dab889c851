import Mathlib.Algebra.Order.Floor.Ring
import Mathlib.Tactic.Linarith
import Mathlib.Tactic.NormNum
import Chatbit.Crypto.Symbolic
import Chatbit.Lib.Method
import Chatbit.Wire.Tags

/-!
# The epochs that a receiver accepts

A receiver computes the tags of its own epoch and of the two next to it, and accepts a tag among
them. In the first epoch the one before it has a negative number, which has no encoding, and instead
of an answer there is an exception (`tagMatches_ok_iff`, `answers_iff`).
-/

namespace Chatbit

open Lib

variable {β X E : Type} [Alphabet β] [DecidableEq β] {P : Primitives β X E}

namespace Tags

variable {tagKey tag raw : Bytes β} {epoch epoch₁ epoch₂ : ℤ} {handshake : Bool} {now t t' : ℚ}

/-! ## Tags of an epoch -/

omit [DecidableEq β] in
lemma epochBytes_ok_iff :
    epochBytes epoch = .ok raw ↔
      0 ≤ epoch ∧ epoch.toNat < 256 ^ 8 ∧ raw = toBytesBig 8 epoch.toNat := by
  by_cases hneg : epoch < 0
  · simp only [epochBytes, if_pos hneg, reduceCtorEq, false_iff]
    omega
  · by_cases hlt : epoch.toNat < 256 ^ 8 <;>
      simp only [epochBytes, intToBytes, if_neg hneg, hlt, if_true, if_false, Except.ok.injEq,
        reduceCtorEq, true_and, false_and, and_false, eq_comm (a := raw)]
    exact ⟨fun h => ⟨by omega, h⟩, And.right⟩

omit [DecidableEq β] in
lemma computeTag_ok_iff :
    computeTag P tagKey epoch = .ok tag ↔ ∃ raw, epochBytes epoch = .ok raw ∧
      tag = (P.hmacSha256 tagKey (tagDomain ++ raw)).take 8 := by
  rcases hraw : epochBytes (β := β) epoch with err | raw
  · simp [computeTag, hraw, bind, Except.bind]
  · simp [computeTag, hraw, bind, Except.bind, pure, Except.pure, eq_comm]

/-- The function that `acceptable_tags` calls. -/
def tagAt (P : Primitives β X E) (handshake : Bool) (tagKey : Bytes β) (epoch : ℤ) :
    Except (Exc β) (Bytes β) :=
  if handshake then handshakeTag P tagKey epoch else computeTag P tagKey epoch

omit [DecidableEq β] in
/-- What the two kinds of tags have in common. -/
lemma tagAt_eq (P : Primitives β X E) (handshake : Bool) (tagKey : Bytes β) (epoch : ℤ) :
    tagAt P handshake tagKey epoch = (epochBytes epoch).map fun raw =>
      (P.hmacSha256 tagKey ((if handshake then handshakeDomain else tagDomain) ++ raw)).take 8 := by
  unfold tagAt
  cases handshake <;> rfl

omit [DecidableEq β] in
/-- An epoch has a tag if eight octets hold its number. -/
lemma exists_tagAt_iff :
    (∃ tag, tagAt P handshake tagKey epoch = .ok tag) ↔ 0 ≤ epoch ∧ epoch < 256 ^ 8 := by
  have hraw : (∃ raw : Bytes β, epochBytes epoch = .ok raw) ↔ 0 ≤ epoch ∧ epoch < 256 ^ 8 := by
    constructor
    · rintro ⟨raw, h⟩
      obtain ⟨hpos, hlt, -⟩ := epochBytes_ok_iff.mp h
      omega
    · rintro ⟨hpos, hlt⟩
      exact ⟨_, epochBytes_ok_iff.mpr ⟨hpos, by omega, rfl⟩⟩
  rw [← hraw, tagAt_eq]
  rcases epochBytes (β := β) epoch with err | raw <;> simp [Except.map]

/-! ## The accepted set -/

omit [DecidableEq β] in
lemma acceptableTags_eq (P : Primitives β X E) (tagKey : Bytes β) (now : ℚ) (handshake : Bool) :
    acceptableTags P tagKey now handshake =
      [-1, 0, 1].mapM fun delta => tagAt P handshake tagKey (currentEpoch now + delta) := by
  unfold acceptableTags tagAt
  cases handshake <;> rfl

/-- The check needs the tags of all three epochs, and finds the tag among them. -/
lemma tagMatches_ok_iff {hit : Bool} : tagMatches P tag tagKey now handshake = .ok hit ↔
    1 ≤ currentEpoch now ∧ currentEpoch now + 1 < 256 ^ 8 ∧
      (hit = true ↔ ∃ epoch, |currentEpoch now - epoch| ≤ EPOCH_SKEW ∧
        tagAt P handshake tagKey epoch = .ok tag) := by
  have hany : ∀ delta : ℤ, delta ∈ [-1, 0, 1] ↔ |delta| ≤ EPOCH_SKEW := by
    intro delta
    simp only [List.mem_cons, List.not_mem_nil, or_false, EPOCH_SKEW, Nat.cast_one, abs_le]
    omega
  have hfound : ∀ l, acceptableTags P tagKey now handshake = .ok l → (tag ∈ l ↔
      ∃ epoch, |currentEpoch now - epoch| ≤ EPOCH_SKEW ∧
        tagAt P handshake tagKey epoch = .ok tag) := by
    intro l hl
    rw [acceptableTags_eq] at hl
    rw [mem_of_mapM_ok hl]
    constructor
    · rintro ⟨delta, hdelta, htag⟩
      refine ⟨_, ?_, htag⟩
      rw [sub_add_cancel_left, abs_neg]
      exact (hany delta).mp hdelta
    · rintro ⟨epoch, hskew, htag⟩
      refine ⟨epoch - currentEpoch now, (hany _).mpr (by rwa [abs_sub_comm]), ?_⟩
      rwa [add_sub_cancel]
  have hall : (∃ l, acceptableTags P tagKey now handshake = .ok l) ↔
      1 ≤ currentEpoch now ∧ currentEpoch now + 1 < 256 ^ 8 := by
    simp only [acceptableTags_eq, exists_mapM_ok_iff, exists_tagAt_iff, List.forall_mem_cons]
    simp only [List.not_mem_nil, false_implies, implies_true, and_true]
    omega
  rw [← and_assoc, ← hall]
  unfold tagMatches
  constructor
  · intro h
    rcases hl : acceptableTags P tagKey now handshake with err | l
    · rw [hl] at h
      cases h
    · rw [hl] at h
      obtain rfl : decide (tag ∈ l) = hit := Except.ok.inj h
      exact ⟨⟨l, rfl⟩, decide_eq_true_iff.trans (hfound l hl)⟩
  · rintro ⟨⟨l, hl⟩, hhit⟩
    rw [hl]
    refine congrArg Except.ok (Bool.eq_iff_iff.mpr ?_)
    rw [decide_eq_true_iff, hfound l hl, hhit]

/-! ## The window -/

/-- `matches` at `t'` of the tag that is computed at `t`. -/
def checkAt (P : Primitives β X E) (handshake : Bool) (tagKey : Bytes β) (t t' : ℚ) :
    Except (Exc β) Bool := do
  let tag ← tagAt P handshake tagKey (currentEpoch t)
  tagMatches P tag tagKey t' handshake

/-- No two epochs have the same tag under the key. -/
def Distinct (P : Primitives β X E) (handshake : Bool) (tagKey : Bytes β) : Prop :=
  ∀ epoch₁ epoch₂ tag, tagAt P handshake tagKey epoch₁ = .ok tag →
    tagAt P handshake tagKey epoch₂ = .ok tag → epoch₁ = epoch₂

/-- The check returns whether the two epochs are neighbours, as they are whenever the two times are
no further apart than an epoch is long. -/
def Answers (P : Primitives β X E) (handshake : Bool) (tagKey : Bytes β) (t t' : ℚ) : Prop :=
  ∃ hit, checkAt P handshake tagKey t t' = .ok hit ∧
    (hit = true ↔ |currentEpoch t - currentEpoch t'| ≤ EPOCH_SKEW) ∧
    (|t - t'| ≤ EPOCH_SECONDS → hit = true)

omit [DecidableEq β] in
lemma distinct_of_tagIdeal (hT : P.TagIdeal) (handshake : Bool) (tagKey : Bytes β) :
    Distinct P handshake tagKey := by
  intro epoch₁ epoch₂ tag h₁ h₂
  rw [tagAt_eq] at h₁ h₂
  rcases hraw₁ : epochBytes (β := β) epoch₁ with err | raw₁
  · rw [hraw₁] at h₁
    cases h₁
  rcases hraw₂ : epochBytes (β := β) epoch₂ with err | raw₂
  · rw [hraw₂] at h₂
    cases h₂
  rw [hraw₁] at h₁
  rw [hraw₂] at h₂
  have htag := (Except.ok.inj h₁).trans (Except.ok.inj h₂).symm
  have hraw := List.append_cancel_left (hT.tag_inj _ _ _ htag)
  obtain ⟨hpos₁, hlt₁, rfl⟩ := epochBytes_ok_iff.mp hraw₁
  obtain ⟨hpos₂, hlt₂, rfl⟩ := epochBytes_ok_iff.mp hraw₂
  have := toBytesBig_inj hlt₁ hlt₂ hraw
  omega

omit [DecidableEq β] in
/-- Two epochs have different tags under one key. -/
lemma computeTag_ne (hT : P.TagIdeal) {tag₁ tag₂ : Bytes β}
    (h₁ : computeTag P tagKey epoch₁ = .ok tag₁) (h₂ : computeTag P tagKey epoch₂ = .ok tag₂)
    (hne : epoch₁ ≠ epoch₂) : tag₁ ≠ tag₂ := by
  rintro rfl
  exact hne (distinct_of_tagIdeal hT false tagKey _ _ _ h₁ h₂)

lemma le_currentEpoch_iff {n : ℤ} : n ≤ currentEpoch t ↔ n * EPOCH_SECONDS ≤ t := by
  rw [currentEpoch, Rat.le_floor_iff, le_div_iff₀ (by norm_num [EPOCH_SECONDS])]

lemma currentEpoch_lt_iff {n : ℤ} : currentEpoch t < n ↔ t < n * EPOCH_SECONDS := by
  rw [← not_le, le_currentEpoch_iff, not_le]

lemma currentEpoch_mono (h : t ≤ t') : currentEpoch t ≤ currentEpoch t' :=
  le_currentEpoch_iff.mpr ((le_currentEpoch_iff.mp le_rfl).trans h)

/-- The epoch before is not negative. -/
lemma one_le_currentEpoch_iff : 1 ≤ currentEpoch t ↔ EPOCH_SECONDS ≤ t := by
  rw [le_currentEpoch_iff, Int.cast_one, one_mul]

/-- The epoch after has a number of eight octets. -/
lemma currentEpoch_add_one_lt_iff :
    currentEpoch t + 1 < 256 ^ 8 ↔ t < (256 ^ 8 - 1) * EPOCH_SECONDS := by
  rw [← lt_sub_iff_add_lt, currentEpoch_lt_iff]
  norm_num

/-- An epoch length takes to the next epoch at most. -/
lemma currentEpoch_near (h : |t - t'| ≤ EPOCH_SECONDS) :
    |currentEpoch t - currentEpoch t'| ≤ EPOCH_SKEW := by
  have hstep : ∀ {x y : ℚ}, x ≤ y + EPOCH_SECONDS → currentEpoch x < currentEpoch y + 2 := by
    intro x y hxy
    have hy : currentEpoch y < currentEpoch y + 1 := by omega
    rw [currentEpoch_lt_iff] at hy ⊢
    push_cast at hy ⊢
    linarith
  obtain ⟨hlow, hhigh⟩ := abs_le.mp h
  have h₁ := hstep (by linarith : t ≤ t' + EPOCH_SECONDS)
  have h₂ := hstep (by linarith : t' ≤ t + EPOCH_SECONDS)
  rw [EPOCH_SKEW, abs_le]
  omega

/-- The check answers exactly if the receiver is past the first epoch and both epochs, and the one
after the receiver's, have a number of eight octets. -/
theorem answers_iff (hdistinct : Distinct P handshake tagKey) (ht : 0 ≤ t) :
    Answers P handshake tagKey t t' ↔
      EPOCH_SECONDS ≤ t' ∧ t' < (256 ^ 8 - 1) * EPOCH_SECONDS ∧ t < 256 ^ 8 * EPOCH_SECONDS := by
  have hsent : t < 256 ^ 8 * EPOCH_SECONDS ↔ currentEpoch t < 256 ^ 8 := by
    rw [currentEpoch_lt_iff]
    norm_num
  have hepoch : 0 ≤ currentEpoch t := by
    rw [le_currentEpoch_iff]
    simpa using ht
  rw [← one_le_currentEpoch_iff, ← currentEpoch_add_one_lt_iff, hsent]
  constructor
  · -- an answer has gone through the tags of all the epochs
    rintro ⟨hit, hcheck, -⟩
    unfold checkAt at hcheck
    rcases htag : tagAt P handshake tagKey (currentEpoch t) with err | tag
    · rw [htag] at hcheck
      cases hcheck
    · rw [htag] at hcheck
      obtain ⟨hone, hmore, -⟩ := tagMatches_ok_iff.mp hcheck
      exact ⟨hone, hmore, (exists_tagAt_iff.mp ⟨tag, htag⟩).2⟩
  · rintro ⟨hone, hmore, hlt⟩
    obtain ⟨tag, htag⟩ : ∃ tag, tagAt P handshake tagKey (currentEpoch t) = .ok tag :=
      exists_tagAt_iff.mpr ⟨hepoch, hlt⟩
    refine ⟨decide (|currentEpoch t - currentEpoch t'| ≤ EPOCH_SKEW), ?_, decide_eq_true_iff, ?_⟩
    · unfold checkAt
      rw [htag]
      refine tagMatches_ok_iff.mpr ⟨hone, hmore, ?_⟩
      rw [decide_eq_true_iff, abs_sub_comm]
      constructor
      · exact fun h => ⟨_, h, htag⟩
      · -- the tag is of one epoch only
        rintro ⟨epoch, hskew, htag'⟩
        rwa [hdistinct _ _ _ htag htag']
    · exact fun h => decide_eq_true (currentEpoch_near h)

/-- Ten o'clock against ten minutes later, on the first day of the epoch. -/
theorem answers_later :
    Answers symbolic false (zeros 32) 36000 36600 ↔
      EPOCH_SECONDS ≤ (36600 : ℚ) ∧ (36600 : ℚ) < (256 ^ 8 - 1) * EPOCH_SECONDS ∧
        (36000 : ℚ) < 256 ^ 8 * EPOCH_SECONDS :=
  answers_iff (distinct_of_tagIdeal symbolic_tagIdeal _ _) (by norm_num)

/-- In the first ten minutes the check of a tag raises, whichever kind it is. -/
theorem first_epoch_raises :
    (∀ handshake, Distinct symbolic handshake (zeros 32)) ∧
    (∀ handshake, checkAt symbolic handshake (zeros 32) 60 60 =
      .error (.overflowError "can't convert negative int to unsigned")) ∧
    ∀ handshake, ¬ Answers symbolic handshake (zeros 32) 60 60 := by
  have hcheck : ∀ handshake, checkAt symbolic handshake (zeros 32) 60 60 =
      .error (.overflowError "can't convert negative int to unsigned") := by
    intro handshake
    cases handshake <;> decide +kernel
  refine ⟨fun handshake => distinct_of_tagIdeal symbolic_tagIdeal handshake _, hcheck, ?_⟩
  rintro handshake ⟨hit, hhit, -⟩
  rw [hcheck] at hhit
  cases hhit

end Tags

end Chatbit
